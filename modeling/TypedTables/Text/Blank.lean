/-!
# Blanks

Which characters count as white space, and trimming. The set is the Unicode white
space together with the four information separators U+001C to U+001F; a zero width
space and a byte order mark are not in it.
-/
namespace TypedTables.Text

/-- Whether a code point lies in one of the closed ranges. -/
def inRanges (ranges : List (Nat × Nat)) (n : Nat) : Bool :=
  ranges.any fun r => r.1 ≤ n && n ≤ r.2

/-- The white space code points, in ascending closed ranges. -/
def blankRanges : List (Nat × Nat) :=
  [(0x09, 0x0D), (0x1C, 0x20), (0x85, 0x85), (0xA0, 0xA0), (0x1680, 0x1680), (0x2000, 0x200A),
   (0x2028, 0x2029), (0x202F, 0x202F), (0x205F, 0x205F), (0x3000, 0x3000)]

def isBlank (c : Char) : Bool := inRanges blankRanges c.toNat

/-- Drop elements from the end while they satisfy `p`. -/
def dropEndWhile {α : Type} (p : α → Bool) (s : List α) : List α :=
  (s.reverse.dropWhile p).reverse

/-- Drop elements from both ends while they satisfy `p`. -/
def dropAroundWhile {α : Type} (p : α → Bool) (s : List α) : List α :=
  dropEndWhile p (s.dropWhile p)

/-- Drop the blanks at both ends. -/
def trim (s : List Char) : List Char := dropAroundWhile isBlank s

/-- The text without the blanks at its ends. -/
def trimmed (s : String) : String := String.ofList (trim s.toList)

/-- Whether a text holds blanks only. -/
def isBlankText (s : List Char) : Bool := s.all isBlank

theorem length_dropEndWhile_le {α : Type} (p : α → Bool) (s : List α) :
    (dropEndWhile p s).length ≤ s.length := by
  have : (s.reverse.dropWhile p).length ≤ s.reverse.length := (List.dropWhile_suffix p).length_le
  simpa [dropEndWhile] using this

theorem length_dropAroundWhile_le {α : Type} (p : α → Bool) (s : List α) :
    (dropAroundWhile p s).length ≤ s.length :=
  Nat.le_trans (length_dropEndWhile_le p _) (List.dropWhile_suffix p).length_le

theorem length_trim_le (s : List Char) : (trim s).length ≤ s.length :=
  length_dropAroundWhile_le isBlank s

theorem dropWhile_eq_self {α : Type} {p : α → Bool} {s : List α} (h : ∀ a ∈ s.head?, ¬ p a) :
    s.dropWhile p = s := by
  cases s with
  | nil => rfl
  | cons a s => exact List.dropWhile_cons_of_neg (h a rfl)

theorem dropAroundWhile_eq_self {α : Type} {p : α → Bool} {s : List α}
    (head : ∀ a ∈ s.head?, ¬ p a) (last : ∀ a ∈ s.getLast?, ¬ p a) : dropAroundWhile p s = s := by
  rw [dropAroundWhile, dropEndWhile, dropWhile_eq_self head, dropWhile_eq_self,
    List.reverse_reverse]
  rw [List.head?_reverse]
  exact last

/-- Core's white space is white space here too. -/
theorem isBlank_of_isWhitespace {c : Char} (h : c.isWhitespace = true) : isBlank c = true := by
  simp only [Char.isWhitespace, Bool.or_eq_true, decide_eq_true_eq] at h
  rcases h with (((h | h) | h) | h) <;> subst h <;> decide

end TypedTables.Text
