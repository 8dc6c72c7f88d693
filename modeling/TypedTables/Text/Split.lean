/-!
# Cutting texts

Cutting a text at a separator character and at line boundaries.

Results:
* `splitOn_ne_nil`: a text without separator is one piece, so there is always one.
* `intercalate_splitOn`: the pieces with the separators between them are the text.
* `length_splitOn`: there is one piece more than there are separators.
-/
namespace TypedTables.Text

/-- The pieces between the separators, in order. -/
def splitOn (sep : Char) : List Char → List (List Char)
  | [] => [[]]
  | c :: cs =>
    if c = sep then [] :: splitOn sep cs
    else match splitOn sep cs with
      | [] => [[c]]
      | piece :: pieces => (c :: piece) :: pieces

/-- The part before the first separator and, if there is one, the part after it. -/
def cutAt (sep : Char) : List Char → List Char × Option (List Char)
  | [] => ([], none)
  | c :: cs =>
    if c = sep then ([], some cs)
    else (c :: (cutAt sep cs).1, (cutAt sep cs).2)

theorem splitOn_ne_nil (sep : Char) (s : List Char) : splitOn sep s ≠ [] := by
  cases s with
  | nil => simp [splitOn]
  | cons c cs =>
    unfold splitOn
    split
    · simp
    · split <;> simp

theorem intercalate_splitOn (sep : Char) (s : List Char) :
    [sep].intercalate (splitOn sep s) = s := by
  induction s with
  | nil => simp [splitOn]
  | cons c cs ih =>
    unfold splitOn
    split
    · next h =>
      subst h
      obtain ⟨p, ps, hp⟩ := List.exists_cons_of_ne_nil (splitOn_ne_nil c cs)
      rw [hp] at ih ⊢
      simp only [List.intercalate, List.intersperse, List.flatten_cons, List.nil_append] at ih ⊢
      rw [ih]; rfl
    · obtain ⟨p, ps, hp⟩ := List.exists_cons_of_ne_nil (splitOn_ne_nil sep cs)
      rw [hp] at ih ⊢
      cases ps with
      | nil => simpa [List.intercalate] using ih
      | cons p' ps =>
        simp only [List.intercalate, List.intersperse, List.flatten_cons, List.cons_append] at ih ⊢
        rw [ih]

theorem length_splitOn (sep : Char) (s : List Char) :
    (splitOn sep s).length = s.count sep + 1 := by
  induction s with
  | nil => simp [splitOn]
  | cons c cs ih =>
    unfold splitOn
    split
    · next h => simp [h, ih]
    · next h =>
      obtain ⟨p, ps, hp⟩ := List.exists_cons_of_ne_nil (splitOn_ne_nil sep cs)
      rw [hp] at ih ⊢
      simpa [List.count_cons, h] using ih

/-! ## Lines -/

/-- Carriage return and line feed together, and a carriage return alone, become a line
feed. -/
def unifyNewlines : List Char → List Char
  | [] => []
  | '\r' :: '\n' :: cs => '\n' :: unifyNewlines cs
  | '\r' :: cs => '\n' :: unifyNewlines cs
  | c :: cs => c :: unifyNewlines cs

/-- The characters that end a line, apart from the pair of carriage return and line
feed. -/
def isLineBreak (c : Char) : Bool :=
  c == '\n' || c == '\r' || c == '\x0b' || c == '\x0c' || c == '\x1c' || c == '\x1d' || c == '\x1e'
    || c == '\u0085' || c == '\u2028' || c == '\u2029'

/-- The lines of a text without their ends. A text that ends with a line break has no
empty line after it. -/
def lines : List Char → List (List Char)
  | [] => []
  | '\r' :: '\n' :: cs => [] :: lines cs
  | c :: cs =>
    if isLineBreak c then [] :: lines cs
    else match lines cs with
      | [] => [[c]]
      | line :: rest => (c :: line) :: rest

end TypedTables.Text
