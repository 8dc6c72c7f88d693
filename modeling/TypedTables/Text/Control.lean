/-!
# Control sequences

A terminal takes an escape character and a bracket for the beginning of a control sequence:
digits, semicolons and question marks follow, and a letter ends it. What is printed for other
readers holds none, but parts of them may stay.

Results:
* `dropControls_of_not_mem`: a text without escape characters stays as it is.
-/
namespace TypedTables.Text

/-- Whether a character may stand inside a control sequence. -/
def isParameter (c : Char) : Bool := c == ';' || c == '?' || c.isDigit

/-- What follows the rest of a control sequence at the front of a text. -/
def afterControl? (s : List Char) : Option (List Char) :=
  match s.dropWhile isParameter with
  | c :: r => if c.isAlpha then some r else none
  | [] => none

theorem length_afterControl? {s r : List Char} (h : afterControl? s = some r) :
    r.length < s.length := by
  have hs : (s.dropWhile isParameter).length ≤ s.length :=
    (List.dropWhile_sublist isParameter).length_le
  unfold afterControl? at h
  split at h
  · next e =>
    rw [e, List.length_cons] at hs
    split at h
    · simp only [Option.some.injEq] at h; subst h; omega
    · cases h
  · cases h

/-- Drop the control sequences of a text. What their parts make up together is not looked at
again. -/
def dropControls : List Char → List Char
  | '\x1b' :: '[' :: s =>
    match _ : afterControl? s with
    | some r => dropControls r
    | none => '\x1b' :: dropControls ('[' :: s)
  | c :: s => c :: dropControls s
  | [] => []
termination_by s => s.length
decreasing_by
  · have := length_afterControl? ‹_›; simp only [List.length_cons]; omega
  · simp
  · simp

theorem dropControls_of_not_mem {s : List Char} (h : '\x1b' ∉ s) : dropControls s = s := by
  induction s with
  | nil => simp [dropControls]
  | cons c s ih =>
    rw [dropControls, ih fun hs => h (List.mem_cons_of_mem _ hs)]
    intro t e
    exact fun _ => h (e ▸ List.mem_cons_self)

/-- The text without control sequences. -/
def withoutControls (s : String) : String := String.ofList (dropControls s.toList)

end TypedTables.Text
