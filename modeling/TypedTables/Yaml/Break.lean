import TypedTables.Text.Blank
/-!
# Line breaks

How YAML files are cut into lines, and what the breaks inside a scalar stand for: a single
line feed is a space, and of several the first one is dropped. A line of three hyphens or
three points is a marker of the document and no part of a scalar.
-/
namespace TypedTables.Yaml

def isBreak (c : Char) : Bool := c == '\n' || c == '\u0085' || c == '\u2028' || c == '\u2029'

/-- What a break stands for. -/
def breakChar (c : Char) : Char := if c = '\u0085' then '\n' else c

/-- Whether a word ends before a text. -/
def endsWord : List Char → Bool
  | [] => true
  | c :: _ => c == ' ' || c == '\t' || isBreak c

/-- Whether a text starts with a marker. -/
def isMarker (s : List Char) : Bool :=
  (s.take 3 == ['-', '-', '-'] || s.take 3 == ['.', '.', '.']) && endsWord (s.drop 3)

/-- The breaks at the front of a text and the skipped characters among them: what the breaks
stand for, unless a line starts with a marker, the column of what follows, and the rest of
the text. -/
def takeBreaks (isSkipped : Char → Bool) (column : Nat) :
    List Char → Option (List Char) × Nat × List Char
  | [] => (some [], column, [])
  | c :: r =>
    if column = 0 ∧ isMarker (c :: r) then (none, column, c :: r)
    else if isSkipped c then takeBreaks isSkipped (column + 1) r
    else if isBreak c then
      let (breaks, column, rest) := takeBreaks isSkipped 0 r
      (breaks.map (breakChar c :: ·), column, rest)
    else (some [], column, c :: r)

/-- What a break and the breaks after it stand for. -/
def folded (c : Char) (breaks : List Char) : List Char :=
  if breakChar c ≠ '\n' then breakChar c :: breaks
  else if breaks = [] then [' ']
  else breaks

end TypedTables.Yaml
