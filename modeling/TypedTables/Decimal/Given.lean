import TypedTables.Decimal.Numeral
import TypedTables.Text.Split
/-!
# Numbers that are given

The number that a user gives for a setting or as an argument. Its digits are ASCII, blanks
may stand around it and single underscores in it. `givenFloat?` reads a number, and
`givenInt?` an integer, which may have zeros before its first digit and a fraction of zeros.
-/
namespace TypedTables.Decimal

/-- Drop single underscores inside a text; none if there are others. -/
def dropSeparators? (s : List Char) : Option (List Char) :=
  let pairs := s.zip (s.drop 1)
  if s.head? = some '_' ∨ s.getLast? = some '_' ∨ pairs.contains ('_', '_') then none
  else some (s.filter (· ≠ '_'))

/-! ## Numbers -/

/-- A number as a text without blanks and underscores. -/
def plainFloat? (s : List Char) : Option Float :=
  if s.all fun c => '!' ≤ c && c ≤ '~' && c ≠ '_' then readFloat? s else none

/-- A number as a text, with blanks around it or with underscores, but not with both. -/
def givenFloat? (s : List Char) : Option Float :=
  match plainFloat? (Text.dropAroundWhile isPadding s) with
  | some x => some x
  | none => (dropSeparators? s).bind plainFloat?

/-! ## Integers -/

/-- Drop a plus sign; none if a minus sign follows it. -/
def dropPlus? : List Char → Option (List Char)
  | '+' :: '-' :: _ => none
  | '+' :: s => some s
  | s => some s

/-- Drop the zeros and the underscores at the front of a text after a zero, which stays if no
digit and no minus sign follows; `before` is the character before the text. -/
def dropZeros? (before : Char) : List Char → Option (List Char)
  | [] => some [before]
  | c :: s =>
    if c = '0' ∨ c = '_' then dropZeros? c s
    else if c.isDigit ∨ c = '-' then some (c :: s)
    else if c = '.' then some (before :: c :: s)
    else none

/-- Drop the zeros in front of an integer; they may stand before a minus sign. -/
def dropLeadingZeros? : List Char → Option (List Char)
  | [] => none
  | c :: s =>
    if c = '0' then dropZeros? c s
    else if c.isDigit ∨ c = '-' then some (c :: s)
    else none

/-- Drop a point and the zeros after it, of which there is one at least. -/
def dropZeroFraction (s : List Char) : List Char :=
  match Text.cutAt '.' s with
  | (whole, some (c :: zeros)) => if (c :: zeros).all (· == '0') then whole else s
  | _ => s

/-- A whole number as digits; only zero itself starts with a zero. -/
def plainNat? (s : List Char) : Option Nat :=
  if s ≠ [] ∧ s.all Char.isDigit ∧ (s.head? ≠ some '0' ∨ s = ['0']) then
    some (Text.ofDigits (s.filterMap Text.digitValue?))
  else none

/-- An integer as digits after an optional minus sign. -/
def plainInt? : List Char → Option Int
  | '-' :: s => (plainNat? s).map fun n => -(n : Int)
  | s => (plainNat? s).map Int.ofNat

/-- Drop a minus sign, and whether there was one. -/
def takeMinus : List Char → Bool × List Char
  | '-' :: s => (true, s)
  | s => (false, s)

/-- An integer as a text. Underscores do not follow its sign. -/
def givenInt? (s : List Char) : Option Int := do
  let s ← dropPlus? (Text.dropAroundWhile isPadding s)
  let (negative, s) := takeMinus s
  let s ← dropLeadingZeros? s
  let s ← dropSeparators? (dropZeroFraction s)
  if negative then (plainNat? s).map fun n => -(n : Int) else plainInt? s

end TypedTables.Decimal
