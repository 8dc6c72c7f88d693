/-!
# Significant digits

How many digits of a written number are significant. Counting starts at the first
digit that is not zero; after a point every digit counts; zeros that end the whole part
count only if a point follows. An exponent does not count, and neither does anything
after a space.
-/
namespace TypedTables.Decimal

/-- Where a count stands. -/
structure DigitCount where
  total : Nat := 0
  /-- zeros of the whole part that count if another digit or a point follows -/
  held : Nat := 0
  started : Bool := false
  afterPoint : Bool := false
  deriving DecidableEq, Repr

/-- Take account of one digit. -/
def DigitCount.digit (n : DigitCount) (c : Char) : DigitCount :=
  if c = '0' ∧ ¬ n.started then n
  else if n.afterPoint then { n with total := n.total + 1, started := true }
  else if c = '0' then { n with held := n.held + 1, started := true }
  else { n with total := n.total + n.held + 1, held := 0, started := true }

/-- Take account of a point. -/
def DigitCount.point (n : DigitCount) : DigitCount :=
  { n with total := n.total + n.held, held := 0, afterPoint := true }

/-- Count to the exponent or the end; none at a character that no number holds. -/
def countDigits (n : DigitCount) : List Char → Option Nat
  | [] => some n.total
  | c :: cs =>
    if c.isDigit then countDigits (n.digit c) cs
    else if c = '.' then countDigits n.point cs
    else if c = 'e' ∨ c = 'E' then some n.total
    else if c = '-' ∨ c = '+' then countDigits n cs
    else none

/-- The precision of a value of which no digits are known. -/
def unknownPrecision : Int := -1

/-- A text in which no digits can be counted, as far as its first space. -/
structure MalformedDigits where
  text : String
  deriving DecidableEq, Repr

/-- The number of significant digits of a kept FLOAT text: unknown for an empty text and
for the infinities, 0 for an uncertain value. mirrors `get_precision` -/
def precision (s : String) : Except MalformedDigits Int :=
  let s := s.toList.takeWhile (· ≠ ' ')
  if s = [] ∨ s = ['?'] ∨ s = ['-', '?'] then .ok unknownPrecision
  else if s.head? = some '~' then .ok 0
  else match countDigits {} s with
    | some n => .ok n
    | none => .error ⟨String.ofList s⟩

end TypedTables.Decimal
