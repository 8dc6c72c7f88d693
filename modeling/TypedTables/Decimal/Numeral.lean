import TypedTables.Text.Blank
import TypedTables.Text.Digit
/-!
# Numerals

Decimal numbers as text: an optional sign, digits with at most one point and at least
one digit, and an optional exponent. `Numeral.parse?` is the grammar,
`Numeral.toFloat` the nearest binary64 value.

A cell of type FLOAT is kept as text, so that its significant digits are not lost:
`normalizeFloat` brings the text to the form in which it is kept.
-/
namespace TypedTables.Decimal

open TypedTables.Text (takeDigits ofDigits)

/-- A decimal number, digit by digit. -/
structure Numeral where
  negative : Bool
  /-- the digits before the point -/
  whole : List Nat
  /-- the digits after the point -/
  fraction : List Nat
  exponent : Int
  deriving DecidableEq, Repr

namespace Numeral

/-- Drop an optional sign; whether it was a minus. -/
def takeSign : List Char → Bool × List Char
  | '-' :: r => (true, r)
  | '+' :: r => (false, r)
  | r => (false, r)

/-- The exponent part, which may be missing. -/
def exponent? : List Char → Option Int
  | [] => some 0
  | c :: r =>
    if c = 'e' ∨ c = 'E' then
      let (negative, r) := takeSign r
      match takeDigits r with
      | ([], _) => none
      | (ds, []) => some (if negative then -(ofDigits ds : Int) else ofDigits ds)
      | (_, _ :: _) => none
    else none

/-- The digits around the point, of which there is at least one, and the rest. -/
def mantissa? (s : List Char) : Option (List Nat × List Nat × List Char) :=
  match takeDigits s with
  | (whole, '.' :: r) =>
    match takeDigits r with
    | (fraction, r) => if whole.isEmpty && fraction.isEmpty then none else some (whole, fraction, r)
  | ([], _) => none
  | (whole, r) => some (whole, [], r)

/-- Read a whole text as a numeral. -/
def parse? (s : List Char) : Option Numeral :=
  let (negative, s) := takeSign s
  match mantissa? s with
  | none => none
  | some (whole, fraction, r) => (exponent? r).map fun e => ⟨negative, whole, fraction, e⟩

/-- The value without its sign. An exponent far outside the range of binary64 decides
at once, since the digits would be padded with that many zeros. -/
def magnitude (n : Numeral) : Float :=
  let digits := (n.whole ++ n.fraction).dropWhile (· == 0)
  let scale : Int := n.exponent - n.fraction.length
  let top : Int := scale + digits.length
  if digits.isEmpty || top < -400 then 0.0
  else if 400 < top then 1.0 / 0.0
  else Float.ofScientific (ofDigits digits) (scale < 0) scale.natAbs

/-- The nearest binary64 value. -/
def toFloat (n : Numeral) : Float := if n.negative then -n.magnitude else n.magnitude

end Numeral

/-- Whether a text is a numeral. -/
def isNumeral (s : List Char) : Bool := (Numeral.parse? s).isSome

/-! ## Kept texts of FLOAT cells -/

/-- The form in which the text of a FLOAT cell is kept, if it is one: `?` and `-?` stand
for the infinities; otherwise a leading `~` (an uncertain value) stays, then a plus
sign is dropped and the exponent marker is `e`. mirrors `preprocess_float` -/
def normalizeFloat (s : List Char) : Option (List Char) :=
  if s = ['?'] ∨ s = ['-', '?'] then some s
  else
    let (tilde, body) := match s with
      | '~' :: r => (['~'], r)
      | r => ([], r)
    let body := match body with
      | '+' :: r => r
      | r => r
    let body := body.map fun c => if c = 'E' then 'e' else c
    if body.head? ≠ some '+' ∧ isNumeral body then some (tilde ++ body) else none

/-! ## Numbers as people type them -/

/-- Blanks around a typed number: white space without the information separators. -/
def isPadding (c : Char) : Bool :=
  Text.isBlank c && !(0x1C ≤ c.toNat && c.toNat ≤ 0x1F)

/-- Drop each underscore that stands between two digits; none if there is another. -/
def dropUnderscores : Option Char → List Char → Option (List Char)
  | _, [] => some []
  | before, c :: cs =>
    if c = '_' then
      if before.any Text.isDigit && cs.head?.any Text.isDigit then dropUnderscores (some c) cs
      else none
    else (dropUnderscores (some c) cs).map (c :: ·)

/-- Read a typed number: a numeral, `inf`, `infinity` or `nan` in any case, with blanks
around it and underscores between its digits. -/
def readFloat? (s : List Char) : Option Float :=
  let s := Text.dropAroundWhile isPadding s
  let (negative, word) := Numeral.takeSign s
  let word := word.map Char.toLower
  if word = "inf".toList ∨ word = "infinity".toList then
    some (if negative then -(1.0 / 0.0) else 1.0 / 0.0)
  else if word = "nan".toList then some (0.0 / 0.0)
  else do
    let s ← dropUnderscores none s
    let n ← Numeral.parse? s
    pure n.toFloat

end TypedTables.Decimal
