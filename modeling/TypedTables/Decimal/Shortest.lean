/-!
# Shortest decimals

The decimal with the fewest digits that reads back to a given binary64 value, and its
layout. A value stands for the interval of reals that round to it; among the decimals
of least length in that interval the nearest to the value is taken, and of two equally
near the one with the even last digit.
-/
namespace TypedTables.Decimal

/-- A positive binary64 value, `mantissa * 2 ^ exponent`. -/
structure Binary where
  mantissa : Nat
  exponent : Int
  /-- the next value below is only half as far away as the next above -/
  narrowBelow : Bool
  deriving DecidableEq, Repr

/-- The value that the bits of a finite number without its sign stand for. -/
def Binary.ofBits (bits : UInt64) : Binary :=
  let exponent := ((bits >>> 52) &&& 0x7FF).toNat
  let fraction := (bits &&& 0xFFFFFFFFFFFFF).toNat
  if exponent == 0 then ⟨fraction, -1074, false⟩
  else ⟨Nat.pow 2 52 + fraction, (exponent : Int) - 1075, fraction == 0 && 1 < exponent⟩

/-- `digits * 10 ^ exponent`. -/
structure Scaled where
  digits : Nat
  exponent : Int
  deriving DecidableEq, Repr

/-- Compare `a * 10 ^ i` with `b * 2 ^ j`. -/
def compareScaled (a : Nat) (i : Int) (b : Nat) (j : Int) : Ordering :=
  compare (a * Nat.pow 10 i.toNat * Nat.pow 2 (-j).toNat)
    (b * Nat.pow 2 j.toNat * Nat.pow 10 (-i).toNat)

/-- Whether a decimal lies among the reals that round to the value. -/
def Binary.roundsFrom (x : Binary) (d : Scaled) : Bool :=
  let low := compareScaled d.digits d.exponent
    (4 * x.mantissa - (if x.narrowBelow then 1 else 2)) (x.exponent - 2)
  let high := compareScaled d.digits d.exponent (4 * x.mantissa + 2) (x.exponent - 2)
  let closed := x.mantissa % 2 == 0
  (low == .gt || closed && low == .eq) && (high == .lt || closed && high == .eq)

/-- The greatest `n` with `n * 10 ^ k` not above the value. -/
def Binary.floorAt (x : Binary) (k : Int) : Nat :=
  (x.mantissa * Nat.pow 2 x.exponent.toNat * Nat.pow 10 (-k).toNat) /
    (Nat.pow 2 (-x.exponent).toNat * Nat.pow 10 k.toNat)

/-- The multiple of `10 ^ k` nearest to the value among those that round to it. -/
def Binary.nearestAt? (x : Binary) (k : Int) : Option Scaled :=
  let n := x.floorAt k
  let below : Scaled := ⟨n, k⟩
  let above : Scaled := ⟨n + 1, k⟩
  match x.roundsFrom below, x.roundsFrom above with
  | false, false => none
  | true, false => some below
  | false, true => some above
  | true, true =>
    match compareScaled (2 * n + 1) k (2 * x.mantissa) x.exponent with
    | .lt => some above
    | .gt => some below
    | .eq => some (if n % 2 == 0 then below else above)

/-- The number of decimal places before the point, negative for a value below 0.1: the
least `k` with the value below `10 ^ k`, searched from an estimate by the binary
logarithm. -/
def Binary.magnitude (x : Binary) : Int :=
  let estimate : Int := ((x.exponent + x.mantissa.log2) * 30103).fdiv 100000
  let above (k : Int) : Bool := compareScaled 1 k x.mantissa x.exponent == .gt
  ([estimate - 1, estimate, estimate + 1].find? above).getD (estimate + 2)

/-- Drop the zeros at the end of the digits; `fuel` bounds their number. -/
def Scaled.strip : Nat → Scaled → Scaled
  | 0, d => d
  | fuel + 1, d =>
    if d.digits ≠ 0 ∧ d.digits % 10 = 0 then Scaled.strip fuel ⟨d.digits / 10, d.exponent + 1⟩
    else d

/-- The shortest decimal of a positive value: grids are tried from the leading digit
on, and seventeen digits always suffice. -/
def Binary.shortest (x : Binary) : Scaled :=
  let top := x.magnitude
  let found := (List.range 17).findSome? fun (n : Nat) => x.nearestAt? (top - n - 1)
  (found.getD ⟨x.floorAt (top - 17), top - 17⟩).strip 17

/-! ## Layout -/

/-- How numbers are written: positionally when the exponent of the leading digit is
from -4 to 15, with a digit on both sides of the point; otherwise with a signed exponent of
at least two digits. -/
def layout (d : Scaled) : List Char :=
  let digits := Nat.toDigits 10 d.digits
  let lead : Int := d.exponent + digits.length - 1
  if lead < -4 ∨ 15 < lead then
    let fraction := digits.drop 1
    let mark := if lead < 0 then '-' else '+'
    digits.take 1 ++ (if fraction.isEmpty then [] else '.' :: fraction) ++
      'e' :: mark :: (Nat.toDigits 10 lead.natAbs).leftpad 2 '0'
  else if lead < 0 then
    '0' :: '.' :: (List.replicate (-lead - 1).toNat '0' ++ digits)
  else
    let whole := (lead + 1).toNat
    let fraction := digits.drop whole
    (digits.take whole).rightpad whole '0' ++ '.' :: (if fraction.isEmpty then ['0'] else fraction)

/-- The text of a number. -/
def floatText (x : Float) : String :=
  if x.isNaN then "nan"
  else
    let bits := x.toBits
    let sign := if bits >>> 63 == 1 then "-" else ""
    let size := bits &&& 0x7FFFFFFFFFFFFFFF
    if size == 0x7FF0000000000000 then sign ++ "inf"
    else if size == 0 then sign ++ "0.0"
    else sign ++ String.ofList (layout (Binary.ofBits size).shortest)

end TypedTables.Decimal
