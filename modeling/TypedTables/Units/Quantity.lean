import TypedTables.Decimal.Shortest
/-!
# Quantities

The numbers that a unit expression is evaluated in: binary64 numbers and, for a
fractional power of a negative number, complex ones. Division by zero and a power that
overflows are faults; a product that overflows is an infinity.
-/
namespace TypedTables.Units

/-- What can go wrong in arithmetic. -/
inductive ArithmeticFault where
  | divisionByZero
  | overflow
  deriving DecidableEq, Repr

/-- A real number, or a complex one by its parts. -/
inductive Quantity where
  | real (x : Float)
  | complex (re im : Float)
  deriving DecidableEq, Repr

namespace Quantity

/-- The real and the imaginary part. -/
def parts : Quantity → Float × Float
  | .real x => (x, 0.0)
  | .complex re im => (re, im)

/-! ## Complex arithmetic on parts -/

def mulParts (a b : Float × Float) : Float × Float :=
  (a.1 * b.1 - a.2 * b.2, a.1 * b.2 + a.2 * b.1)

/-- Division, scaled by the greater part of the divisor. -/
def divParts (a b : Float × Float) : Except ArithmeticFault (Float × Float) :=
  if b.2.abs ≤ b.1.abs then
    if b.1.abs == 0.0 then .error .divisionByZero
    else
      let ratio := b.2 / b.1
      let denominator := b.1 + b.2 * ratio
      .ok ((a.1 + a.2 * ratio) / denominator, (a.2 - a.1 * ratio) / denominator)
  else if b.1.abs ≤ b.2.abs then
    let ratio := b.1 / b.2
    let denominator := b.1 * ratio + b.2
    .ok ((a.1 * ratio + a.2) / denominator, (a.2 * ratio - a.1) / denominator)
  else .ok (0.0 / 0.0, 0.0 / 0.0)

/-- A whole power by repeated squaring; `fuel` bounds the number of binary digits. -/
def powNat : Nat → Float × Float → Nat → Float × Float → Float × Float
  | 0, _, _, r => r
  | fuel + 1, base, n, r =>
    if n = 0 then r
    else powNat fuel (mulParts base base) (n / 2) (if n % 2 = 1 then mulParts r base else r)

/-- The root of a sum of two squares that are in range, `big` being the greater number. By how
much the square of the root exceeds the sum is worked out without squaring the numbers, and the
root is corrected for it. -/
def rootOfSquares (big small : Float) : Float :=
  let root := (big * big + small * small).sqrt
  let excess :=
    if root ≤ 2.0 * small then
      let gap := root - small
      big * (2.0 * gap - big) + (gap - 2.0 * (big - small)) * gap
    else
      let gap := root - big
      2.0 * gap * (big - 2.0 * small) + ((4.0 * gap - small) * small + gap * gap)
  root - excess / (2.0 * root)

/-- A power of two. -/
def powerOfTwo (n : Int) : Float := Float.scaleB 1.0 n

/-- The length of a complex number. A part that is too small to matter is left out, and parts
whose squares would be out of range are scaled. -/
def length (a : Float × Float) : Float :=
  let (x, y) := (a.1.abs, a.2.abs)
  let (big, small) := if x < y then (y, x) else (x, y)
  let scaled (n : Int) : Float :=
    rootOfSquares (big * powerOfTwo n) (small * powerOfTwo n) * powerOfTwo (-n)
  if x.isInf || y.isInf then 1.0 / 0.0
  else if small ≤ big * powerOfTwo (-54) then big + small
  else if powerOfTwo 511 < big then scaled (-600)
  else if small < powerOfTwo (-459) then scaled 600
  else rootOfSquares big small

/-- A power by length and angle, for a base other than zero. A power with an infinite angle is
a fault, as those of zero are. -/
def powPolar (a b : Float × Float) : Except ArithmeticFault (Float × Float) :=
  let size := length a
  let angle := Float.atan2 a.2 a.1
  let size' := Float.pow size b.1
  let (len, phase) :=
    if b.2 == 0.0 then (size', angle * b.1)
    else (size' / Float.exp (angle * b.2), angle * b.1 + b.2 * Float.log size)
  if phase.isInf then .error .divisionByZero
  else .ok (len * Float.cos phase, len * Float.sin phase)

/-- A complex power: by squaring for a whole real exponent of at most 100. -/
def powParts (a b : Float × Float) : Except ArithmeticFault (Float × Float) := do
  let r ←
    if b.2 == 0.0 && b.1 == b.1.floor && b.1.abs ≤ 100.0 then
      let whole := powNat 8 a b.1.abs.toUInt64.toNat (1.0, 0.0)
      if 0.0 < b.1 then pure whole else divParts (1.0, 0.0) whole
    else if a.1 == 0.0 && a.2 == 0.0 then
      if b.2 != 0.0 || b.1 < 0.0 then .error .divisionByZero else pure (0.0, 0.0)
    else powPolar a b
  if r.1.isInf || r.2.isInf then .error .overflow else pure r

def ofParts (p : Float × Float) : Quantity := .complex p.1 p.2

/-! ## Arithmetic -/

def times : Quantity → Quantity → Quantity
  | .real x, .real y => .real (x * y)
  | a, b => ofParts (mulParts a.parts b.parts)

def per : Quantity → Quantity → Except ArithmeticFault Quantity
  | .real x, .real y => if y == 0.0 then .error .divisionByZero else .ok (.real (x / y))
  | a, b => (divParts a.parts b.parts).map ofParts

/-- A power of reals. A fractional power of a negative number is complex. -/
def powReal (x y : Float) : Except ArithmeticFault Quantity :=
  if x == 0.0 && y < 0.0 && y.isFinite then .error .divisionByZero
  else if x < 0.0 && x.isFinite && y.isFinite && y != y.floor then
    (powParts (x, 0.0) (y, 0.0)).map ofParts
  else
    let r := Float.pow x y
    if r.isInf && x.isFinite && y.isFinite then .error .overflow else .ok (.real r)

def power : Quantity → Quantity → Except ArithmeticFault Quantity
  | .real x, .real y => powReal x y
  | a, b => (powParts a.parts b.parts).map ofParts

/-- A part of a complex number, without a point before a lone zero. -/
def partText (x : Float) : String :=
  let s := (Decimal.floatText x).toList
  String.ofList (if ['.', '0'].isSuffixOf s then s.dropLast.dropLast else s)

/-- A number as it is printed. A complex one stands in parentheses, or alone if its real part
is zero. -/
def text : Quantity → String
  | .real x => Decimal.floatText x
  | .complex re im =>
    let imaginary := partText im
    if re.toBits = 0 then imaginary ++ "j"
    else
      let sign := if imaginary.startsWith "-" then "" else "+"
      "(" ++ partText re ++ sign ++ imaginary ++ "j)"

/-- The number, unless it is complex. -/
def real? : Quantity → Option Float
  | .real x => some x
  | .complex .. => none

end Quantity

end TypedTables.Units
