import TypedTables.Decimal.Shortest
/-!
# Whole numbers

Which binary64 numbers are integers, exactly: no integer is too large to be told apart from
its neighbours.
-/
namespace TypedTables.Decimal

/-- The integer that a floating-point number equals. -/
def wholeNumber? (x : Float) : Option Int :=
  if x.isFinite then
    let b := Binary.ofBits (x.toBits &&& 0x7FFFFFFFFFFFFFFF)
    let below := Nat.pow 2 (-b.exponent).toNat
    if b.mantissa % below = 0 then
      let n : Int := (b.mantissa / below * Nat.pow 2 b.exponent.toNat : Nat)
      some (if x < 0.0 then -n else n)
    else none
  else none

end TypedTables.Decimal
