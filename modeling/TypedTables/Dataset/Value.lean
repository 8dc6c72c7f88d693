import TypedTables.Decimal.Whole
import TypedTables.Table.FieldType
/-!
# Values

What a resolved cell holds, and what a reader compares it with. Truth values, integers and
floating-point numbers compare as numbers, by their exact values; texts and arrays only
equal their own kind, and NaN equals nothing.
-/
namespace TypedTables

/-- A resolved cell, or any value that a caller hands in. -/
inductive Value where
  | null
  | bool (b : Bool)
  | int (i : Int)
  | float (x : Float)
  | complex (re im : Float)
  | text (s : String)
  | array (items : List Value)
  deriving Repr, Inhabited

namespace Value

/-- A value as an integer, for truth values and integers. -/
def integer? : Value → Option Int
  | .bool b => some (if b then 1 else 0)
  | .int i => some i
  | _ => none

/-- Whether two values that are no arrays are equal. -/
def sameScalar (a b : Value) : Bool :=
  match a.integer?, b.integer? with
  | some i, some j => i == j
  | some i, none =>
    match b with
    | .float y => Decimal.wholeNumber? y == some i
    | .complex re im => im == 0.0 && Decimal.wholeNumber? re == some i
    | _ => false
  | none, some j =>
    match a with
    | .float x => Decimal.wholeNumber? x == some j
    | .complex re im => im == 0.0 && Decimal.wholeNumber? re == some j
    | _ => false
  | none, none =>
    match a, b with
    | .float x, .float y => x == y
    | .float x, .complex re im => im == 0.0 && x == re
    | .complex re im, .float y => im == 0.0 && re == y
    | .complex re im, .complex re' im' => re == re' && im == im'
    | .text s, .text t => s == t
    | .null, .null => true
    | _, _ => false

mutual

/-- Whether two values are equal. -/
def same : Value → Value → Bool
  | .array xs, .array ys => sameItems xs ys
  | a, b => sameScalar a b

/-- Whether two arrays are equal item by item. -/
def sameItems : List Value → List Value → Bool
  | [], [] => true
  | x :: xs, y :: ys => same x y && sameItems xs ys
  | _, _ => false

end

/-- Whether a value is one that a scalar of a type holds. -/
def hasBase : BaseType → Value → Bool
  | .bool, .bool _ => true
  | .int, .int _ => true
  | .float, .float _ => true
  | .string, .text _ => true
  | .stringName, .text _ => true
  | _, _ => false

/-- Whether a value is one that a field of a type holds. -/
def hasKind (type : FieldType) (v : Value) : Bool :=
  if type.isArray then
    match v with
    | .array items => items.all (hasBase type.base)
    | _ => false
  else hasBase type.base v

end Value

end TypedTables
