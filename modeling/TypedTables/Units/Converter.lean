import TypedTables.Text.Quoted
import TypedTables.Units.Expression
import TypedTables.Units.Registry
/-!
# Unit converters

A converter knows the sizes of units and the nonlinear scales, and remembers the value
of every compound unit text that it has worked out. Reading (`multiplier`, `convert`,
`isValid`) does not change a converter; `learn` adds to what it remembers. A remembered
text keeps its value when a size is changed later, unless it has become a symbol itself.

Results:
* `learn_sizes`, `learn_nonlinear`: learning changes no registry.
* `multiplier_learn`: learning a text changes no answer, as long as the sizes stay.
-/
namespace TypedTables.Units

open TypedTables.Text (quoted)

/-- Why a unit has no multiplier or a value no conversion. -/
inductive UnitError where
  /-- a name that is no symbol, where expressions are not allowed -/
  | unknown (unit : String)
  /-- an expression that cannot be read -/
  | malformed (fault : UnitFault) (unit : String)
  | arithmetic (fault : ArithmeticFault)
  /-- a number that is complex where a real one is needed -/
  | complexValue
  deriving DecidableEq, Repr

/-- The wording of a fault in an expression. -/
def UnitFault.message (unit : String) : UnitFault → String
  | .emptyOperand => "Empty operand in unit " ++ quoted unit
  | .nonlinear name =>
    "Non-linear unit " ++ quoted name ++ " cannot be part of " ++ quoted unit
  | .unmatchedClose => "Unmatched ')' in unit " ++ quoted unit
  | .unmatchedOpen => "Unmatched '(' in unit " ++ quoted unit
  | .emptyExponent => "Empty exponent in unit " ++ quoted unit
  | .exponentNotNumber => "Exponent must be a number in unit " ++ quoted unit
  | .unknownSymbol name => "Unknown unit symbol " ++ quoted name ++ " in " ++ quoted unit

/-- The wording of a unit error; arithmetic faults have none. -/
def UnitError.message : UnitError → String
  | .unknown unit => "Unknown unit: " ++ quoted unit
  | .malformed fault unit => fault.message unit
  | .arithmetic _ => ""
  | .complexValue => ""

/-- Whether the error says that a unit is not known, and nothing about arithmetic. -/
def UnitError.isUnresolved : UnitError → Bool
  | .unknown _ => true
  | .malformed .. => true
  | .arithmetic _ => false
  | .complexValue => false

/-- Between the units of a table and base units. -/
inductive Direction where
  | toBase
  | fromBase
  deriving DecidableEq, Repr

/-- Unit registries and the compound units worked out so far. mirrors `UnitConverter` -/
structure Converter where
  sizes : OrderedMap String Quantity := builtinSizes
  nonlinear : OrderedMap String Nonlinear := builtinNonlinear
  /-- the value of each compound unit text that has been evaluated -/
  learned : OrderedMap String Quantity := ∅

namespace Converter

/-- The built-in units with sizes and scales added or replaced. mirrors `UnitConverter.__init__` -/
def withUnits (sizes : List (String × Quantity)) (nonlinear : List (String × Nonlinear)) :
    Converter where
  sizes := builtinSizes.insertAll sizes
  nonlinear := builtinNonlinear.insertAll nonlinear

/-- The given units only. -/
def only (sizes : List (String × Quantity)) (nonlinear : List (String × Nonlinear)) : Converter where
  sizes := .ofList sizes
  nonlinear := .ofList nonlinear

/-- The names that an expression may use. -/
def symbols (c : Converter) : Symbols where
  size? name := c.sizes.get? (String.ofList name)
  isNonlinear name := c.nonlinear.contains (String.ofList name)

/-- The value of a text as an expression. mirrors `UnitConverter._parse` -/
def evaluate (c : Converter) (unit : String) : Except UnitError Quantity :=
  match (UnitExpr.parse c.symbols (normalize unit.toList)).eval with
  | .ok q => .ok q
  | .error (.malformed f) => .error (.malformed f unit)
  | .error (.arithmetic f) => .error (.arithmetic f)

/-- The size of one `unit` in base units: a symbol's, a remembered one, or that of the
expression. Left out is that recursion has a limit: an expression may nest to any depth here.
mirrors `UnitConverter.get_multiplier` -/
def multiplier (c : Converter) (unit : String) : Except UnitError Quantity :=
  match c.sizes.get? unit with
  | some q => .ok q
  | none =>
    match c.learned.get? unit with
    | some q => .ok q
    | none => c.evaluate unit

/-- Remember the value of a compound unit text that has one. -/
def learn (c : Converter) (unit : String) : Converter :=
  if c.sizes.contains unit || c.learned.contains unit then c
  else match c.evaluate unit with
  | .ok q => { c with learned := c.learned.insert unit q }
  | .error _ => c

/-- Change the size of a symbol. What is remembered stays. -/
def setSize (c : Converter) (unit : String) (size : Quantity) : Converter :=
  { c with sizes := c.sizes.insert unit size }

/-- Whether a conversion needs the value of the text as an expression. -/
def consults (c : Converter) (unit : String) (allowCompound : Bool) : Bool :=
  unit ≠ "" && allowCompound && !c.sizes.contains unit && !c.nonlinear.contains unit

/-- What is known after a conversion. -/
def afterConversion (c : Converter) (unit : String) (allowCompound : Bool := true) : Converter :=
  if c.consults unit allowCompound then c.learn unit else c

/-- Multiply or divide by the size of a unit. -/
def scale (x : Float) (size : Quantity) : Direction → Except UnitError Quantity
  | .toBase => .ok ((Quantity.real x).times size)
  | .fromBase => ((Quantity.real x).per size).mapError .arithmetic

/-- Convert a value. The empty unit leaves it as it is. mirrors `UnitConverter.convert` -/
def convert (c : Converter) (x : Float) (unit : String) (direction : Direction := .toBase)
    (allowCompound : Bool := true) : Except UnitError Quantity :=
  if unit = "" then .ok (.real x)
  else match c.sizes.get? unit with
  | some size => scale x size direction
  | none =>
    match c.nonlinear.get? unit with
    | some f =>
      let y := match direction with
        | .toBase => f.toBase x
        | .fromBase => f.fromBase x
      (y.map .real).mapError .arithmetic
    | none =>
      if allowCompound then do
        let size ← c.multiplier unit
        scale x size direction
      else .error (.unknown unit)

/-- Convert a value; one with an unknown unit becomes NaN. -/
def convertOrNaN (c : Converter) (x : Float) (unit : String) (direction : Direction := .toBase)
    (allowCompound : Bool := true) : Except UnitError Quantity :=
  match c.convert x unit direction allowCompound with
  | .error e => if e.isUnresolved then .ok (.real (0.0 / 0.0)) else .error e
  | .ok q => .ok q

/-- Whether values with this unit can be converted to a number.
mirrors `UnitConverter.is_valid_unit` -/
def isValid (c : Converter) (unit : String) (allowCompound : Bool := true) :
    Except UnitError Bool := do
  match ← c.convertOrNaN 1.0 unit .toBase allowCompound with
  | .real x => pure !x.isNaN
  | .complex .. => .error .complexValue

/-! ## What learning changes -/

@[simp] theorem learn_sizes (c : Converter) (unit : String) : (c.learn unit).sizes = c.sizes := by
  unfold learn; split
  · rfl
  · split <;> rfl

@[simp] theorem learn_nonlinear (c : Converter) (unit : String) :
    (c.learn unit).nonlinear = c.nonlinear := by
  unfold learn; split
  · rfl
  · split <;> rfl

@[simp] theorem learn_evaluate (c : Converter) (unit : String) :
    (c.learn unit).evaluate = c.evaluate := by
  funext u
  simp [evaluate, symbols]

/-- Learning a text changes no multiplier. -/
@[simp] theorem multiplier_learn (c : Converter) (unit : String) :
    (c.learn unit).multiplier = c.multiplier := by
  funext u
  simp only [multiplier, learn_sizes, learn_evaluate]
  by_cases hc : (c.sizes.contains unit || c.learned.contains unit) = true
  · rw [learn, if_pos hc]
  · cases he : c.evaluate unit with
    | error e => simp only [learn, hc, he]; rfl
    | ok q =>
      by_cases hu : unit = u
      · subst hu
        have : c.learned.get? unit = none := by
          simp only [Bool.or_eq_true, not_or, Bool.not_eq_true] at hc
          simpa [OrderedMap.contains] using hc.2
        simp [learn, hc, he, this, OrderedMap.get?_insert]
      · simp [learn, hc, he, hu, OrderedMap.get?_insert]

end Converter

end TypedTables.Units
