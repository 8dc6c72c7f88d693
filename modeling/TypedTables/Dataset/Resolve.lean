import TypedTables.Dataset.Value
import TypedTables.Table.Raw
import TypedTables.Text.Escape
import TypedTables.Units.Converter
/-!
# Resolving cells

From a raw cell to its value: pooled texts are looked up, the INT cell that names an entity
becomes the row of that entity, and FLOAT cells are converted to base units.
-/
namespace TypedTables

open TypedTables.Text (quoted)
open TypedTables.Units (Converter UnitError)

/-- Why a cell has no value. -/
inductive ResolveError where
  /-- a BOOL that is neither 0 nor 1 -/
  | badFlag (source : String) (raw : Raw)
  | unknownEntity (source text : String)
  | notANumber (text : String)
  /-- the pool has no text with this number -/
  | noSuchText
  /-- something else where the number of a text belongs -/
  | notATextNumber
  /-- something else where the text of a number belongs -/
  | notANumberText
  /-- a scalar where an array belongs -/
  | notAList
  | unitFault (e : UnitError)
  deriving Repr

def ResolveError.message : ResolveError → String
  | .badFlag source raw => source ++ ": bad preprocessed bool " ++ raw.shown
  | .unknownEntity source text => source ++ ": unknown enumeration " ++ quoted text
  | .notANumber text => "could not convert string to float: " ++ quoted text
  | .unitFault e => e.message
  | .noSuchText => ""
  | .notATextNumber => ""
  | .notANumberText => ""
  | .notAList => ""

/-- What the cells of one table are resolved with. mirrors `ValueResolver` -/
structure Resolver where
  /-- the pooled texts by their numbers -/
  strings : List String
  /-- the row of an entity of any table -/
  entityRow : String → Option Int
  units : Converter
  source : String

namespace Resolver

/-- The text with a number; a negative number counts from the end. -/
def textAt? (strings : List String) : Int → Option String
  | .ofNat n => strings[n]?
  | .negSucc n => if n < strings.length then strings[strings.length - 1 - n]? else none

/-- The text of a pooled cell. mirrors `ValueResolver.lookup` -/
def text (r : Resolver) (raw : Raw) : Except ResolveError String :=
  if raw.isBlank then .ok ""
  else match raw with
  | .code i =>
    match textAt? r.strings i with
    | some t => .ok t
    | none => .error .noSuchText
  | _ => .error .notATextNumber

/-- mirrors `ValueResolver.resolve_bool` -/
def flag (r : Resolver) (raw : Raw) : Except ResolveError Bool :=
  match raw with
  | .empty => .ok false
  | .code i => if i = 0 ∨ i = 1 then .ok (i = 1) else .error (.badFlag r.source raw)
  | .number x => if x == 0.0 || x == 1.0 then .ok (x == 1.0) else .error (.badFlag r.source raw)
  | _ => .error (.badFlag r.source raw)

/-- An INT is an integer literal or the name of an entity; -1 stands for no text.
mirrors `ValueResolver.resolve_int` -/
def integer (r : Resolver) (raw : Raw) : Except ResolveError Int := do
  let t ← r.text raw
  if t = "" then pure (-1)
  else match Text.readInteger? t.toList with
  | some i => pure i
  | none =>
    match r.entityRow t with
    | some row => pure row
    | none => .error (.unknownEntity r.source t)

/-- The value of a FLOAT before its conversion; none if it is not to be converted. -/
def numberText (raw : Raw) : Except ResolveError (Float ⊕ String) :=
  if raw.isBlank then .ok (.inl (0.0 / 0.0))
  else match raw with
  | .text t =>
    if t = "?" then .ok (.inl (1.0 / 0.0))
    else if t = "-?" then .ok (.inl (-(1.0 / 0.0)))
    else .ok (.inr (if t.toList.head? = some '~' then String.ofList (t.toList.drop 1) else t))
  | _ => .error .notANumberText

/-- A FLOAT in base units. Missing values and the infinities are not converted.
mirrors `ValueResolver.resolve_float` -/
def number (r : Resolver) (raw : Raw) (unit : String) : Except ResolveError Value := do
  match ← numberText raw with
  | .inl x => pure (.float x)
  | .inr t =>
    match Decimal.readFloat? t.toList with
    | none => .error (.notANumber t)
    | some x =>
      match r.units.convert x unit with
      | .ok (.real y) => pure (.float y)
      | .ok (.complex re im) => pure (.complex re im)
      | .error e => .error (.unitFault e)

/-- mirrors `ValueResolver.resolve_scalar` -/
def scalar (r : Resolver) (raw : Raw) (base : BaseType) (unit : String) :
    Except ResolveError Value :=
  match base with
  | .bool => .bool <$> r.flag raw
  | .int => .int <$> r.integer raw
  | .float => r.number raw unit
  | .string => (fun t => .text (Text.unescaped t)) <$> r.text raw
  | .stringName => .text <$> r.text raw

/-- The elements of an array cell; a text stands for its characters. -/
def items (raw : Raw) : Except ResolveError (List Raw) :=
  match raw with
  | .empty => .ok []
  | .list items => .ok items
  | .text t => .ok (t.toList.map fun c => .text (String.ofList [c]))
  | _ => .error .notAList

/-- Resolve a cell of a field. mirrors `ValueResolver.resolve` -/
def resolve (r : Resolver) (raw : Raw) (type : FieldType) (unit : String) :
    Except ResolveError Value :=
  if type.isArray then do
    let items ← items raw
    let values ← items.mapM fun item => r.scalar item type.base unit
    pure (.array values)
  else r.scalar raw type.base unit

end Resolver

end TypedTables
