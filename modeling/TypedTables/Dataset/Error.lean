import TypedTables.Dataset.Resolve
import TypedTables.Table.Fault
/-!
# Errors of a dataset

Why tables that are sound by themselves do not make a dataset.
-/
namespace TypedTables

open TypedTables.Text (quoted)

/-- Why a dataset cannot be put together. -/
inductive LinkError where
  | secondTable (name : String)
  | secondEnumeration (name : String)
  | negativeIndex (enumeration name : String)
  | secondEntity (name owner first : String)
  | targetNotEnumerated (source mod target : String)
  | targetUnnamed (source mod target : String)
  | unknownAxisName (source : String) (axis : Axis) (name : String)
  | mixedAxis (source : String) (axis : Axis) (table : String) (owners : List String)
  | unknownUnit (source field unit : String)
  /-- a unit whose value is no number -/
  | unitFault (e : Units.UnitError)
  | fieldsOnEnumeration (source target : String)
  | fieldTypeDiffers (source field : String) (given existing : FieldType) (target : String)
  | wikiFieldNotText (source field : String)
  | wikiFieldMissing (source field : String)
  | cell (e : ResolveError)
  | malformedDigits (text : String)
  /-- a container without an entry that linking puts there -/
  | broken
  deriving Repr

def LinkError.message : LinkError → String
  | .secondTable name => "Duplicate table name " ++ quoted name
  | .secondEnumeration name => "Duplicate enumeration name " ++ quoted name
  | .negativeIndex enumeration name =>
    "Enumeration " ++ quoted enumeration ++ ": negative index for " ++ quoted name
  | .secondEntity name owner first =>
    "Entity name " ++ quoted name ++ " in " ++ quoted owner ++ " is already defined by " ++
      quoted first ++ "; table enumerations must be globally unique"
  | .targetNotEnumerated source mod target =>
    source ++ ": mod table " ++ quoted mod ++ " modifies " ++ quoted target ++
      ", which is not a DB_ENTITIES or ENUMERATION table"
  | .targetUnnamed source mod target =>
    source ++ ": mod table " ++ quoted mod ++ " modifies " ++ quoted target ++
      ", which has no row names"
  | .unknownAxisName source axis name =>
    source ++ ": unknown " ++ axis.word ++ " enumeration name " ++ quoted name
  | .mixedAxis source axis table owners =>
    source ++ ": " ++ axis.word ++ " names of " ++ quoted table ++
      " belong to more than one enumeration: " ++ ", ".intercalate owners
  | .unknownUnit source field unit =>
    source ++ ": field " ++ quoted field ++ " has unknown unit " ++ quoted unit
  | .unitFault e => e.message
  | .fieldsOnEnumeration source target =>
    source ++ ": cannot add fields to ENUMERATION " ++ quoted target
  | .fieldTypeDiffers source field given existing target =>
    source ++ ": field " ++ quoted field ++ " is " ++ given.text ++ " but " ++ existing.text ++
      " in " ++ quoted target
  | .wikiFieldNotText source field =>
    source ++ ": wiki field " ++ quoted field ++ " must be STRING"
  | .wikiFieldMissing source field =>
    source ++ ": WIKI_LOOKUP table has no " ++ quoted field ++ " field"
  | .cell e => e.message
  | .malformedDigits text => (CellFault.malformedFloat text).message
  | .broken => ""

/-- The error is one of names: of the enumerations, their members or what refers to them. -/
def LinkError.isEnumeration : LinkError → Bool
  | .secondEnumeration _ | .negativeIndex .. | .secondEntity .. => true
  | .unknownAxisName .. | .mixedAxis .. | .cell (.unknownEntity ..) => true
  | _ => false

/-- The error is one of the form of a table, alone or beside the others. -/
def LinkError.isSchema : LinkError → Bool
  | .secondTable _ | .targetNotEnumerated .. | .targetUnnamed .. => true
  | .unknownUnit .. | .fieldsOnEnumeration .. | .fieldTypeDiffers .. => true
  | .wikiFieldNotText .. | .wikiFieldMissing .. => true
  | .malformedDigits _ | .cell (.badFlag ..) => true
  | _ => false

/-- What must be there after linking. -/
def orBroken {α : Type} : Option α → Except LinkError α
  | some a => .ok a
  | none => .error .broken

end TypedTables
