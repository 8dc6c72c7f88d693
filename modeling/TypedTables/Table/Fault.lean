import TypedTables.Table.Format
import TypedTables.Table.Raw
/-!
# Faults of a table source

Why a source is no table, and the wording of each cause. A fault is reported with the
source and, where one line is to blame, its number.
-/
namespace TypedTables

open TypedTables.Text (quoted)

/-- The two sides of a grid. -/
inductive Axis where
  | row
  | column
  deriving DecidableEq, Repr

def Axis.word : Axis → String
  | .row => "row"
  | .column => "column"

/-- What is wrong with a source. -/
inductive SourceFault where
  | columnCount (expected found : Nat)
  | secondFormat
  | unknownDirective (keyword : String)
  | secondDirective (keyword : String)
  | missingArgument (keyword : String)
  | illegalDirective (directive : Directive) (format : TableFormat)
  | modWithoutTarget
  | gridWithoutType
  | noFieldNames
  | enumerationWithFields
  | secondHeaderRow (row : HeaderRow)
  | noFields (format : TableFormat)
  | emptyFieldName
  | reservedFieldName (name : String)
  | secondField (name : String)
  | typeRowMissing (format : TableFormat)
  | typeMissing (field : String)
  | fieldType (field : String) (fault : TypeFault)
  | unitOfNonFloat (field : String)
  | affixOfNonText (type : FieldType) (field : String)
  | cell (fault : CellFault)
  | rowsUnnamed (format : TableFormat)
  | rowsNamed
  | someRowsNamed
  | secondRow (name : String)
  | gridWithoutHeader
  | gridCorner
  | axisEmpty (axis : Axis)
  | axisNameEmpty (axis : Axis)
  | secondAxisName (axis : Axis) (name : String)
  | gridType (fault : TypeFault)
  | gridUnitOfNonFloat (type : FieldType)
  /-- a name or a line without the cells that belong to it -/
  | broken
  deriving DecidableEq, Repr

def SourceFault.message : SourceFault → String
  | .columnCount expected found =>
    "Expected " ++ toString expected ++ " columns, found " ++ toString found
  | .secondFormat => "More than one format directive"
  | .unknownDirective keyword => "Unknown directive @" ++ keyword
  | .secondDirective keyword => "Duplicate directive @" ++ keyword
  | .missingArgument keyword => "Directive @" ++ keyword ++ " requires an argument"
  | .illegalDirective directive format =>
    "Directive @" ++ directive.keyword ++ " is not legal for " ++ format.keyword
  | .modWithoutTarget => "DB_ENTITIES_MOD requires @MODIFIES=<table>"
  | .gridWithoutType => "ENUM_X_ENUM requires @DATA_TYPE=<type>"
  | .noFieldNames => "Missing field name header row"
  | .enumerationWithFields => "ENUMERATION tables have a single column"
  | .secondHeaderRow row => "Duplicate " ++ row.keyword ++ " row"
  | .noFields format => format.keyword ++ " table has no fields"
  | .emptyFieldName => "Empty field name"
  | .reservedFieldName name => "Field name " ++ quoted name ++ " is reserved"
  | .secondField name => "Duplicate field name " ++ quoted name
  | .typeRowMissing format => format.keyword ++ " requires a Type row"
  | .typeMissing field => "Missing type for field " ++ quoted field
  | .fieldType field fault => "Field " ++ quoted field ++ ": " ++ fault.message
  | .unitOfNonFloat field => "Unit given for non-FLOAT field " ++ quoted field
  | .affixOfNonText type field => "Prefix given for " ++ type.text ++ " field " ++ quoted field
  | .cell fault => fault.message
  | .rowsUnnamed format => format.keyword ++ " rows must be named"
  | .rowsNamed => "DB_ANONYMOUS_ROWS rows must not be named"
  | .someRowsNamed => "Row names must be given for all rows or none"
  | .secondRow name => "Duplicate row name " ++ quoted name
  | .gridWithoutHeader => "ENUM_X_ENUM table has no column header row"
  | .gridCorner => "First cell must be empty or 'rowPrefix\\columnPrefix'"
  | .axisEmpty axis => "ENUM_X_ENUM table has no " ++ axis.word ++ " names"
  | .axisNameEmpty axis => "Empty " ++ axis.word ++ " name"
  | .secondAxisName axis name => "Duplicate " ++ axis.word ++ " name " ++ quoted name
  | .gridType fault => fault.message
  | .gridUnitOfNonFloat type => "DATA_UNIT given for " ++ type.text ++ " data"
  | .broken => ""

/-- A fault, at a line if one is to blame. -/
structure Located where
  line : Option Nat
  fault : SourceFault
  deriving DecidableEq, Repr

/-- Why a source is no table. -/
structure SourceError where
  source : String
  line : Option Nat
  fault : SourceFault
  deriving DecidableEq, Repr

/-- mirrors `_TableParser.error` -/
def SourceError.message (e : SourceError) : String :=
  match e.line with
  | none => e.source ++ ": " ++ e.fault.message
  | some n => e.source ++ ":" ++ toString n ++ ": " ++ e.fault.message

/-- Blame a line. -/
def faultAt {α : Type} (line : Nat) (fault : SourceFault) : Except Located α :=
  .error ⟨some line, fault⟩

/-- Blame the source as a whole. -/
def faultIn {α : Type} (fault : SourceFault) : Except Located α := .error ⟨none, fault⟩

end TypedTables
