import TypedTables.Table.Format
import TypedTables.Table.Raw
/-!
# Drafts

A draft is one table as its own source gives it: names and types, and raw cells that
are still to be resolved together with the other tables of the dataset.
-/
namespace TypedTables

/-- What kind of records a table holds. -/
inductive RecordKind where
  | entities
  /-- fields and rows for the table `target` -/
  | mod (target : String)
  | anonymous
  | enumeration
  | wikiLookup
  deriving DecidableEq, Repr

def RecordKind.format : RecordKind → TableFormat
  | .entities => .entities
  | .mod _ => .entitiesMod
  | .anonymous => .anonymousRows
  | .enumeration => .enumeration
  | .wikiLookup => .wikiLookup

/-- A field of a record table with its raw cells, one a row. -/
structure Column where
  name : String
  type : FieldType
  /-- the unit of a FLOAT field, or the empty text -/
  unit : String
  /-- what is put before the texts of the field -/
  affix : String
  /-- what an empty cell holds -/
  default : Raw
  cells : List Raw
  deriving Repr

/-- A grid of cells of one type; its row names are those of the draft. -/
structure Grid where
  type : FieldType
  unit : String
  /-- what a missing cell holds -/
  default : Raw
  columnNames : List String
  cells : List (List Raw)
  deriving Repr

/-- The cells of a table. -/
inductive Content where
  | records (kind : RecordKind) (columns : List Column)
  | grid (g : Grid)
  deriving Repr

/-- One table as its source gives it. mirrors `IntermediateTable` -/
structure Draft where
  name : String
  /-- where the table comes from, for messages -/
  source : String
  pool : StringPool
  /-- names of rows, or none at all -/
  rowNames : List String
  rowCount : Nat
  /-- what is put before the row names -/
  entityAffix : String
  content : Content

namespace Draft

def format (d : Draft) : TableFormat :=
  match d.content with
  | .records kind _ => kind.format
  | .grid _ => .grid

/-- The fields of a record table. -/
def columns (d : Draft) : List Column :=
  match d.content with
  | .records _ columns => columns
  | .grid _ => []

def grid? (d : Draft) : Option Grid :=
  match d.content with
  | .records .. => none
  | .grid g => some g

/-- The table that a mod changes. -/
def target? (d : Draft) : Option String :=
  match d.content with
  | .records (.mod target) _ => some target
  | _ => none

/-- mirrors `IntermediateTable.has_row_names` -/
def isNamed (d : Draft) : Bool := !d.rowNames.isEmpty

/-- A short description of the table. mirrors `IntermediateTable.__repr__` -/
def summary (d : Draft) : String :=
  "IntermediateTable(" ++ Text.quoted d.name ++ ", " ++ d.format.keyword ++ ", rows=" ++
    toString d.rowCount ++ ", fields=" ++ toString d.columns.length ++ ")"

end Draft

end TypedTables
