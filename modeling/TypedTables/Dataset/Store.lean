import TypedTables.Dataset.Value
import TypedTables.OrderedMap
import TypedTables.Table.Format
/-!
# Stores

The resolved tables of a dataset. All entities share one space of names: `entities` tells
for each name the table that owns it and its row there, `enumerations` the same by owner.
-/
namespace TypedTables

/-- Where an entity is. -/
structure Entity where
  /-- the table or predefined enumeration that defines it -/
  owner : String
  row : Nat
  deriving DecidableEq, Repr

/-- The names of one owner: their rows, and the name in each row. -/
structure Enumeration where
  rows : OrderedMap String Nat := ∅
  names : List String := []
  deriving DecidableEq

/-- What is known of a table apart from its cells. -/
structure TableInfo where
  format : TableFormat
  /-- the number of rows of a table that has rows -/
  rowCount : Option Nat
  entityAffix : String
  deriving DecidableEq, Repr

/-- A field of a resolved table. -/
structure Field where
  type : FieldType
  /-- what new rows hold -/
  default : Value
  /-- one value a row -/
  values : List Value
  /-- the significant digits, one number a row, where they are tracked -/
  precisions : Option (List Int)
  deriving Repr

/-- The fields of a table by their names. -/
abbrev Sheet := OrderedMap String Field

/-- A resolved grid, with the enumerations that name its rows and columns. -/
structure ValueGrid where
  rowAxis : String
  columnAxis : String
  cells : List (List Value)
  deriving Repr

/-- The cells of a resolved table. -/
inductive Contents where
  | sheet (fields : Sheet)
  | grid (g : ValueGrid)

/-- The resolved tables of a dataset. mirrors `TableStore` -/
structure Store where
  tables : OrderedMap String Contents := ∅
  info : OrderedMap String TableInfo := ∅
  entities : OrderedMap String Entity := ∅
  enumerations : OrderedMap String Enumeration := ∅
  /-- titles by the names of entities and other keys -/
  wiki : OrderedMap String String := ∅
  /-- whether significant digits were tracked -/
  tracksPrecision : Bool := false

namespace Store

/-- The fields of a table of records. -/
def sheet? (s : Store) (table : String) : Option Sheet :=
  match s.tables.get? table with
  | some (.sheet fields) => some fields
  | _ => none

def grid? (s : Store) (table : String) : Option ValueGrid :=
  match s.tables.get? table with
  | some (.grid g) => some g
  | _ => none

def rowCount? (s : Store) (table : String) : Option Nat :=
  (s.info.get? table).bind TableInfo.rowCount

/-! ## Views -/

def formats (s : Store) : OrderedMap String TableFormat := s.info.mapValues fun _ i => i.format

/-- The row of each entity. -/
def entityRows (s : Store) : OrderedMap String Nat := s.entities.mapValues fun _ e => e.row

/-- The owner of each entity. -/
def entityOwners (s : Store) : OrderedMap String String := s.entities.mapValues fun _ e => e.owner

/-- The numbers of rows of the tables that have rows. -/
def rowCounts (s : Store) : OrderedMap String Nat := s.info.filterMapValues fun _ i => i.rowCount

/-- The prefixes of the row names of the tables that have rows. -/
def entityAffixes (s : Store) : OrderedMap String String :=
  s.info.filterMapValues fun _ i => i.rowCount.map fun _ => i.entityAffix

/-- The types of the fields of the tables of records. -/
def fieldTypes (s : Store) : OrderedMap String (OrderedMap String FieldType) :=
  s.tables.filterMapValues fun _ c =>
    match c with
    | .sheet fields => some (fields.mapValues fun _ f => f.type)
    | .grid _ => none

/-- The significant digits of the scalar FLOAT fields, if they were tracked. -/
def precisions (s : Store) : OrderedMap String (OrderedMap String (List Int)) :=
  if s.tracksPrecision then
    s.tables.filterMapValues fun _ c =>
      match c with
      | .sheet fields => some (fields.filterMapValues fun _ f => f.precisions)
      | .grid _ => none
  else ∅

/-- The enumerations that name the rows and columns of the grids. -/
def gridAxes (s : Store) : OrderedMap String (String × String) :=
  s.tables.filterMapValues fun _ c =>
    match c with
    | .sheet _ => none
    | .grid g => some (g.rowAxis, g.columnAxis)

/-! ## Look-ups -/

/-- The rows of the names of one owner. -/
def rowsOf? (s : Store) (owner : String) : Option (OrderedMap String Nat) :=
  (s.enumerations.get? owner).map Enumeration.rows

end Store

end TypedTables
