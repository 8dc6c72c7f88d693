import TypedTables.Dataset.Store
import TypedTables.Text.Quoted
/-!
# Reading a store

A row is addressed by its index or by the name of its entity, never by both. A table or an
entity that does not exist is an error; a field that a table does not have yields the value
that the reader has set for missing fields of its kind.
-/
namespace TypedTables

open TypedTables.Text (quoted)

/-- Why a read fails. -/
inductive LookupError where
  | noTable (table : String)
  | noRecords (table : String)
  | noGrid (table : String)
  | noEnumeration (name : String)
  | noField (field table : String)
  | noEntity (name table : String)
  | noAxisEntity (name axis table : String)
  | rowOutOfRange (row : Int) (table : String)
  | cellOutOfRange (row column : Int) (table : String)
  /-- neither or both of a row and a name are given -/
  | ambiguousRow
  | notBool (field table : String)
  /-- a container without an entry that linking puts there -/
  | broken
  deriving DecidableEq, Repr

def LookupError.message : LookupError → String
  | .noTable table => "No table " ++ quoted table
  | .noRecords table => "No DB table " ++ quoted table
  | .noGrid table => "No ENUM_X_ENUM table " ++ quoted table
  | .noEnumeration name => "No enumeration " ++ quoted name
  | .noField field table => "No field " ++ quoted field ++ " in " ++ quoted table
  | .noEntity name table => "No entity " ++ quoted name ++ " in " ++ quoted table
  | .noAxisEntity name axis table =>
    "No entity " ++ quoted name ++ " in " ++ quoted axis ++ ", an axis of " ++ quoted table
  | .rowOutOfRange row table =>
    "Row " ++ toString row ++ " out of range for " ++ quoted table
  | .cellOutOfRange row column table =>
    "Cell (" ++ toString row ++ ", " ++ toString column ++ ") out of range for " ++ quoted table
  | .ambiguousRow => "Exactly one of row and name must be given"
  | .notBool field table => "Field " ++ quoted field ++ " of " ++ quoted table ++
      " is not a BOOL field"
  | .broken => ""

/-- What a reader gets for a field that a table does not have. -/
structure MissingValues where
  bool : Value := .bool false
  int : Value := .int (-1)
  float : Value := .float (0.0 / 0.0)
  string : Value := .text ""
  array : Value := .array []

/-- A store with the values for missing fields. mirrors `TableAccess` -/
structure Access where
  store : Store
  missing : MissingValues := {}

/-- How a caller names a row. -/
structure RowRef where
  row : Option Int := none
  name : Option String := none
  deriving DecidableEq, Repr

/-- A row or a column of a grid, by index or by name. -/
inductive GridIndex where
  | index (i : Int)
  | name (n : String)
  deriving DecidableEq, Repr

namespace Access

/-! ## Tables, rows and names -/

/-- mirrors `TableAccess.has_table` -/
def hasTable (a : Access) (table : String) : Bool :=
  a.store.tables.contains table || (a.store.rowCount? table).isSome

/-- mirrors `TableAccess.has_field` -/
def hasField (a : Access) (table field : String) : Bool :=
  (a.store.sheet? table).any fun s => s.contains field

/-- mirrors `TableAccess.has_row_name` -/
def hasRowName (a : Access) (table name : String) : Bool :=
  (a.store.rowsOf? table).any fun rows => rows.contains name

/-- mirrors `TableAccess.has_entity` -/
def hasEntity (a : Access) (name : String) : Bool := a.store.entities.contains name

/-- The row of an entity of any table, or -1. mirrors `TableAccess.get_row` -/
def row (a : Access) (name : String) : Int :=
  match a.store.entities.get? name with
  | some e => e.row
  | none => -1

/-- mirrors `TableAccess.get_n_rows` -/
def rowCount (a : Access) (table : String) : Except LookupError Nat :=
  match a.store.rowCount? table with
  | some n => .ok n
  | none => .error (.noTable table)

/-- Refuse a row that a table does not have. -/
def checkRow (table : String) (count : Nat) (row : Int) : Except LookupError Nat :=
  if 0 ≤ row ∧ row < count then .ok row.toNat else .error (.rowOutOfRange row table)

/-- The name of a row, or the empty text if rows have no names.
mirrors `TableAccess.get_row_name` -/
def rowName (a : Access) (table : String) (row : Int) : Except LookupError String := do
  let row ← checkRow table (← a.rowCount table) row
  match (a.store.enumerations.get? table).map Enumeration.names with
  | none => pure ""
  | some [] => pure ""
  | some names =>
    match names[row]? with
    | some name => pure name
    | none => .error .broken

/-- mirrors `TableAccess.get_entity_prefix` -/
def entityAffix (a : Access) (table : String) : Except LookupError String :=
  match a.store.info.get? table with
  | some i => if i.rowCount.isSome then .ok i.entityAffix else .error (.noTable table)
  | none => .error (.noTable table)

/-- The rows of the names of an enumeration. mirrors `TableAccess.get_enumeration_dict` -/
def enumerationRows (a : Access) (name : String) : Except LookupError (OrderedMap String Nat) :=
  match a.store.enumerations.get? name with
  | some e => .ok e.rows
  | none => .error (.noEnumeration name)

/-- The names of an enumeration by their rows. mirrors `TableAccess.get_enumeration_array` -/
def enumerationNames (a : Access) (name : String) : Except LookupError (List String) :=
  match a.store.enumerations.get? name with
  | some e => .ok e.names
  | none => .error (.noEnumeration name)

/-- The title of an entity, or the empty text. mirrors `TableAccess.get_wiki_title` -/
def wikiTitle (a : Access) (key : String) : String := a.store.wiki.getD key ""

/-! ## Cells -/

/-- The fields of a table that has rows. mirrors `TableAccess._db_table` -/
def records (a : Access) (table : String) : Except LookupError Sheet :=
  match a.store.tables.get? table with
  | some (.sheet s) => .ok s
  | some (.grid _) => .error (.noRecords table)
  | none => if (a.store.rowCount? table).isSome then .ok ∅ else .error (.noRecords table)

/-- The row that a caller names. mirrors `TableAccess._row_index` -/
def rowIndex (a : Access) (table : String) (r : RowRef) : Except LookupError Nat :=
  match r.row, r.name with
  | some row, none => do
    checkRow table (← a.rowCount table) row
  | none, some name => do
    let count ← a.rowCount table
    match (a.store.rowsOf? table).bind fun rows => rows.get? name with
    | some row => checkRow table count row
    | none => .error (.noEntity name table)
  | _, _ => .error .ambiguousRow

/-- The value in a row of a field. -/
def valueAt (f : Field) (row : Nat) : Except LookupError Value :=
  match f.values[row]? with
  | some v => .ok v
  | none => .error .broken

/-- A cell, or `missing` if the table has no such field. mirrors `TableAccess._get` -/
def get (a : Access) (missing : Value) (table field : String) (r : RowRef) :
    Except LookupError Value := do
  let s ← a.records table
  let row ← a.rowIndex table r
  match s.get? field with
  | none => pure missing
  | some f => valueAt f row

def getBool (a : Access) := a.get a.missing.bool
def getInt (a : Access) := a.get a.missing.int
def getFloat (a : Access) := a.get a.missing.float
def getString (a : Access) := a.get a.missing.string
def getStringName (a : Access) := a.get a.missing.string
def getArray (a : Access) := a.get a.missing.array
def getValue (a : Access) := a.get .null

/-- The significant digits of a cell; -1 if they are not known.
mirrors `TableAccess.get_precision` -/
def precision (a : Access) (table field : String) (r : RowRef) : Except LookupError Int := do
  let row ← a.rowIndex table r
  match ((a.store.sheet? table).bind fun s => s.get? field).bind Field.precisions with
  | none => pure (-1)
  | some digits =>
    match digits[row]? with
    | some n => pure n
    | none => .error .broken

/-! ## Grids -/

/-- The index that a name has on an axis. mirrors `TableAccess._axis_index` -/
def axisIndex (a : Access) (axis table : String) : GridIndex → Except LookupError Int
  | .index i => .ok i
  | .name name =>
    match (a.store.rowsOf? axis).bind fun rows => rows.get? name with
    | some i => .ok i
    | none => .error (.noAxisEntity name axis table)

/-- A cell of a grid. mirrors `TableAccess.get_enum_x_enum` -/
def gridCell (a : Access) (table : String) (row column : GridIndex) : Except LookupError Value :=
  match a.store.grid? table with
  | none => .error (.noGrid table)
  | some g => do
    let row ← a.axisIndex g.rowAxis table row
    let column ← a.axisIndex g.columnAxis table column
    let cell : Option Value :=
      if 0 ≤ row ∧ 0 ≤ column then (g.cells[row.toNat]?).bind fun r => r[column.toNat]? else none
    match cell with
    | some v => pure v
    | none => .error (.cellOutOfRange row column table)

/-! ## Scans -/

/-- A field of a table. mirrors `TableAccess._column` -/
def column (a : Access) (table field : String) : Except LookupError Field := do
  match (← a.records table).get? field with
  | some f => pure f
  | none => .error (.noField field table)

/-- The rows whose value satisfies a condition. -/
def rowsWhere (p : Value → Bool) (values : List Value) : List Nat :=
  values.zipIdx.filterMap fun v => if p v.1 then some v.2 else none

/-- mirrors `TableAccess.get_matching_rows` -/
def matchingRows (a : Access) (table field : String) (v : Value) : Except LookupError (List Nat) :=
  return rowsWhere (·.same v) (← a.column table field).values

/-- The first row with a value, or -1. mirrors `TableAccess.find_row` -/
def findRow (a : Access) (table field : String) (v : Value) : Except LookupError Int := do
  match (← a.column table field).values.findIdx? (·.same v) with
  | some row => pure row
  | none => pure (-1)

/-- mirrors `TableAccess.count_matching` -/
def countMatching (a : Access) (table field : String) (v : Value) : Except LookupError Nat :=
  return (← a.column table field).values.countP (·.same v)

/-- The rows in which a BOOL field is true. mirrors `TableAccess.get_true_rows` -/
def trueRows (a : Access) (table field : String) : Except LookupError (List Nat) := do
  let f ← a.column table field
  if f.type ≠ ⟨.bool, false⟩ then .error (.notBool field table)
  pure (rowsWhere (·.same (.bool true)) f.values)

/-! ## Projections -/

/-- The values of a row by field. Of the wanted fields those that the table does not have
are left out; all fields are wanted if none are named. mirrors `TableAccess.build_dictionary` -/
def dictionary (a : Access) (table : String) (r : RowRef) (fields : Option (List String) := none) :
    Except LookupError (OrderedMap String Value) := do
  let s ← a.records table
  let row ← a.rowIndex table r
  let wanted := (fields.getD s.keys).filterMap fun k => (s.get? k).map (k, ·)
  let values ← wanted.mapM fun p => (p.1, ·) <$> valueAt p.2 row
  pure (.ofList values)

/-- One projection for each row. mirrors `TableAccess.build_dictionaries` -/
def dictionaries (a : Access) (table : String) (fields : Option (List String) := none) :
    Except LookupError (List (OrderedMap String Value)) := do
  let count ← a.rowCount table
  (List.range count).mapM fun (row : Nat) => a.dictionary table { row := some row } fields

/-- Set the attributes of an object from a row; `rename` gives some fields another name.
mirrors `TableAccess.build_object` -/
def fill (a : Access) (attributes : OrderedMap String Value) (table : String) (r : RowRef)
    (fields : Option (List String) := none) (rename : OrderedMap String String := ∅) :
    Except LookupError (OrderedMap String Value) := do
  let values ← a.dictionary table r fields
  pure (attributes.insertAll (values.toList.map fun p => (rename.getD p.1 p.1, p.2)))

/-- One filled object for each row. mirrors `TableAccess.build_objects` -/
def fillAll (a : Access) (attributes : OrderedMap String Value) (table : String)
    (fields : Option (List String) := none) (rename : OrderedMap String String := ∅) :
    Except LookupError (List (OrderedMap String Value)) := do
  let count ← a.rowCount table
  (List.range count).mapM fun (row : Nat) => a.fill attributes table { row := some row } fields rename

end Access

end TypedTables
