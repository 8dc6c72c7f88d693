import TypedTables.Table.Draft
import TypedTables.Table.Outline
/-!
# Record tables

From the rows of a source to columns: the row of field names, then header rows for
types, units, defaults and prefixes in any order, then the content rows.
-/
namespace TypedTables

/-- The field that holds the names of the rows and that no source may declare. -/
def nameField : String := "name"

/-! ## Header -/

/-- What a header row starts with that names the prefix of the row names. -/
def affixMark : String := "Prefix/"

/-- The header rows of a table, and the prefix of its row names. -/
structure Header where
  rows : OrderedMap HeaderRow Row := ∅
  entityAffix : String := ""

/-- Which header row a first cell announces, and the row name prefix that it may give.
mirrors `_TableParser.is_header_row` -/
def headerRow? (cell : String) : Option (HeaderRow × Option String) :=
  if affixMark.toList.isPrefixOf cell.toList then
    some (.affix, some (String.ofList (cell.toList.drop affixMark.length)))
  else (HeaderRow.ofKeyword? cell).map fun h => (h, none)

/-- Take the header rows at the front. -/
def takeHeader (header : Header) : List Row → Except Located (Header × List Row)
  | [] => .ok (header, [])
  | row :: rest =>
    match headerRow? row.head with
    | none => .ok (header, row :: rest)
    | some (kind, entityAffix) =>
      if header.rows.contains kind then faultAt row.line (.secondHeaderRow kind)
      else
        takeHeader ⟨header.rows.insert kind row, entityAffix.getD header.entityAffix⟩ rest

/-- The cells of a header row, one for each of `n` fields; empty ones if the table has no
such row. -/
def Header.cells (header : Header) (kind : HeaderRow) (n : Nat) : List String :=
  match header.rows.get? kind with
  | some row => row.rest
  | none => List.replicate n ""

/-- The line to blame for a header row. -/
def Header.line? (header : Header) (kind : HeaderRow) : Option Nat :=
  (header.rows.get? kind).map Row.line

/-! ## Fields -/

/-- Refuse names that are empty, reserved or repeated. -/
def checkFieldNames (line : Nat) (seen : List String) : List String → Except Located Unit
  | [] => .ok ()
  | name :: rest =>
    if name = "" then faultAt line .emptyFieldName
    else if name = nameField then faultAt line (.reservedFieldName name)
    else if name ∈ seen then faultAt line (.secondField name)
    else checkFieldNames line (name :: seen) rest

/-- The field names of the first row. mirrors `_TableParser.read_field_names` -/
def readFieldNames (format : TableFormat) (row : Row) : Except Located (List String) := do
  if row.rest = [] then faultAt row.line (.noFields format)
  checkFieldNames row.line [] row.rest
  pure row.rest

/-- The declared type of one field. -/
def readType (format : TableFormat) (line : Nat) (field cell : String) :
    Except Located FieldType :=
  if cell = "" then
    if format.defaultsToText then .ok ⟨.string, false⟩ else faultAt line (.typeMissing field)
  else match FieldType.parse cell with
  | .ok type => .ok type
  | .error fault => faultAt line (.fieldType field fault)

/-- The types of the fields. `first` is the line of the field names.
mirrors `_TableParser.read_types` -/
def readTypes (format : TableFormat) (header : Header) (first : Option Nat)
    (names : List String) : Except Located (List FieldType) :=
  match header.rows.get? .type with
  | some row => (names.zip row.rest).mapM fun p => readType format row.line p.1 p.2
  | none =>
    if names ≠ [] ∧ ¬ format.defaultsToText then .error ⟨first, .typeRowMissing format⟩
    else .ok (names.map fun _ => ⟨.string, false⟩)

/-- The unit of a field, which only a FLOAT field may have. mirrors `_TableParser.read_units` -/
def readUnit (line : Option Nat) (field : String) (type : FieldType) (cell : String) :
    Except Located String :=
  if cell ≠ "" ∧ type.base ≠ .float then .error ⟨line, .unitOfNonFloat field⟩ else .ok cell

/-- The prefix of a field's texts, which only a field with pooled cells may have.
mirrors `_TableParser.read_prefixes` -/
def readAffix (line : Option Nat) (field : String) (type : FieldType) (cell : String) :
    Except Located String :=
  if cell ≠ "" ∧ ¬ type.base.isPooled then .error ⟨line, .affixOfNonText type field⟩ else .ok cell

/-- Read a cell and blame a line for what does not fit. -/
def readCellAt (line : Option Nat) (type : FieldType) (affix : String) (default : Raw)
    (cell : String) : Interning Located Raw := fun pool =>
  (readCell type affix default cell pool).mapError fun fault => ⟨line, .cell fault⟩

/-- The columns that the header declares, without cells. Types are read first, then units,
prefixes and defaults. mirrors `_TableParser.read_defaults` -/
def readColumns (format : TableFormat) (header : Header) (first : Option Nat)
    (names : List String) : Interning Located (List Column) := do
  let cells (kind : HeaderRow) := header.cells kind names.length
  let types ← readTypes format header first names
  let typed := names.zip types
  let units ← (typed.zip (cells .unit)).mapM fun p =>
    readUnit (header.line? .unit) p.1.1 p.1.2 p.2
  let affixes ← (typed.zip (cells .affix)).mapM fun p =>
    readAffix (header.line? .affix) p.1.1 p.1.2 p.2
  let plain := (typed.zip (units.zip affixes)).map fun p =>
    ({ name := p.1.1, type := p.1.2, unit := p.2.1, affix := p.2.2, default := .empty,
       cells := [] } : Column)
  (plain.zip (cells .default)).mapM fun p => do
    let default ← readCellAt (header.line? .default) p.1.type p.1.affix .empty p.2
    pure { p.1 with default }

/-! ## Content -/

/-- The cell of a row at the place of a column. -/
def Row.cell (row : Row) (i : Nat) : Except Located String :=
  match row.rest[i]? with
  | some cell => .ok cell
  | none => faultAt row.line .broken

/-- Read the cells of one content row. -/
def readRow (columns : List Column) (row : Row) : Interning Located (List Raw) :=
  columns.zipIdx.mapM fun p => do
    let cell ← row.cell p.2
    readCellAt (some row.line) p.1.type p.1.affix p.1.default cell

/-- Read content rows: with `named`, every row has a name that no row before it has; otherwise
no row has one. The names come with the prefix. mirrors `_TableParser.read_rows` -/
def readRows (columns : List Column) (named : Bool) (entityAffix : String) (seen : List String) :
    List Row → Interning Located (List (String × List Raw))
  | [] => pure []
  | row :: rest => do
    if (row.head != "") ≠ named then faultAt row.line .someRowsNamed
    let name := if named then entityAffix ++ row.head else ""
    if named ∧ name ∈ seen then faultAt row.line (.secondRow name)
    let cells ← readRow columns row
    let others ← readRows columns named entityAffix (name :: seen) rest
    pure ((name, cells) :: others)

/-- Row names are required by some formats and refused by one; the first row tells whether
the table has them. -/
def checkNaming (format : TableFormat) : List Row → Except Located Bool
  | [] => .ok false
  | row :: _ =>
    let named := row.head != ""
    if format.needsRowNames ∧ ¬ named then faultAt row.line (.rowsUnnamed format)
    else if format = .anonymousRows ∧ named then faultAt row.line .rowsNamed
    else .ok named

/-- The elements at each of the places `0 … n-1` of the rows. -/
def transpose {α : Type} (n : Nat) (rows : List (List α)) : List (List α) :=
  (List.range n).map fun j => rows.filterMap (·[j]?)

/-- What a source of records gives. -/
structure Records where
  columns : List Column
  rowNames : List String
  rowCount : Nat
  entityAffix : String

/-- Whether the source begins with header rows instead of field names: enumerations do, and
mods of a single column, which only add rows. -/
def isHeaderless (format : TableFormat) (rows : List Row) : Bool :=
  format = .enumeration ||
    format = .entitiesMod && (rows.head?.any fun row => row.cells.length == 1)

/-- The field names with their line, and the rows after them. -/
def takeFieldNames (format : TableFormat) (rows : List Row) :
    Except Located (Option Nat × List String × List Row) :=
  if isHeaderless format rows then
    match rows with
    | row :: _ =>
      if format = .enumeration ∧ row.cells.length ≠ 1 then faultAt row.line .enumerationWithFields
      else .ok (none, [], rows)
    | [] => .ok (none, [], [])
  else
    match rows with
    | [] => faultIn .noFieldNames
    | row :: rest => do
      let names ← readFieldNames format row
      .ok (some row.line, names, rest)

/-- Read the rows of a record table. mirrors `_TableParser.parse_db_style` -/
def readRecords (format : TableFormat) (rows : List Row) : Interning Located Records := do
  let (first, names, rows) ← takeFieldNames format rows
  let (header, rows) ← takeHeader {} rows
  let columns ← readColumns format header first names
  let named ← checkNaming format rows
  let content ← readRows columns named header.entityAffix [] rows
  let cells := transpose columns.length (content.map Prod.snd)
  pure {
    columns := (columns.zip cells).map fun p => { p.1 with cells := p.2 }
    rowNames := if named then content.map Prod.fst else []
    rowCount := rows.length
    entityAffix := header.entityAffix }

end TypedTables
