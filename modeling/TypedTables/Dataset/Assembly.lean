import TypedTables.Dataset.Entities
import TypedTables.Decimal.Precision
import TypedTables.Log
import TypedTables.Table.Records
/-!
# Assembling a dataset

When the names are linked, the tables are resolved one by one, mods last. A mod first adds
its fields to the target, filled with their defaults; then all rows that mods add to the
target, filled with the defaults of their fields; then its own cells.
-/
namespace TypedTables

open TypedTables.Decimal (unknownPrecision precision)
open TypedTables.Units (Converter)

/-- What a run is asked to do. -/
structure LinkOptions where
  enableWiki : Bool := false
  enablePrecisions : Bool := false
  wikiField : String := "en.wiki"
  deriving DecidableEq, Repr

/-- What all tables of a run are resolved with. -/
structure Linking where
  units : Converter
  options : LinkOptions
  /-- all names of the dataset -/
  entities : OrderedMap String Entity

namespace Linking

/-- mirrors `TablePostprocessor.resolver` -/
def resolver (l : Linking) (d : Draft) : Resolver where
  strings := d.pool.strings
  entityRow name := (l.entities.get? name).map fun e => (e.row : Int)
  units := l.units
  source := d.source

/-- Resolve a cell of a table. -/
def cell (l : Linking) (d : Draft) (raw : Raw) (type : FieldType) (unit : String) :
    Except LinkError Value :=
  ((l.resolver d).resolve raw type unit).mapError .cell

/-- Refuse a unit that is not known. mirrors `TablePostprocessor.check_unit` -/
def checkUnit (l : Linking) (d : Draft) (unit field : String) : Except LinkError Unit :=
  if unit = "" then .ok ()
  else match l.units.isValid unit with
  | .ok true => .ok ()
  | .ok false => .error (.unknownUnit d.source field unit)
  | .error e => .error (.unitFault e)

/-- Whether significant digits are recorded for a type. -/
def tracks (l : Linking) (type : FieldType) : Bool :=
  l.options.enablePrecisions && type == ⟨.float, false⟩

/-- The significant digits of a raw FLOAT. -/
def digits (raw : Raw) : Except LinkError Int :=
  match raw with
  | .empty => .ok unknownPrecision
  | .text t => (precision t).mapError fun e => .malformedDigits e.text
  | _ => .error .broken

/-! ## Titles -/

/-- The column of titles that a table has. mirrors `TablePostprocessor.check_wiki_field` -/
def wikiColumn? (l : Linking) (d : Draft) : Except LinkError (Option Column) :=
  if !l.options.enableWiki then .ok none
  else match d.columns.find? fun c => c.name = l.options.wikiField with
  | none => .ok none
  | some c =>
    if c.type = ⟨.string, false⟩ ∨ c.type = ⟨.stringName, false⟩ then .ok (some c)
    else .error (.wikiFieldNotText d.source l.options.wikiField)

/-- Record the title of a row, unless its cell is blank. -/
def addTitle (l : Linking) (d : Draft) (wiki : OrderedMap String String) (name : String)
    (raw : Raw) : Except LinkError (OrderedMap String String) :=
  if raw.isBlank then .ok wiki
  else do
    let title ← ((l.resolver d).text raw).mapError .cell
    pure (wiki.insert name title)

/-- Record the titles of the rows of a table. -/
def addTitles (l : Linking) (d : Draft) (wiki : OrderedMap String String) :
    List (String × Raw) → Except LinkError (OrderedMap String String)
  | [] => .ok wiki
  | (name, raw) :: rest => do
    let wiki ← l.addTitle d wiki name raw
    l.addTitles d wiki rest

end Linking

/-- Pair the elements of two lists of one length. -/
def zipEven {α β : Type} : List α → List β → Except LinkError (List (α × β))
  | [], [] => .ok []
  | a :: as, b :: bs => ((a, b) :: ·) <$> zipEven as bs
  | _, _ => .error .broken

/-! ## Tables of records -/

/-- Resolve a field of a table. -/
def Linking.field (l : Linking) (d : Draft) (c : Column) : Except LinkError Field := do
  l.checkUnit d c.unit c.name
  let values ← c.cells.mapM fun raw => l.cell d raw c.type c.unit
  let default ← l.cell d c.default c.type c.unit
  let precisions ←
    if l.tracks c.type then some <$> c.cells.mapM Linking.digits else pure none
  pure ⟨c.type, default, values, precisions⟩

/-- The field of row names. -/
def rowNameField (names : List String) : Field where
  type := ⟨.stringName, false⟩
  default := .text ""
  values := names.map .text
  precisions := none

/-- Resolve the fields of a table; row names come first. -/
def Linking.sheet (l : Linking) (d : Draft) : Except LinkError Sheet := do
  let fields ← d.columns.mapM fun c => (c.name, ·) <$> l.field d c
  let start : Sheet :=
    if d.isNamed then OrderedMap.empty.insert nameField (rowNameField d.rowNames) else ∅
  pure (start.insertAll fields)

/-! ## Mods -/

/-- The rows of a table that a mod works on. -/
structure Target where
  name : String
  enumeration : Enumeration
  /-- the number of rows before the mod -/
  rowCount : Nat

/-- Add a field to a table, filled with its default, or check that it has the type of the
field that is there. -/
def Linking.addField (l : Linking) (d : Draft) (t : Target) (s : Sheet) (c : Column) :
    Except LinkError Sheet := do
  l.checkUnit d c.unit c.name
  match s.get? c.name with
  | some f =>
    if f.type ≠ c.type then .error (.fieldTypeDiffers d.source c.name c.type f.type t.name)
    else pure s
  | none =>
    let default ← l.cell d c.default c.type c.unit
    let precisions :=
      if l.tracks c.type then some (List.replicate t.rowCount unknownPrecision) else none
    pure (s.insert c.name ⟨c.type, default, List.replicate t.rowCount default, precisions⟩)

/-- Add rows that hold the default. -/
def Field.grow (f : Field) (n : Nat) : Field :=
  { f with
    values := f.values ++ List.replicate n f.default
    precisions := f.precisions.map (· ++ List.replicate n unknownPrecision) }

/-- Add the rows that a table lacks of its enumeration. -/
def growSheet (t : Target) (s : Sheet) : Sheet :=
  let missing := t.enumeration.names.length - t.rowCount
  if missing = 0 then s
  else s.mapValues fun name f =>
    if name = nameField then { f with values := t.enumeration.names.map .text } else f.grow missing

/-- Write a value, and its digits where they are tracked, into a row of a field. -/
def Field.write (f : Field) (row : Nat) (v : Value) (digits : Int) : Except LinkError Field :=
  if row < f.values.length ∧ f.precisions.all (fun ds => decide (row < ds.length)) then
    .ok { f with values := f.values.set row v, precisions := f.precisions.map (·.set row digits) }
  else .error .broken

/-- Write a cell of a mod, unless it is empty. -/
def Linking.writeCell (l : Linking) (d : Draft) (row : Nat) (s : Sheet) (c : Column) (raw : Raw) :
    Except LinkError Sheet :=
  if raw.isEmpty then .ok s
  else do
    let v ← l.cell d raw c.type c.unit
    let f ← orBroken (s.get? c.name)
    let digits ← if f.precisions.isSome then Linking.digits raw else pure unknownPrecision
    let f ← f.write row v digits
    pure (s.insert c.name f)

/-- Write the cells of one row of a mod, and its title. -/
def Linking.writeRow (l : Linking) (d : Draft) (title : Option Column) (name : String) (row : Nat)
    (state : Sheet × OrderedMap String String) :
    List (Column × Raw) → Except LinkError (Sheet × OrderedMap String String)
  | [] => .ok state
  | (c, raw) :: rest => do
    let s ← l.writeCell d row state.1 c raw
    let wiki ←
      if (title.any fun t => t.name == c.name) then l.addTitle d state.2 name raw else pure state.2
    l.writeRow d title name row (s, wiki) rest

/-- The cells of a row of a table. -/
def cellsAt (columns : List Column) (i : Nat) : Except LinkError (List (Column × Raw)) :=
  columns.mapM fun c => (c, ·) <$> orBroken c.cells[i]?

/-- Write the rows of a mod. -/
def Linking.writeRows (l : Linking) (d : Draft) (t : Target) (title : Option Column)
    (state : Sheet × OrderedMap String String) :
    List (String × Nat) → Except LinkError (Sheet × OrderedMap String String)
  | [] => .ok state
  | (name, i) :: rest => do
    let row ← orBroken (t.enumeration.rows.get? name)
    let cells ← cellsAt d.columns i
    let state ← l.writeRow d title name row state cells
    l.writeRows d t title state rest

/-- Apply a mod to a table. mirrors `TablePostprocessor.process_mod_table` -/
def Linking.modify (l : Linking) (d : Draft) (t : Target) (s : Sheet)
    (wiki : OrderedMap String String) : Except LinkError (Sheet × OrderedMap String String) := do
  let s ← d.columns.foldlM (l.addField d t) s
  let s := growSheet t s
  let title ← l.wikiColumn? d
  l.writeRows d t title (s, wiki) d.rowNames.zipIdx

/-! ## Grids -/

/-- The enumeration to which all names of an axis belong.
mirrors `TablePostprocessor.axis_enumeration` -/
def axisOwner (entities : OrderedMap String Entity) (d : Draft) (axis : Axis)
    (names : List String) : Except LinkError String := do
  let owners ← names.mapM fun name =>
    match entities.get? name with
    | some e => .ok e.owner
    | none => .error (.unknownAxisName d.source axis name)
  match owners.eraseDups with
  | [owner] => pure owner
  | others => .error (.mixedAxis d.source axis d.name (others.mergeSort fun a b => decide (a ≤ b)))

/-- Write a value into a cell of a grid. -/
def setCell (cells : List (List Value)) (row column : Nat) (v : Value) :
    Except LinkError (List (List Value)) :=
  match cells[row]? with
  | some r => if column < r.length then .ok (cells.set row (r.set column v)) else .error .broken
  | none => .error .broken

/-- Write the cells of one row of a grid. -/
def Linking.fillRow (l : Linking) (d : Draft) (g : Grid) (columns : Enumeration) (row : Nat)
    (cells : List (List Value)) : List (String × Raw) → Except LinkError (List (List Value))
  | [] => .ok cells
  | (name, raw) :: rest => do
    if raw.isEmpty then l.fillRow d g columns row cells rest
    else do
      let column ← orBroken (columns.rows.get? name)
      let v ← l.cell d raw g.type g.unit
      let cells ← setCell cells row column v
      l.fillRow d g columns row cells rest

/-- Write the cells of a grid. -/
def Linking.fillGrid (l : Linking) (d : Draft) (g : Grid) (rows columns : Enumeration)
    (cells : List (List Value)) : List (String × List Raw) → Except LinkError (List (List Value))
  | [] => .ok cells
  | (name, raws) :: rest => do
    let row ← orBroken (rows.rows.get? name)
    let named ← zipEven g.columnNames raws
    let cells ← l.fillRow d g columns row cells named
    l.fillGrid d g rows columns cells rest

/-- Resolve a grid: cells that the source does not give hold the default.
mirrors `TablePostprocessor.process_enum_x_enum` -/
def Linking.grid (l : Linking) (enumerations : OrderedMap String Enumeration) (d : Draft)
    (g : Grid) : Except LinkError ValueGrid := do
  l.checkUnit d g.unit "DATA_UNIT"
  let default ← l.cell d g.default g.type g.unit
  let rowAxis ← axisOwner l.entities d .row d.rowNames
  let columnAxis ← axisOwner l.entities d .column g.columnNames
  let rows ← orBroken (enumerations.get? rowAxis)
  let columns ← orBroken (enumerations.get? columnAxis)
  let empty := List.replicate rows.names.length (List.replicate columns.names.length default)
  let named ← zipEven d.rowNames g.cells
  let cells ← l.fillGrid d g rows columns empty named
  pure { rowAxis, columnAxis, cells }

end TypedTables
