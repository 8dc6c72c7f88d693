import TypedTables.Table.Records
/-!
# Grids

From the rows of a source to a grid: a row of column names, then rows that each start with
their name. The corner may hold the prefixes of the row names and the column names with a
backslash between them. A transposed source has rows and columns exchanged.
-/
namespace TypedTables

open TypedTables.Text (cutAt)

/-- The cells of a source as they stand: names at the top and at the left. -/
structure Layout where
  rowAffix : String
  columnAffix : String
  rowNames : List String
  columnNames : List String
  cells : List (List String)
  /-- the lines to blame for the rows of cells -/
  lines : List Nat

/-- The prefixes that the corner gives. -/
def readCorner (line : Nat) (corner : String) : Except Located (String × String) :=
  if corner = "" then .ok ("", "")
  else match cutAt '\\' corner.toList with
  | (_, none) => faultAt line .gridCorner
  | (row, some column) => .ok (String.ofList row, String.ofList column)

/-- Exchange the rows and the columns of rows of one length. -/
def exchange {α : Type} (rows : List (List α)) : Except Located (List (List α)) :=
  let width := (rows.head?.map List.length).getD 0
  if rows.all (·.length == width) then .ok (transpose width rows) else faultIn .broken

/-- Exchange rows and columns; all cells come from below the line of the column names. -/
def Layout.transposed (l : Layout) (line : Nat) : Except Located Layout := do
  let cells ← exchange l.cells
  pure {
    rowAffix := l.columnAffix
    columnAffix := l.rowAffix
    rowNames := l.columnNames
    columnNames := l.rowNames
    cells
    lines := l.columnNames.map fun _ => line }

/-- The layout of the rows of a grid. -/
def readLayout (header : Row) (rows : List Row) : Except Located Layout := do
  let (rowAffix, columnAffix) ← readCorner header.line header.head
  pure {
    rowAffix, columnAffix
    rowNames := rows.map Row.head
    columnNames := header.rest
    cells := rows.map Row.rest
    lines := rows.map Row.line }

/-- Put the prefix before the names of one axis, which must be given and distinct. -/
def readAxis (axis : Axis) (line : Nat) (affix : String) (seen : List String) :
    List String → Except Located (List String)
  | [] => .ok []
  | name :: rest => do
    if name = "" then faultAt line (.axisNameEmpty axis)
    if affix ++ name ∈ seen then faultAt line (.secondAxisName axis (affix ++ name))
    let others ← readAxis axis line affix ((affix ++ name) :: seen) rest
    pure ((affix ++ name) :: others)

/-- The names of an axis, of which there must be one. mirrors `_TableParser.check_axis` -/
def readAxisNames (axis : Axis) (line : Nat) (affix : String) (names : List String) :
    Except Located (List String) :=
  if names = [] then faultAt line (.axisEmpty axis) else readAxis axis line affix [] names

/-- The type that all cells of a grid have. -/
def readGridType (directives : OrderedMap Directive String) : Except Located FieldType :=
  match directives.get? .dataType with
  | none => faultIn .broken
  | some text =>
    match FieldType.parse text with
    | .ok type => .ok type
    | .error fault => faultIn (.gridType fault)

/-- Pair every line with its cells. -/
def pairLines : List Nat → List (List String) → Except Located (List (Nat × List String))
  | [], [] => .ok []
  | line :: lines, cells :: rest => ((line, cells) :: ·) <$> pairLines lines rest
  | _, _ => faultIn .broken

/-- The rows of a grid, exchanged with its columns where the source asks for it. -/
def orientLayout (directives : OrderedMap Directive String) (line : Nat) (l : Layout) :
    Except Located Layout :=
  if directives.contains .transpose then l.transposed line else .ok l

/-- Read the cells of a grid that has been laid out; answers the row names with it. -/
def readLaidOut (directives : OrderedMap Directive String) (line : Nat) (l : Layout) :
    Interning Located (List String × Grid) := do
  let rowNames ← readAxisNames .row line l.rowAffix l.rowNames
  let columnNames ← readAxisNames .column line l.columnAffix l.columnNames
  let type ← readGridType directives
  let unit := directives.getD .dataUnit ""
  if unit ≠ "" ∧ type.base ≠ .float then faultIn (.gridUnitOfNonFloat type)
  let default ← readCellAt none type "" .empty (directives.getD .dataDefault "")
  let rows ← pairLines l.lines l.cells
  let cells ← rows.mapM fun p => p.2.mapM (readCellAt (some p.1) type "" .empty)
  pure (rowNames, { type, unit, default, columnNames, cells })

/-- Read the rows of a grid; answers the row names with it.
mirrors `_TableParser.parse_enum_x_enum` -/
def readGrid (directives : OrderedMap Directive String) (rows : List Row) :
    Interning Located (List String × Grid) := do
  match rows with
  | [] => faultIn .gridWithoutHeader
  | header :: rows =>
    let layout ← readLayout header rows
    let layout ← orientLayout directives header.line layout
    readLaidOut directives header.line layout

end TypedTables
