import TypedTables.Dataset.Query
import TypedTables.Units.Quantity
/-!
# Printing datasets

A table is summed up in one line and a row is printed as its fields with their values. Texts
are printed as they are, but quoted inside an array.
-/
namespace TypedTables

namespace Value

mutual

/-- A value inside an array. -/
def shown : Value → String
  | .null => "None"
  | .bool true => "True"
  | .bool false => "False"
  | .int i => toString i
  | .float x => Decimal.floatText x
  | .complex re im => (Units.Quantity.complex re im).text
  | .text s => Text.quoted s
  | .array items =>
    match shownItems items with
    | [item] => "(" ++ item ++ ",)"
    | items => "(" ++ ", ".intercalate items ++ ")"

def shownItems : List Value → List String
  | [] => []
  | v :: rest => shown v :: shownItems rest

end

/-- A value on its own. -/
def printed : Value → String
  | .text s => s
  | v => v.shown

end Value

/-- A row as its fields. -/
def rowLine (row : OrderedMap String Value) : String :=
  "\t".intercalate (row.toList.map fun f => f.1 ++ "=" ++ f.2.printed)

namespace Store

/-- A table in one line. -/
def summary (s : Store) (table : String) (info : TableInfo) : String :=
  "\t".intercalate <| [table, info.format.keyword] ++
    match info.format with
    | .grid =>
      let cells := ((s.grid? table).map ValueGrid.cells).getD []
      [toString cells.length ++ " x " ++ toString (cells.head?.map List.length |>.getD 0)]
    | .wikiLookup => []
    | _ =>
      let fields := ((s.sheet? table).map OrderedMap.keys).getD []
      [toString (info.rowCount.getD 0) ++ " rows", ", ".intercalate fields]

/-- The tables, and how many titles there are. -/
def summaries (s : Store) : List String :=
  s.info.toList.map (fun t => s.summary t.1 t.2) ++
    if s.wiki.isEmpty then [] else ["wiki lookup\t" ++ toString s.wiki.size ++ " entries"]

end Store

end TypedTables
