import TypedTables.Log
import TypedTables.Table.Grid
/-!
# Parsing a table source

From the lines of one source to its draft. A source can ask not to be parsed; then there
is no draft.
-/
namespace TypedTables

namespace Draft

/-- The kind of records of a format, with the table that a mod changes. -/
def recordKind? (format : TableFormat) (target : String) : Option RecordKind :=
  match format with
  | .entities => some .entities
  | .entitiesMod => some (.mod target)
  | .anonymousRows => some .anonymous
  | .enumeration => some .enumeration
  | .wikiLookup => some .wikiLookup
  | .grid => none

/-- The draft of a source whose lines have been read. mirrors `_TableParser.parse` -/
def ofOutline (o : Outline) (name source : String) : Except Located Draft := do
  o.checkDirectives
  let name := o.tableName name
  match recordKind? o.tableFormat (o.directives.getD .modifies "") with
  | some kind =>
    let (records, pool) ← readRecords o.tableFormat o.rows StringPool.empty
    pure {
      name, source, pool
      rowNames := records.rowNames
      rowCount := records.rowCount
      entityAffix := records.entityAffix
      content := .records kind records.columns }
  | none =>
    let ((rowNames, grid), pool) ← readGrid o.directives o.rows StringPool.empty
    pure {
      name, source, pool, rowNames
      rowCount := rowNames.length
      entityAffix := ""
      content := .grid grid }

/-- Parse the lines of a source. `name` is the table's name unless the source gives another;
an empty `source` stands for the name. The answer is none if the source is not to be
parsed. mirrors `parse_table_lines` -/
def parse (lines : List String) (name : String) (source : String := "") :
    Except SourceError (Option Draft) :=
  let source := if source = "" then name else source
  let draft : Except Located (Option Draft) := do
    match ← Outline.read lines with
    | none => pure none
    | some o => some <$> ofOutline o name source
  draft.mapError fun e => ⟨source, e.line, e.fault⟩

/-- What is reported about a parsed source. -/
def notices (source : String) : Option Draft → List Notice
  | none => [.notParsed source]
  | some d =>
    let read := .tableRead d.name d.format.keyword d.rowCount d.columns.length
    if d.format.isRecords && d.rowCount == 0 then [.noRows d.source d.name, read] else [read]

/-- Parse a source and report on it. -/
def parseLogged (lines : List String) (name : String) (source : String := "") :
    Logged SourceError (Option Draft) :=
  match parse lines name source with
  | .ok draft => ⟨notices (if source = "" then name else source) draft, .ok draft⟩
  | .error e => ⟨[], .error e⟩

end Draft

end TypedTables
