import TypedTables.OrderedMap
import TypedTables.Table.Fault
import TypedTables.Table.Line
/-!
# Outlines

What the lines of a source say one after the other: its format, its directives, and its
rows, without the columns that hold comments. The first content line fixes the width of
all of them and marks the comment columns.
-/
namespace TypedTables

open TypedTables.Text (trim cutAt)

/-- What has been read of a source. -/
structure Outline where
  /-- the format and the table name that it gives -/
  format : Option (TableFormat × String) := none
  directives : OrderedMap Directive String := ∅
  /-- for each column whether it holds comments, as the first content line tells -/
  comments : Option (List Bool) := none
  rows : List Row := []

/-- The keyword and the argument of a directive line: the argument stands after an equals
sign or in the second cell. -/
def directiveParts (cells : List String) : String × String :=
  let key := trim ((cells.headD "").toList.drop 1)
  match cutAt '=' key with
  | (before, some after) => (String.ofList (trim before), String.ofList (trim after))
  | (_, none) => (String.ofList key, (cells[1]?).getD "")

/-- Drop the cells of comment columns. -/
def dropComments (comments : List Bool) (cells : List String) : List String :=
  (comments.zip cells).filterMap fun p => if p.1 then none else some p.2

namespace Outline

/-- The number of columns that hold no comments. -/
def width (o : Outline) : Nat := (o.comments.getD []).count false

/-- Take account of a directive line. The answer is none if the source is not to be
parsed. mirrors `_TableParser.read_directive` -/
def directive (o : Outline) (line : Nat) (cells : List String) :
    Except Located (Option Outline) :=
  let (keyword, argument) := directiveParts cells
  match TableFormat.ofKeyword? keyword with
  | some format =>
    if o.format.isSome then faultAt line .secondFormat
    else .ok (some { o with format := some (format, argument) })
  | none =>
    match Directive.ofKeyword? keyword with
    | none => faultAt line (.unknownDirective keyword)
    | some .dontParse => .ok none
    | some d =>
      let d := if d = .tableType then .dataType else d
      if o.directives.contains d then faultAt line (.secondDirective keyword)
      else if d.needsArgument ∧ argument = "" then faultAt line (.missingArgument keyword)
      else .ok (some { o with directives := o.directives.insert d argument })

/-- Take account of a content line. A line without any text is not a row.
mirrors `_TableParser.parse` -/
def content (o : Outline) (line : Nat) (cells : List String) : Except Located Outline :=
  let comments := o.comments.getD (cells.map fun c => c.toList.head? = some '#')
  let o := { o with comments := some comments }
  if cells.length ≠ comments.length then faultAt line (.columnCount comments.length cells.length)
  else .ok { o with rows := o.rows ++ (Row.ofCells? line (dropComments comments cells)).toList }

/-- Take account of the lines from number `n` on. -/
def readFrom (o : Outline) (n : Nat) : List String → Except Located (Option Outline)
  | [] => .ok (some o)
  | line :: rest =>
    match Line.of line with
    | .noise => o.readFrom (n + 1) rest
    | .directive cells => do
      match ← o.directive n cells with
      | none => .ok none
      | some o => o.readFrom (n + 1) rest
    | .content cells => do
      let o ← o.content n cells
      o.readFrom (n + 1) rest

/-- Read all lines of a source; none if it is not to be parsed. -/
def read (lines : List String) : Except Located (Option Outline) := ({} : Outline).readFrom 1 lines

/-- The format of the table: the declared one, or the one that fits the directives and
the number of columns. mirrors `_TableParser.resolve_format` -/
def tableFormat (o : Outline) : TableFormat :=
  match o.format with
  | some (format, _) => format
  | none =>
    if o.directives.contains .modifies then .entitiesMod
    else if o.width = 1 then .enumeration
    else .entities

/-- The name that the format directive gives, or else `name`. -/
def tableName (o : Outline) (name : String) : String :=
  match o.format with
  | some (_, given) => if given = "" then name else given
  | none => name

/-- Refuse directives that the format does not have and require those that it needs.
mirrors `_TableParser.resolve_format` -/
def checkDirectives (o : Outline) : Except Located Unit := do
  let format := o.tableFormat
  match o.directives.keys.find? fun d => !format.directives.contains d with
  | some d => faultIn (.illegalDirective d format)
  | none => pure ()
  if format = .entitiesMod ∧ ¬ o.directives.contains .modifies then faultIn .modWithoutTarget
  if format = .grid ∧ ¬ o.directives.contains .dataType then faultIn .gridWithoutType

end Outline

end TypedTables
