import TypedTables.Files.Disk
import TypedTables.Table.Parse
import TypedTables.Text.Case
/-!
# Table files

A table file is known by its suffix, and its table is named after it. A folder stands for the
table files in it, in the order of their names.
-/
namespace TypedTables

/-- Why a table file cannot be read. -/
inductive TableFileError where
  | unsupported (path : Path)
  | file (e : FileError)
  | source (e : SourceError)
  deriving DecidableEq, Repr

/-- The wording of an error; that of a file which cannot be read is left to the caller. -/
def TableFileError.message : TableFileError → String
  | .unsupported path => "Unsupported table file type: " ++ path.text
  | .file (.missing path) => "Table file " ++ path.text ++ " does not exist"
  | .file (.isFolder _) => ""
  | .file (.notText _) => ""
  | .file (.tooLong _) => ""
  | .source e => e.message

/-- The suffixes of table files. -/
def tableSuffixes : List String := [".tsv", ".txt"]

/-- Whether a path has the suffix of a table file, in any case. mirrors `create_reader` -/
def Path.isTableFile (p : Path) : Bool := tableSuffixes.contains (Text.inSmall p.suffix)

/-- The table files among the entries of a folder. -/
def Path.tableEntries (p : Path) (names : List String) : List Path :=
  ((names.mergeSort fun a b => decide (a ≤ b)).map p.child).filter Path.isTableFile

/-- The table files that paths stand for. mirrors `TableContext.expand_paths` -/
def tableFiles (d : Disk) : List Path → Except FileError (List Path)
  | [] => .ok []
  | p :: rest => do
    let found := ((← d.folder? p).map p.tableEntries).getD [p]
    let more ← tableFiles d rest
    pure (found ++ more)

namespace Draft

/-- Read a table file whatever its suffix. mirrors `parse_table_file` -/
def ofFile (d : Disk) (p : Path) : Logged TableFileError (Option Draft) := do
  let text ← (Logged.ofExcept (d.textAfterMark p)).mapError .file
  (parseLogged ((Text.lines text).map String.ofList) p.stem p.text).mapError .source

/-- Read a table file. mirrors `TSVReader.read` -/
def ofTableFile (d : Disk) (p : Path) : Logged TableFileError (Option Draft) :=
  if p.isTableFile then ofFile d p else Logged.ofExcept (.error (.unsupported p))

/-- Read table files one after the other, without those that ask not to be parsed. -/
def ofTableFiles (d : Disk) : List Path → Logged TableFileError (List Draft)
  | [] => pure []
  | p :: rest => do
    let draft ← ofTableFile d p
    let drafts ← ofTableFiles d rest
    pure (draft.toList ++ drafts)

/-- Read the table files that paths stand for. mirrors `TableContext.read_tables` -/
def ofPaths (d : Disk) (paths : List Path) : Logged TableFileError (List Draft) := do
  let files ← Logged.ofExcept ((tableFiles d paths).mapError .file)
  ofTableFiles d files

end Draft

end TypedTables
