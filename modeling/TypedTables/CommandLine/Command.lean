import TypedTables.CommandLine.Words
import TypedTables.Decimal.Given
import TypedTables.Files.Path
import TypedTables.Units.Converter
/-!
# Commands

What a command line asks for. The options of the program stand before the name of the
command; its own options and arguments stand after it in any order.
-/
namespace TypedTables.CommandLine

/-- What the program can do. -/
inductive CommandName where
  | load
  | convert
  | checkUnit
  deriving DecidableEq, Repr

namespace CommandName

def all : List CommandName := [.load, .convert, .checkUnit]

def keyword : CommandName → String
  | .load => "load"
  | .convert => "convert"
  | .checkUnit => "check-unit"

def ofKeyword? (s : String) : Option CommandName := all.find? fun n => n.keyword = s

/-- The options of a command. -/
def known : CommandName → List Known
  | .load =>
    [{ name := "--wiki" }, { name := "--no-wiki" }, { name := "--precisions" },
     { name := "--no-precisions" }, { name := "--table", short := some 't', takesValue := true }]
  | .convert => [{ name := "--from-internal" }]
  | .checkUnit => []

end CommandName

/-- Load table files and print a summary or the rows of one table. -/
structure Load where
  paths : List Path
  wiki : Option Bool := none
  precisions : Option Bool := none
  table : Option String := none

/-- A command with its arguments. -/
inductive Command where
  | load (l : Load)
  | convert (value : Float) (unit : String) (direction : Units.Direction)
  | checkUnit (unit : String)

/-- Read the words after the name of a command. -/
def Command.read? (name : CommandName) (words : List String) : Option Command := do
  let w ← Words.read? name.known false words
  match name, w.arguments with
  | .load, [] => none
  | .load, paths =>
    some (.load {
      paths := paths.map Path.ofText
      wiki := w.choice? "--wiki" "--no-wiki"
      precisions := w.choice? "--precisions" "--no-precisions"
      table := w.value? "--table" })
  | .convert, [value, unit] =>
    let direction := if w.has "--from-internal" then .fromBase else .toBase
    (Decimal.givenFloat? value.toList).map fun x => .convert x unit direction
  | .convert, _ => none
  | .checkUnit, [unit] => some (.checkUnit unit)
  | .checkUnit, _ => none

/-- A command line up to the name of its command. -/
structure Invocation where
  verbose : Bool := false
  envFile : Option Path := none
  name : CommandName
  words : List String

/-- The options of the program. -/
def programOptions : List Known :=
  [{ name := "--verbose", short := some 'v' }, { name := "--env-file", takesValue := true }]

/-- Read a command line up to the name of its command. -/
def Invocation.read? (words : List String) : Option Invocation := do
  let w ← Words.read? programOptions true words
  match w.arguments with
  | [] => none
  | name :: rest => do
    let name ← CommandName.ofKeyword? name
    some {
      verbose := w.has "--verbose"
      envFile := (w.value? "--env-file").map Path.ofText
      name, words := rest }

end TypedTables.CommandLine
