import TypedTables.CommandLine.Command
import TypedTables.CommandLine.Failure
import TypedTables.Dataset.Print
import TypedTables.Text.Control
import TypedTables.Yaml.Read
/-!
# Running commands

What a command line prints, logs and returns. The settings are read before the words of the
command are, so settings that cannot be read are found first. The log starts once the settings
are known and holds the notices of the level that they ask for.
-/
namespace TypedTables.CommandLine

/-- How a program ends. -/
inductive Ending where
  | code (n : UInt32)
  /-- the command line is none of the program's -/
  | usage
  | failed (e : CommandError)
  deriving Repr

/-- What a program leaves behind. -/
structure Outcome where
  ending : Ending
  printed : List String := []
  log : List Notice := []

/-- What a command prints, with its code, or why it fails. -/
abbrev CommandResult := Logged CommandError (List String × UInt32)

/-- Report an error and end with code 1, or fail if it is none to report. -/
def reportOr (isReported : Bool) (e : CommandError) : CommandResult :=
  if isReported then ⟨[.failed e.message], .ok ([], 1)⟩ else ⟨[], .error e⟩

/-- Go on with a result or with an error. -/
def andThen {ε α : Type} (x : Logged ε α) (error : ε → CommandResult)
    (f : α → CommandResult) : CommandResult :=
  let next := match x.result with
    | .ok a => f a
    | .error e => error e
  ⟨x.notices ++ next.notices, next.result⟩

/-- The rows of a table of records. -/
def tableLines (a : Access) (table : String) : Except LookupError (List String) := do
  let rows ← a.dictionaries table
  pure (rows.map rowLine)

/-- Report on a linked dataset. -/
def report (l : Load) (settings : Settings) (store : Store) : CommandResult :=
  match l.table with
  | none => pure (store.summaries, 0)
  | some table =>
    if (store.sheet? table).isSome then
      match tableLines { store, missing := settings.missing } table with
      | .ok lines => pure (lines, 0)
      | .error e => ⟨[], .error (.lookup e)⟩
    else ⟨[.failed (LookupError.noRecords table).message], .ok ([], 1)⟩

/-- Load table files. mirrors `load` -/
def Load.run (l : Load) (d : Disk) (settings : Settings) : CommandResult :=
  let r : TypedTables.Run :=
    { paths := l.paths, enableWiki := l.wiki, enablePrecisions := l.precisions }
  andThen (({ settings : Session }).run Yaml.read d r).1
    (fun e => reportOr e.isReported (.session e)) (report l settings)

/-- The units that a command converts with. -/
def converter (d : Disk) (settings : Settings) : Logged SessionError Units.Converter :=
  ({ settings : Session }).converter Yaml.read d {}

/-- Convert a value and print it. mirrors `convert` -/
def convert (d : Disk) (settings : Settings) (x : Float) (unit : String)
    (direction : Units.Direction) : CommandResult :=
  andThen (converter d settings) (fun e => reportOr e.isReported (.session e)) fun units =>
    match units.convert x unit direction with
    | .ok q => pure ([q.text], 0)
    | .error e => reportOr e.isUnresolved (.unit e)

/-- Print whether a unit is valid. mirrors `check_unit` -/
def checkUnit (d : Disk) (settings : Settings) (unit : String) : CommandResult :=
  andThen (converter d settings) (fun e => ⟨[], .error (.session e)⟩) fun units =>
    match units.isValid unit with
    | .ok true => pure ([unit ++ ": valid"], 0)
    | .ok false => pure ([unit ++ ": invalid"], 1)
    | .error e => ⟨[], .error (.unit e)⟩

def Command.run (c : Command) (d : Disk) (settings : Settings) : CommandResult :=
  match c with
  | .load l => l.run d settings
  | .convert x unit direction => CommandLine.convert d settings x unit direction
  | .checkUnit unit => CommandLine.checkUnit d settings unit

/-- The notices from a level on. -/
def logged (level : Level) (notices : List Notice) : List Notice :=
  notices.filter fun n => decide (level.rank ≤ n.level.rank)

/-- The folder of the project. -/
def projectFolder : Path := .ofText "."

/-- Run a command with its settings. What it prints holds no control sequences; its log may. -/
def Invocation.runWith (i : Invocation) (d : Disk) (settings : Settings) : Outcome :=
  match Command.read? i.name i.words with
  | none => { ending := .usage }
  | some c =>
    let done := c.run d settings
    let log := logged (if i.verbose then .debug else settings.logLevel) done.notices
    match done.result with
    | .ok (lines, code) =>
      { ending := .code code, printed := lines.map Text.withoutControls, log }
    | .error e => { ending := .failed e, log }

/-- Run a command line. mirrors `main` -/
def run (d : Disk) (environment : OrderedMap String String) (words : List String) : Outcome :=
  match Invocation.read? words with
  | none => { ending := .usage }
  | some i =>
    match (Settings.ofProject d environment (some projectFolder) i.envFile).result with
    | .error e => { ending := .failed (.settings e) }
    | .ok settings => i.runWith d settings

/-- A line of the log. -/
def logLine (n : Notice) : String :=
  String.ofList (n.level.keyword.toList.rightpad 8 ' ') ++ " | " ++ n.message

/-- Lines as one text. -/
def unlines (lines : List String) : String := String.join (lines.map (· ++ "\n"))

/-! ## What is read -/

/-- The files of variables that a command line names, as they are written. -/
def Invocation.envFiles (i : Invocation) : List Path :=
  Settings.projectFile projectFolder :: i.envFile.toList

/-- The files of variables that a command line asks for, as they are written and as they are
meant. -/
def Invocation.settingsFiles (i : Invocation) (environment : OrderedMap String String) :
    List Path :=
  i.envFiles ++ i.envFiles.filterMap (Path.inHome? environment)

/-- The file of unit sizes that the settings name. -/
def Invocation.overridesFile? (i : Invocation) (d : Disk)
    (environment : OrderedMap String String) : Option Path :=
  match Settings.readFiles d environment i.envFiles with
  | .error _ => none
  | .ok files =>
    match Setting.valueFrom ∅ environment files .unitOverrides with
    | some (.text s) => some (.ofText s)
    | _ => none

/-- The table files and folders that a command line names. -/
def Invocation.tablePaths (i : Invocation) : List Path :=
  match Command.read? i.name i.words with
  | some (.load l) => l.paths
  | _ => []

end TypedTables.CommandLine
