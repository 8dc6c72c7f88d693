import TypedTables.Files.Home
import TypedTables.Settings.Basic
import TypedTables.Settings.EnvFile
/-!
# Where settings come from

A setting has the value that is given for it; else that of its environment variable, in any
case; else that of the last file of variables that has it; else its default.

A program can keep one set of settings for all its sessions. `CurrentSettings` is that set,
and failing to replace it keeps the one before.

Results:
* `valueFrom_given`: a value that is given hides all others.
-/
namespace TypedTables

/-- Variables by their names in small letters; of two, the later one counts. -/
def inSmallNames {α : Type} (named : OrderedMap String α) : OrderedMap String α :=
  .ofList (named.toList.map fun v => (Text.inSmall v.1, v.2))

/-- The variables of several files; of two with one name, the later one counts. -/
def joinFiles (files : List EnvFile) : EnvFile :=
  files.foldl (fun all f => all.insertAll (inSmallNames f).toList) ∅

/-- The value for a setting. -/
def Setting.valueFrom (given : OrderedMap String Value) (environment : OrderedMap String String)
    (files : List EnvFile) (s : Setting) : Option Value :=
  match given.get? s.keyword with
  | some v => some v
  | none =>
    match (inSmallNames environment).get? s.variableName with
    | some text => some (.text text)
    | none => ((joinFiles files).get? s.variableName).join.map .text

theorem Setting.valueFrom_given {given : OrderedMap String Value} {s : Setting} {v : Value}
    (environment : OrderedMap String String) (files : List EnvFile)
    (h : given.get? s.keyword = some v) : s.valueFrom given environment files = some v := by
  simp [Setting.valueFrom, h]

namespace Settings

/-- Settings from given values and the environment. -/
def load (d : Disk) (given : OrderedMap String Value) (environment : OrderedMap String String)
    (files : List EnvFile := []) : Except SettingsError Settings :=
  ofValues d (Setting.valueFrom given environment files)

/-- Read a file of variables; a path that leads to no file says nothing. -/
def readFile? (d : Disk) (environment : OrderedMap String String) (p : Path) :
    Except SettingsError (Option EnvFile) := do
  match p.inHome? environment with
  | none => .error .noHome
  | some p =>
    if ← (d.isFile p).mapError .file then
      let text ← (d.text p).mapError .file
      pure (some (EnvFile.ofText environment text))
    else pure none

/-- Read the files of variables. -/
def readFiles (d : Disk) (environment : OrderedMap String String) :
    List Path → Except SettingsError (List EnvFile)
  | [] => .ok []
  | p :: rest => do
    let file ← readFile? d environment p
    let files ← readFiles d environment rest
    pure (file.toList ++ files)

/-- The file of variables in the folder of a project. -/
def projectFile (folder : Path) : Path := (folder.child ".tabulous").child ".env"

/-- Whether a path leads anywhere. -/
def leads (d : Disk) (p : Path) : Logged SettingsError Bool :=
  Logged.ofExcept ((d.leads p).mapError .file)

/-- The file of variables of a project, if there is one. -/
def existingProjectFile (d : Disk) (project : Option Path) : Logged SettingsError (List Path) := do
  match project.map projectFile with
  | none => pure []
  | some p => if ← leads d p then pure [p] else pure []

/-- The files of variables that exist, in the order in which they are read. A path that leads
nowhere as it is written is not looked for in a home folder. -/
def existingFiles (d : Disk) (project envFile : Option Path) : Logged SettingsError (List Path) := do
  let ofProject ← existingProjectFile d project
  match envFile with
  | none => pure ofProject
  | some p =>
    if ← leads d p then pure (ofProject ++ [p])
    else do
      Logged.tell (.envFileMissing p.text)
      pure ofProject

/-- The settings of a program, from the folder of a project and one more file of variables. -/
def ofProject (d : Disk) (environment : OrderedMap String String) (project envFile : Option Path) :
    Logged SettingsError Settings := do
  let paths ← existingFiles d project envFile
  let files ← Logged.ofExcept (readFiles d environment paths)
  Logged.ofExcept (load d ∅ environment files)

end Settings

/-- The settings that a program has initialised, if any. -/
abbrev CurrentSettings := Option Settings

namespace CurrentSettings

/-- mirrors `get_context` -/
def get (c : CurrentSettings) : Except SettingsError Settings :=
  match c with
  | some s => .ok s
  | none => .error .notInitialised

/-- Initialise the settings. mirrors `init_context` -/
def init (c : CurrentSettings) (d : Disk) (environment : OrderedMap String String)
    (project envFile : Option Path) : Logged SettingsError Settings × CurrentSettings :=
  let loaded := Settings.ofProject d environment project envFile
  match loaded.result with
  | .ok s => (loaded, some s)
  | .error _ => (loaded, c)

/-- The settings of a new session: the initialised ones, else those of the environment. -/
def forSession (c : CurrentSettings) (d : Disk) (environment : OrderedMap String String) :
    Except SettingsError Settings :=
  match c with
  | some s => .ok s
  | none => Settings.load d ∅ environment

end CurrentSettings

end TypedTables
