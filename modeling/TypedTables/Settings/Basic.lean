import TypedTables.Dataset.Query
import TypedTables.Decimal.Given
import TypedTables.Files.Disk
import TypedTables.Log
import TypedTables.Text.Case
/-!
# Settings

What a user can set, and how a value that is given for a setting is read. A value can be of
the setting's own kind or a text, as environment variables only hold texts. A value that
cannot be read is a fault of its setting, and all faults are reported together.

Results:
* `mem_all`: every setting is listed.
-/
namespace TypedTables

/-- What can be set. -/
inductive Setting where
  | enablePrecisions
  | enableWiki
  | logLevel
  | missingBool
  | missingFloat
  | missingInt
  | missingString
  | projectDir
  | unitOverrides
  | wikiField
  deriving DecidableEq, Repr

namespace Setting

/-- The settings in the order of their keywords. -/
def all : List Setting :=
  [.enablePrecisions, .enableWiki, .logLevel, .missingBool, .missingFloat, .missingInt,
   .missingString, .projectDir, .unitOverrides, .wikiField]

theorem mem_all (s : Setting) : s ∈ all := by cases s <;> decide

def keyword : Setting → String
  | .enablePrecisions => "enable_precisions"
  | .enableWiki => "enable_wiki"
  | .logLevel => "log_level"
  | .missingBool => "missing_bool"
  | .missingFloat => "missing_float"
  | .missingInt => "missing_int"
  | .missingString => "missing_string"
  | .projectDir => "project_dir"
  | .unitOverrides => "unit_overrides_file"
  | .wikiField => "wiki_field"

/-- The name of the environment variable of a setting, in small letters. -/
def variableName (s : Setting) : String := "tab_" ++ s.keyword

end Setting

/-- The settings of a session. mirrors `TabulousSettings` -/
structure Settings where
  enablePrecisions : Bool := false
  enableWiki : Bool := false
  logLevel : Level := .info
  missingBool : Bool := false
  missingFloat : Float := 0.0 / 0.0
  missingInt : Int := -1
  missingString : String := ""
  /-- the file with sizes of units -/
  unitOverrides : Option Path := none
  /-- the field that holds titles -/
  wikiField : String := "en.wiki"

/-- What a reader gets for missing fields. -/
def Settings.missing (s : Settings) : MissingValues where
  bool := .bool s.missingBool
  int := .int s.missingInt
  float := .float s.missingFloat
  string := .text s.missingString

/-- Why there are no settings. -/
inductive SettingsError where
  | invalid (faults : List Setting)
  | file (e : FileError)
  /-- a path starts in a home folder that is not known -/
  | noHome
  | notInitialised
  deriving DecidableEq, Repr

/-- The wording of an error; faults are told by their settings. -/
def SettingsError.message : SettingsError → String
  | .invalid _ => ""
  | .file _ => ""
  | .noHome => "Could not determine home directory."
  | .notInitialised => "Tabulous context not initialized. Call init_context() first."

/-! ## Reading values -/

def trueWords : List String := ["1", "t", "y", "on", "yes", "true"]

def falseWords : List String := ["0", "f", "n", "no", "off", "false"]

/-- Whether a truth value is meant. -/
def readFlag : Value → Option Bool
  | .bool b => some b
  | .int i => if i = 0 then some false else if i = 1 then some true else none
  | .float x => if x == 0.0 then some false else if x == 1.0 then some true else none
  | .text s =>
    if trueWords.contains s.toLower then some true
    else if falseWords.contains s.toLower then some false
    else none
  | _ => none

def readInt : Value → Option Int
  | .bool b => some (if b then 1 else 0)
  | .int i => some i
  | .float x => (Decimal.wholeNumber? x).filter fun i => i.natAbs < Nat.pow 2 63
  | .text s => Decimal.givenInt? s.toList
  | _ => none

def readNumber : Value → Option Float
  | .bool b => some (if b then 1.0 else 0.0)
  | .int i => some (Float.ofInt i) |>.filter Float.isFinite
  | .float x => some x
  | .text s => Decimal.givenFloat? s.toList
  | _ => none

def readText : Value → Option String
  | .text s => some s
  | _ => none

/-- A level by its name in any case; `WARN` is short for `WARNING`.
mirrors `TabulousSettings.validate_log_level` -/
def readLevel : Value → Option Level
  | .text s =>
    let name := Text.inCapitals (Text.trimmed s)
    Level.ofKeyword? (if name = "WARN" then "WARNING" else name)
  | _ => none

/-- A name, without the blanks around it. mirrors `TabulousSettings.not_empty` -/
def readName : Value → Option String
  | .text s => some (Text.trimmed s) |>.filter (· ≠ "")
  | _ => none

/-- A file that exists, or no file. mirrors `TabulousSettings.is_file` -/
def readFile (d : Disk) : Value → Except FileError (Option (Option Path))
  | .null => pure (some none)
  | .text s => do
    if ← d.isFile (.ofText s) then pure (some (some (.ofText s))) else pure none
  | _ => pure none

namespace Settings

/-- Set a setting to a value, if the value can be read. The directory of a project only has to
be a text. -/
def set? (d : Disk) (x : Settings) (s : Setting) (v : Value) : Except FileError (Option Settings) :=
  match s with
  | .enablePrecisions => pure ((readFlag v).map fun b => { x with enablePrecisions := b })
  | .enableWiki => pure ((readFlag v).map fun b => { x with enableWiki := b })
  | .logLevel => pure ((readLevel v).map fun l => { x with logLevel := l })
  | .missingBool => pure ((readFlag v).map fun b => { x with missingBool := b })
  | .missingFloat => pure ((readNumber v).map fun n => { x with missingFloat := n })
  | .missingInt => pure ((readInt v).map fun i => { x with missingInt := i })
  | .missingString => pure ((readText v).map fun t => { x with missingString := t })
  | .projectDir => pure ((readText v).map fun _ => x)
  | .unitOverrides => do pure ((← readFile d v).map fun p => { x with unitOverrides := p })
  | .wikiField => pure ((readName v).map fun t => { x with wikiField := t })

/-- Settings set one after the other, and those that cannot be read. -/
def setAll (d : Disk) (value? : Setting → Option Value) :
    Settings → List Setting → Except FileError (Settings × List Setting)
  | x, [] => pure (x, [])
  | x, s :: rest =>
    match value? s with
    | none => setAll d value? x rest
    | some v => do
      match ← x.set? d s v with
      | some y => setAll d value? y rest
      | none =>
        let (y, faults) ← setAll d value? x rest
        pure (y, s :: faults)

/-- Settings from the values that are given. A file that cannot be looked up is worse than
values that cannot be read. -/
def ofValues (d : Disk) (value? : Setting → Option Value) : Except SettingsError Settings := do
  match ← (setAll d value? {} Setting.all).mapError .file with
  | (x, []) => pure x
  | (_, faults) => .error (.invalid faults)

end Settings

end TypedTables
