import TypedTables.Files.Disk
import TypedTables.Log
import TypedTables.Units.Converter
/-!
# Unit overrides

A YAML file can give sizes to units: a mapping whose values are numbers, or texts that are
unit expressions over the built-in units. One converter with the built-in units reads all the texts
of a file; it remembers them, but is never told a size.

What a file says is up to a library for YAML. It is a parameter here, a `YamlReader`, and of what it
gives no more is kept than what is asked of it.
-/
namespace TypedTables.Units

/-! ## Documents -/

/-- The key of an entry, which need not be a text: as a name, and as a message shows it. -/
structure Symbol where
  name : String
  shown : String
  deriving DecidableEq, Repr

/-- The value of an entry: an integer or a number, but no truth value; a text; or anything else, as
a message shows it. -/
inductive SizeEntry where
  | int (i : Int)
  | float (x : Float)
  | text (s : String)
  | other (shown : String)
  deriving DecidableEq, Repr

/-- What a file says. -/
inductive Document where
  | mapping (entries : List (Symbol × SizeEntry))
  /-- a value of another kind, and whether it says something -/
  | other (isTruthy : Bool)
  deriving DecidableEq, Repr

/-- Why a text cannot be read. -/
inductive YamlFault where
  | malformed
  /-- a scalar of the text has no value -/
  | noValue (why : String)
  deriving DecidableEq, Repr

/-- A reader of YAML, of which nothing is known. -/
abbrev YamlReader := List Char → Except YamlFault Document

/-! ## Errors -/

/-- Why a file of overrides cannot be used. -/
inductive OverridesError where
  | file (e : FileError)
  | yaml (e : YamlFault)
  | notMapping (path : Path)
  | notSize (path : Path) (symbol : Symbol) (value : String)
  | unit (e : UnitError)
  deriving DecidableEq, Repr

/-- The wording of an error; files and documents that cannot be read have none. -/
def OverridesError.message : OverridesError → String
  | .file _ => ""
  | .yaml .malformed => ""
  | .yaml (.noValue why) => why
  | .notMapping path => "Unit overrides file " ++ path.text ++ " must contain a mapping"
  | .notSize path symbol value =>
    "Invalid multiplier for unit " ++ symbol.shown ++ " in " ++ path.text ++ ": " ++ value
  | .unit e => e.message

/-! ## Sizes -/

/-- An integer as a number, unless it is too large. -/
def sizeOfInt (i : Int) : Except UnitError Quantity :=
  let x := Float.ofInt i
  if x.isInf then .error (.arithmetic .overflow) else .ok (.real x)

/-- The size that an entry gives to a unit. A text is read by the converter. -/
def sizeOf (path : Path) (base : Converter) (symbol : Symbol) :
    SizeEntry → Except OverridesError Quantity
  | .int i => (sizeOfInt i).mapError .unit
  | .float x => .ok (.real x)
  | .text s => (base.multiplier s).mapError .unit
  | .other shown => .error (.notSize path symbol shown)

/-- The converter after it has read an entry. -/
def Converter.afterEntry (base : Converter) : SizeEntry → Converter
  | .text s => base.learn s
  | _ => base

/-- The sizes that entries give, in order. -/
def sizesOf (path : Path) : Converter → List (Symbol × SizeEntry) →
    Except OverridesError (List (String × Quantity))
  | _, [] => .ok []
  | base, (symbol, entry) :: rest => do
    let size ← sizeOf path base symbol entry
    let sizes ← sizesOf path (base.afterEntry entry) rest
    pure ((symbol.name, size) :: sizes)

/-- The entries of a document. One that says nothing has none. -/
def Document.entries (path : Path) :
    Document → Except OverridesError (List (Symbol × SizeEntry))
  | .mapping entries => .ok entries
  | .other true => .error (.notMapping path)
  | .other false => .ok []

/-! ## Files -/

/-- Read a file of overrides. -/
def readOverrides (yaml : YamlReader) (d : Disk) (path : Path) :
    Except OverridesError (OrderedMap String Quantity) := do
  let text ← (d.text path).mapError .file
  let document ← (yaml text).mapError .yaml
  let entries ← document.entries path
  let sizes ← sizesOf path {} entries
  pure (.ofList sizes)

/-- The built-in units as a file of overrides changes them, with a report on the file.
mirrors `UnitConverter.from_yaml` -/
def readConverter (yaml : YamlReader) (d : Disk) (path : Path) :
    Logged OverridesError Converter := do
  let sizes ← Logged.ofExcept (readOverrides yaml d path)
  Logged.tell (.overridesLoaded sizes.size path.text)
  pure (.withUnits sizes.toList [])

end TypedTables.Units
