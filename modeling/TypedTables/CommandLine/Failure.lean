import TypedTables.Session
import TypedTables.Settings.Load
/-!
# Failures of commands

An error that the user's tables or units are to blame for is reported as a message. Any other
one, such as a file that is no text or a division by zero inside a unit, ends the program
without a message of its own.
-/
namespace TypedTables

def ResolveError.isReported : ResolveError → Bool
  | .badFlag .. => true
  | .unknownEntity .. => true
  | .unitFault e => e.isUnresolved
  | .notANumber _ => false
  | .noSuchText => false
  | .notATextNumber => false
  | .notANumberText => false
  | .notAList => false

def LinkError.isReported : LinkError → Bool
  | .unitFault e => e.isUnresolved
  | .cell e => e.isReported
  | .broken => false
  | _ => true

def TableFileError.isReported : TableFileError → Bool
  | .unsupported _ => true
  | .source _ => true
  | .file (.missing _) => true
  | .file (.isFolder _) => false
  | .file (.notText _) => false
  | .file (.tooLong _) => false

def Units.OverridesError.isReported : Units.OverridesError → Bool
  | .file _ => false
  | .yaml _ => false
  | .notMapping _ => true
  | .notSize .. => true
  | .unit e => e.isUnresolved

def SessionError.isReported : SessionError → Bool
  | .noTables => false
  | .overrides e => e.isReported
  | .tableFile e => e.isReported
  | .link e => e.isReported

namespace CommandLine

/-- Why a command fails. -/
inductive CommandError where
  | settings (e : SettingsError)
  | session (e : SessionError)
  | unit (e : Units.UnitError)
  | lookup (e : LookupError)
  deriving Repr

def CommandError.message : CommandError → String
  | .settings e => e.message
  | .session e => e.message
  | .unit e => e.message
  | .lookup e => e.message

end CommandLine

end TypedTables
