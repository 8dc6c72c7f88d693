import TypedTables.CommandLine.Run
/-!
# The program

Looks at the files that a command line needs, runs it on what is there, and prints.
-/
namespace TypedTables.CommandLine

/-- What a path leads to. -/
def lookAt (p : Path) : IO (Except FileError (Option FileNode)) := do
  try
    pure (.ok (some (.file (← IO.FS.readBinFile p.text))))
  catch
    | .invalidArgument .. => pure (.error (.tooLong p))
    | _ =>
      try
        let entries ← (← IO.FS.realPath p.text).readDir
        pure (.ok (some (.folder (entries.toList.map fun e => e.fileName))))
      catch _ => pure (.ok none)

/-- Look at paths and at the table files in those that are folders. -/
def snapshot (paths : List Path) : IO Disk := do
  let mut seen : OrderedMap Path (Except FileError (Option FileNode)) := ∅
  for p in paths do
    let found ← lookAt p
    seen := seen.insert p found
    if let .ok (some (.folder names)) := found then
      for q in p.tableEntries names do
        seen := seen.insert q (← lookAt q)
  pure fun p => (seen.get? p).getD (.ok none)

/-- The environment variables that a command line uses. -/
def environment : IO (OrderedMap String String) := do
  let ofSettings := Setting.all.flatMap fun s => [s.variableName, s.variableName.toUpper]
  let mut found : OrderedMap String String := ∅
  for name in "HOME" :: ofSettings do
    if let some value ← IO.getEnv name then found := found.insert name value
  pure found

/-- The files that a command line needs. -/
def filesFor (environment : OrderedMap String String) (words : List String) : IO Disk := do
  match Invocation.read? words with
  | none => pure Disk.empty
  | some i =>
    let settingsFiles := i.settingsFiles environment
    let before ← snapshot settingsFiles
    snapshot (settingsFiles ++ (i.overridesFile? before environment).toList ++ i.tablePaths)

end TypedTables.CommandLine

/-- Run a command line. -/
def main (words : List String) : IO UInt32 := do
  let environment ← TypedTables.CommandLine.environment
  let disk ← TypedTables.CommandLine.filesFor environment words
  let outcome := TypedTables.CommandLine.run disk environment words
  IO.print (TypedTables.CommandLine.unlines outcome.printed)
  IO.eprint (TypedTables.CommandLine.unlines (outcome.log.map TypedTables.CommandLine.logLine))
  match outcome.ending with
  | .code n => pure n
  | .usage => do
    IO.eprintln "usage: [-v] [--env-file FILE] load PATHS... | convert VALUE UNIT | check-unit UNIT"
    pure 2
  | .failed e => do
    IO.eprintln ("failed: " ++ e.message)
    pure 1
