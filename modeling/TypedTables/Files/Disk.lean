import TypedTables.Files.Path
/-!
# Files and folders

A disk tells what each path leads to at one moment. Programs read disks and write none, so a
disk is a function, and a change of files between two steps is another disk. A path can be too
long to be looked up, which is not the same as a path that leads nowhere.

Texts are UTF-8. A byte order mark is no part of the text, and every way to end a line is
read as a line feed.
-/
namespace TypedTables

/-- What a path leads to. -/
inductive FileNode where
  | file (bytes : ByteArray)
  | folder (names : List String)

/-- Why a file cannot be read as text. -/
inductive FileError where
  | missing (path : Path)
  | isFolder (path : Path)
  | notText (path : Path)
  /-- the path, or a name in it, is longer than a file system allows -/
  | tooLong (path : Path)
  deriving DecidableEq, Repr

/-- What is where. -/
abbrev Disk := Path → Except FileError (Option FileNode)

namespace Disk

/-- The disk without files. -/
def empty : Disk := fun _ => .ok none

/-- Whether a path leads anywhere. -/
def leads (d : Disk) (p : Path) : Except FileError Bool := (d p).map Option.isSome

def isFile (d : Disk) (p : Path) : Except FileError Bool := do
  match ← d p with
  | some (.file _) => pure true
  | _ => pure false

/-- The names in a folder. -/
def folder? (d : Disk) (p : Path) : Except FileError (Option (List String)) := do
  match ← d p with
  | some (.folder names) => pure (some names)
  | _ => pure none

def bytes (d : Disk) (p : Path) : Except FileError ByteArray := do
  match ← d p with
  | some (.file bytes) => pure bytes
  | some (.folder _) => .error (.isFolder p)
  | none => .error (.missing p)

/-- The text in a file, with line feeds as line ends. -/
def text (d : Disk) (p : Path) : Except FileError (List Char) := do
  match String.fromUTF8? (← d.bytes p) with
  | some s => pure (Text.unifyNewlines s.toList)
  | none => .error (.notText p)

/-- The bytes of a byte order mark. -/
def byteOrderMark : List UInt8 := [0xEF, 0xBB, 0xBF]

/-- Drop a byte order mark. A file that ends inside the mark holds no text. -/
def dropMark (bytes : ByteArray) : ByteArray :=
  if bytes.size < 3 then
    if bytes.toList.isPrefixOf byteOrderMark then .empty else bytes
  else if (bytes.extract 0 3).toList = byteOrderMark then bytes.extract 3 bytes.size
  else bytes

/-- The text in a file without its byte order mark. -/
def textAfterMark (d : Disk) (p : Path) : Except FileError (List Char) := do
  match String.fromUTF8? (dropMark (← d.bytes p)) with
  | some s => pure (Text.unifyNewlines s.toList)
  | none => .error (.notText p)

end Disk

end TypedTables
