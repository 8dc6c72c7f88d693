import TypedTables.Files.Disk
import TypedTables.OrderedMap
/-!
# File trees

Files and folders below one folder, kept in memory. Relative paths lead into the tree, and `..`
leads back to the folder that a folder is in. Nothing is known of what is outside but that it is
a folder. A folder stays when its last entry is deleted.
-/
namespace TypedTables

/-- The names that lead from the top of a tree to one of its files or folders. -/
abbrev Place := List String

/-- The files and folders below a folder. -/
structure FileTree where
  files : OrderedMap Place ByteArray := ∅
  /-- the folders, without the top of the tree -/
  folders : List Place := []

namespace FileTree

def isFolder (t : FileTree) (p : Place) : Bool := p = [] || t.folders.contains p

def exists? (t : FileTree) (p : Place) : Bool := t.isFolder p || t.files.contains p

/-! ## Looking up -/

/-- Where a look-up is. -/
inductive Spot where
  | inside (place : Place)
  | outside
  deriving DecidableEq, Repr

/-- Whether names can be looked up at a spot. -/
def Spot.isFolder (t : FileTree) : Spot → Bool
  | .inside p => t.isFolder p
  | .outside => true

/-- What a name leads to from a folder. -/
def Spot.step? (t : FileTree) (name : String) : Spot → Option Spot
  | .inside p =>
    if name = ".." then some (if p = [] then .outside else .inside p.dropLast)
    else if t.exists? (p ++ [name]) then some (.inside (p ++ [name]))
    else none
  | .outside => if name = ".." then some .outside else none

/-- The number of bytes that a name can have. -/
def maxNameSize : Nat := 255

/-- The number of bytes that a path can have. -/
def maxPathSize : Nat := 4095

/-- Follow the names of a path from a spot. A name is looked up in a folder only, so that one
which is too long does not matter elsewhere. -/
def follow (t : FileTree) (p : Path) : Spot → List String → Except FileError (Option Spot)
  | here, [] => .ok (some here)
  | here, name :: names =>
    if !here.isFolder t then .ok none
    else if maxNameSize < name.utf8ByteSize then .error (.tooLong p)
    else
      match here.step? t name with
      | none => .ok none
      | some next => t.follow p next names

/-- What a path leads to. A path with a null character leads nowhere, however long it is. -/
def lookUp (t : FileTree) (p : Path) : Except FileError (Option Spot) :=
  if p.text.contains '\x00' then .ok none
  else if maxPathSize < p.text.utf8ByteSize then .error (.tooLong p)
  else t.follow p (if p.root = "" then .inside [] else .outside) p.names

/-- The names in a folder. -/
def names (t : FileTree) (p : Place) : List String :=
  ((t.folders ++ t.files.keys).filter fun q => q ≠ [] && q.dropLast = p).filterMap List.getLast?

/-- What is at a spot. -/
def node? (t : FileTree) : Spot → Option FileNode
  | .outside => some (.folder [])
  | .inside p =>
    match t.files.get? p with
    | some bytes => some (.file bytes)
    | none => if t.isFolder p then some (.folder (t.names p)) else none

/-- The tree as a disk. -/
def disk (t : FileTree) : Disk := fun p => (t.lookUp p).map fun spot => spot.bind t.node?

/-! ## Changes -/

/-- Go from a folder to another one, which is made if it is missing. -/
def enter (here : FileTree × Place) (name : String) : FileTree × Place :=
  let (t, p) := here
  if name = ".." then (t, p.dropLast)
  else
    let next := p ++ [name]
    (if t.isFolder next then t else { t with folders := t.folders ++ [next] }, next)

/-- Write a file; missing folders are made. -/
def write (t : FileTree) (p : Path) (bytes : ByteArray) : FileTree :=
  let (t, folder) := p.names.dropLast.foldl enter (t, [])
  { t with files := t.files.insert (folder ++ [p.name]) bytes }

/-- Delete what is at a place and below it. -/
def deleteAt (t : FileTree) (p : Place) : FileTree where
  files := .ofList (t.files.toList.filter fun f => !p.isPrefixOf f.1)
  folders := t.folders.filter fun q => !p.isPrefixOf q

/-- Delete a file, or a folder with all that is in it. -/
def delete (t : FileTree) (p : Path) : FileTree :=
  match t.lookUp p with
  | .ok (some (.inside place)) => t.deleteAt place
  | _ => t

end FileTree

end TypedTables
