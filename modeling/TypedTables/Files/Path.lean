import TypedTables.Text.Split
/-!
# Paths

A path is a root and the names that lead from there to a file or folder. Reading a text
drops empty names and `.`, so different texts can stand for one path; `..` stays, since what
it leads to depends on the folders that exist.

Results:
* `stem_append_suffix`: the last name is cut without loss.
-/
namespace TypedTables

/-- Where a file or folder is. -/
structure Path where
  /-- the slashes that an absolute path starts with -/
  root : String := ""
  names : List String
  deriving DecidableEq, Repr

namespace Path

/-- A name that leads somewhere. -/
def isStep (name : List Char) : Bool := name ≠ [] && name ≠ ['.']

/-- The leading slashes as they are kept: exactly two stay two, any other number is one. -/
def rootOf : List Char → String
  | '/' :: '/' :: '/' :: _ => "/"
  | '/' :: '/' :: _ => "//"
  | '/' :: _ => "/"
  | _ => ""

/-- Read a path. -/
def ofText (s : String) : Path where
  root := rootOf s.toList
  names := ((Text.splitOn '/' s.toList).filter isStep).map String.ofList

/-- The text of a path; the path without root and names is `.`. -/
def text (p : Path) : String :=
  if p.root = "" ∧ p.names = [] then "." else p.root ++ "/".intercalate p.names

/-- The last name. -/
def name (p : Path) : String := p.names.getLast?.getD ""

/-- What a name ends with from its last dot on, if that dot is neither its first nor its last
character; and what stands before it. -/
def cutSuffix (name : List Char) : List Char × List Char :=
  let after := name.reverse.takeWhile (· ≠ '.')
  let before := name.reverse.dropWhile (· ≠ '.')
  match before with
  | '.' :: stem =>
    if stem = [] ∨ after = [] then (name, []) else (stem.reverse, '.' :: after.reverse)
  | _ => (name, [])

/-- The last name without its suffix. -/
def stem (p : Path) : String := String.ofList (cutSuffix p.name.toList).1

/-- The suffix of the last name, with its dot. -/
def suffix (p : Path) : String := String.ofList (cutSuffix p.name.toList).2

/-- The entry of a folder. -/
def child (p : Path) (name : String) : Path := { p with names := p.names ++ [name] }

theorem append_cutSuffix (s : List Char) : (cutSuffix s).1 ++ (cutSuffix s).2 = s := by
  unfold cutSuffix
  have h : s.reverse.takeWhile (· ≠ '.') ++ s.reverse.dropWhile (· ≠ '.') = s.reverse :=
    List.takeWhile_append_dropWhile
  generalize s.reverse.takeWhile (· ≠ '.') = after at h ⊢
  generalize s.reverse.dropWhile (· ≠ '.') = before at h ⊢
  simp only
  split
  · next stem =>
    split
    · simp
    · have := congrArg List.reverse h
      simpa using this
  · simp

/-- The last name is its stem and its suffix. -/
theorem stem_append_suffix (p : Path) : p.stem ++ p.suffix = p.name := by
  rw [stem, suffix, ← String.ofList_append, append_cutSuffix, String.ofList_toList]

end Path

end TypedTables
