import TypedTables.Yaml.Scalar
/-!
# Values of YAML files

A value is a scalar, a list or a mapping. Two keys of a mapping are one if they are equal
numbers or equal otherwise: the first one gives the key its form, and the last one its value.
-/
namespace TypedTables.Yaml

/-- A value of a document. No two entries of a mapping have the same key. -/
inductive Node where
  | scalar (s : Scalar)
  | list (items : List Node)
  | mapping (entries : List (Scalar × Node))
  deriving Repr, Inhabited

namespace Node

/-! ## Texts of nodes -/

mutual

/-- A value as a message shows it. -/
def shown : Node → String
  | .scalar s => s.shown
  | .list items => "[" ++ ", ".intercalate (shownItems items) ++ "]"
  | .mapping entries => "\x7b" ++ ", ".intercalate (shownEntries entries) ++ "\x7d"

def shownItems : List Node → List String
  | [] => []
  | n :: rest => shown n :: shownItems rest

def shownEntries : List (Scalar × Node) → List String
  | [] => []
  | (k, n) :: rest => (k.shown ++ ": " ++ shown n) :: shownEntries rest

end

/-- Whether a value says something. -/
def isTruthy : Node → Bool
  | .scalar s => s.isTruthy
  | .list items => !items.isEmpty
  | .mapping entries => !entries.isEmpty

/-! ## Mappings -/

/-- Write an entry: a key that is there keeps its place and its first form. -/
def putEntry (key : Scalar) (n : Node) : List (Scalar × Node) → List (Scalar × Node)
  | [] => [(key, n)]
  | (k, n') :: rest =>
    if k.key = key.key then (k, n) :: rest else (k, n') :: putEntry key n rest

/-- A mapping whose entries are given one after the other. -/
def ofEntries (entries : List (Scalar × Node)) : Node :=
  .mapping (entries.foldl (fun m e => putEntry e.1 e.2 m) [])

/-! ## Faults -/

mutual

/-- The scalars of a value, keys among them. -/
def scalars : Node → List Scalar
  | .scalar s => [s]
  | .list items => scalarsOfItems items
  | .mapping entries => scalarsOfEntries entries

def scalarsOfItems : List Node → List Scalar
  | [] => []
  | n :: rest => scalars n ++ scalarsOfItems rest

def scalarsOfEntries : List (Scalar × Node) → List Scalar
  | [] => []
  | (k, n) :: rest => k :: scalars n ++ scalarsOfEntries rest

end

/-- What is wrong with the first faulty scalar. -/
def fault? (n : Node) : Option String := n.scalars.findSome? Scalar.fault?

end Node

end TypedTables.Yaml
