import TypedTables.Decimal.Numeral
import TypedTables.Decimal.Shortest
import TypedTables.Table.FieldType
import TypedTables.Table.StringPool
import TypedTables.Text.Split
/-!
# Raw cells

What a table keeps of a cell before the other tables of its dataset are known: a BOOL
as 0 or 1, an INT or a text as the number of a pooled text, a FLOAT as its text. The
cells of an array field are lists of these.

`readCell` reads the text of a cell. It threads the pool of the table, to which the
texts of the cell are added.
-/
namespace TypedTables

open TypedTables.Text (quoted)

/-- A cell that is read but not yet resolved. -/
inductive Raw where
  /-- no text and no default -/
  | empty
  /-- 0 or 1, or the number of a pooled text -/
  | code (i : Int)
  /-- a number that a caller hands in -/
  | number (x : Float)
  /-- the text of a FLOAT -/
  | text (t : String)
  | list (items : List Raw)
  deriving Repr, Inhabited

namespace Raw

mutual

/-- How a message shows a raw cell. -/
def shown : Raw → String
  | .empty => "None"
  | .code i => toString i
  | .number x => Decimal.floatText x
  | .text t => quoted t
  | .list [] => "()"
  | .list [a] => "(" ++ shown a ++ ",)"
  | .list (a :: b :: rest) => "(" ++ shown a ++ shownRest (b :: rest) ++ ")"

/-- The items after the first, each after a comma. -/
def shownRest : List Raw → String
  | [] => ""
  | a :: rest => ", " ++ shown a ++ shownRest rest

end

/-- Whether a cell counts as holding nothing: no cell, the empty text, the number 0 or an
empty list. -/
def isBlank : Raw → Bool
  | .empty => true
  | .code i => i == 0
  | .number x => x == 0.0
  | .text t => t == ""
  | .list items => items.isEmpty

def isEmpty : Raw → Bool
  | .empty => true
  | _ => false

end Raw

/-- Why the text of a cell does not fit its type. -/
inductive CellFault where
  | malformedBool (text : String)
  | malformedFloat (text : String)
  deriving DecidableEq, Repr

def CellFault.message : CellFault → String
  | .malformedBool text => "Malformed bool: " ++ quoted text
  | .malformedFloat text => "Malformed float: " ++ quoted text

/-- Reading that adds to a pool of strings and can fail. -/
abbrev Interning (ε : Type) := StateT StringPool (Except ε)

/-- Add a text to the pool. -/
def internText {ε : Type} (t : String) : Interning ε Raw := fun pool =>
  let (i, pool) := pool.intern t
  .ok (.code i, pool)

/-- A truth value as it is written in a cell, in any case. -/
def truthValue? (t : String) : Option Bool :=
  let t := t.toList.map Char.toLower
  if t = "true".toList ∨ t = "x".toList then some true
  else if t = "false".toList then some false
  else none

/-- Read a scalar. `affix` is put before a text that is not empty.
mirrors `_TableParser.preprocess_scalar` -/
def readScalar (base : BaseType) (affix t : String) : Interning CellFault Raw :=
  match base with
  | .bool =>
    if t = "" then pure .empty
    else match truthValue? t with
    | some b => pure (.code (if b then 1 else 0))
    | none => throw (.malformedBool t)
  | .float =>
    if t = "" then pure .empty
    else match Decimal.normalizeFloat t.toList with
    | some s => pure (.text (String.ofList s))
    | none => throw (.malformedFloat t)
  | .int | .string | .stringName =>
    if t = "" then pure (.code 0) else internText (affix ++ t)

/-- The elements that the text of an array cell lists. -/
def arrayPieces (t : String) : List String :=
  (Text.splitOn ',' t.toList).map fun piece => String.ofList (Text.trim piece)

/-- Read a cell: `default` stands for an empty one, and each element of an array is read
as a scalar. mirrors `_TableParser.preprocess_cell` -/
def readCell (type : FieldType) (affix : String) (default : Raw) (t : String) :
    Interning CellFault Raw :=
  if t = "" then pure default
  else if type.isArray then do
    let items ← (arrayPieces t).mapM (readScalar type.base affix)
    pure (.list items)
  else readScalar type.base affix t

end TypedTables
