import TypedTables.Dataset.Error
import TypedTables.Dataset.Store
import TypedTables.Table.Draft
/-!
# Entities

The names of a dataset are linked before any cell is resolved: first the predefined
enumerations, then the row names of every table of entities and every enumeration, then
the names that mods add. A name has one owner in the whole dataset.
-/
namespace TypedTables

/-- Enumerations that are defined outside the tables: the members of each with their
indexes. -/
abbrev Predefined := OrderedMap String (OrderedMap String Int)

/-- What is known of the names of a dataset. -/
structure Names where
  entities : OrderedMap String Entity := ∅
  enumerations : OrderedMap String Enumeration := ∅
  info : OrderedMap String TableInfo := ∅

/-- The draft's format is one whose row names are entities. -/
def TableFormat.isEnumerated : TableFormat → Bool
  | .entities => true
  | .enumeration => true
  | _ => false

namespace Names

/-- Define an entity. mirrors `TablePostprocessor.add_entity` -/
def addEntity (n : Names) (name owner : String) (row : Nat) : Except LinkError Names :=
  match n.entities.get? name with
  | some first => .error (.secondEntity name owner first.owner)
  | none => .ok { n with entities := n.entities.insert name ⟨owner, row⟩ }

/-- Define entities of one owner, one after the other. -/
def addEntities (n : Names) (owner : String) : List (String × Nat) → Except LinkError Names
  | [] => .ok n
  | (name, row) :: rest => do
    let n ← n.addEntity name owner row
    n.addEntities owner rest

/-! ## Predefined enumerations -/

/-- Define the members of a predefined enumeration. -/
def addMembers (n : Names) (owner : String) : List (String × Int) → Except LinkError Names
  | [] => .ok n
  | (name, index) :: rest => do
    if index < 0 then .error (.negativeIndex owner name)
    let n ← n.addEntity name owner index.toNat
    n.addMembers owner rest

/-- The name at each index up to the greatest; the empty text where there is none, and the
last of the names that share an index. -/
def namesByIndex (members : List (String × Nat)) : List String :=
  let size := members.foldl (fun n p => max n (p.2 + 1)) 0
  members.foldl (fun names p => names.set p.2 p.1) (List.replicate size "")

/-- mirrors `TablePostprocessor.register_predefined` -/
def addPredefined (n : Names) (owner : String) (members : OrderedMap String Int) :
    Except LinkError Names := do
  let n ← n.addMembers owner members.toList
  let rows := members.mapValues fun _ index => index.toNat
  pure { n with
    enumerations := n.enumerations.insert owner ⟨rows, namesByIndex rows.toList⟩ }

def addAllPredefined (n : Names) : List (String × OrderedMap String Int) → Except LinkError Names
  | [] => .ok n
  | (owner, members) :: rest => do
    let n ← n.addPredefined owner members
    n.addAllPredefined rest

/-! ## Tables -/

/-- Define the row names of a table of entities or an enumeration.
mirrors `TablePostprocessor.create_enumeration` -/
def addTable (n : Names) (d : Draft) : Except LinkError Names := do
  if n.enumerations.contains d.name then .error (.secondEnumeration d.name)
  let n := { n with info := n.info.insert d.name ⟨d.format, some d.rowCount, d.entityAffix⟩ }
  if !d.isNamed then pure n
  else do
    let members := d.rowNames.zipIdx
    let n ← n.addEntities d.name members
    pure { n with
      enumerations := n.enumerations.insert d.name ⟨.ofList members, d.rowNames⟩ }

/-- Add names to an owner, except for those that it has. -/
def extend (n : Names) (owner : String) (e : Enumeration) :
    List String → Except LinkError (Names × Enumeration)
  | [] => .ok (n, e)
  | name :: rest =>
    if e.rows.contains name then n.extend owner e rest
    else do
      let row := e.names.length
      let n ← n.addEntity name owner row
      n.extend owner ⟨e.rows.insert name row, e.names ++ [name]⟩ rest

/-- Add the row names of a mod to its target; answers how many are new.
mirrors `TablePostprocessor.extend_enumeration` -/
def addMod (n : Names) (d : Draft) (target : String) : Except LinkError (Names × Nat) := do
  if !((n.info.get? target).any fun i => i.format.isEnumerated) then
    .error (.targetNotEnumerated d.source d.name target)
  match n.enumerations.get? target with
  | none => .error (.targetUnnamed d.source d.name target)
  | some e => do
    let (n, e') ← n.extend target e d.rowNames
    pure ({ n with enumerations := n.enumerations.insert target e' },
      e'.names.length - e.names.length)

end Names

/-! ## Order -/

def Draft.isMod (d : Draft) : Bool := d.format == .entitiesMod

/-- Refuse two tables of one name. -/
def checkTableNames (seen : List String) : List Draft → Except LinkError Unit
  | [] => .ok ()
  | d :: rest =>
    if d.name ∈ seen then .error (.secondTable d.name)
    else checkTableNames (d.name :: seen) rest

/-- The tables with the mods last; two tables that are no mods have different names.
mirrors `TablePostprocessor.order_tables` -/
def orderTables (tables : List Draft) : Except LinkError (List Draft) := do
  let base := tables.filter (!·.isMod)
  checkTableNames [] base
  pure (base ++ tables.filter Draft.isMod)

end TypedTables
