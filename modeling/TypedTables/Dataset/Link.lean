import TypedTables.Dataset.Assembly
/-!
# Linking a dataset

From the drafts of a dataset to its store, in stages: order the tables, link the names,
resolve the tables. `link` is one run by itself. A `Linker` runs any number of times: it keeps the
units between runs, and with them the compound units that earlier runs have worked out, and it keeps
the containers of its last run, which the next one empties before it begins.
-/
namespace TypedTables

/-- The state of a run whose names are linked. -/
structure Assembly where
  tables : OrderedMap String Contents := ∅
  info : OrderedMap String TableInfo := ∅
  wiki : OrderedMap String String := ∅

/-! ## Names -/

/-- Define the row names of the tables of entities and of the enumerations. -/
def Names.addTables (n : Names) : List Draft → Except LinkError Names
  | [] => .ok n
  | d :: rest =>
    if d.format.isEnumerated then do
      let n ← n.addTable d
      n.addTables rest
    else n.addTables rest

/-- Add the row names of the mods to their targets. -/
def Names.addMods (n : Names) : List Draft → Logged LinkError Names
  | [] => pure n
  | d :: rest =>
    match d.target? with
    | none => n.addMods rest
    | some target => do
      let (n, added) ← Logged.ofExcept (n.addMod d target)
      if added ≠ 0 then Logged.tell (.rowsAdded d.name added target)
      n.addMods rest

/-- Link the names of ordered tables. -/
def linkNames (tables : List Draft) (predefined : Predefined) : Logged LinkError Names := do
  let n ← Logged.ofExcept (({} : Names).addAllPredefined predefined.toList)
  let n ← Logged.ofExcept (n.addTables tables)
  n.addMods tables

/-! ## Tables -/

namespace Linking

/-- Resolve a table of entities or of rows without names.
mirrors `TablePostprocessor.process_db_table` -/
def addSheet (l : Linking) (a : Assembly) (d : Draft) : Except LinkError (Assembly × Nat) := do
  let sheet ← l.sheet d
  let wiki ←
    if d.isNamed then do
      match ← l.wikiColumn? d with
      | none => pure a.wiki
      | some c => do
        let named ← zipEven d.rowNames c.cells
        l.addTitles d a.wiki named
    else pure a.wiki
  pure ({ a with
    tables := a.tables.insert d.name (.sheet sheet)
    info := a.info.insert d.name ⟨d.format, some d.rowCount, d.entityAffix⟩
    wiki }, sheet.size)

/-- Record the titles of a table of titles. mirrors `TablePostprocessor.process_wiki_lookup` -/
def addWikiLookup (l : Linking) (a : Assembly) (d : Draft) : Except LinkError Assembly := do
  let a := { a with info := a.info.insert d.name ⟨d.format, none, ""⟩ }
  if !l.options.enableWiki then pure a
  else do
    match ← l.wikiColumn? d with
    | none => .error (.wikiFieldMissing d.source l.options.wikiField)
    | some c => do
      let named ← zipEven d.rowNames c.cells
      let wiki ← l.addTitles d a.wiki named
      pure { a with wiki }

/-- Apply a mod to its target. mirrors `TablePostprocessor.process_mod_table` -/
def addMod (l : Linking) (enumerations : OrderedMap String Enumeration) (a : Assembly) (d : Draft)
    (target : String) : Except LinkError Assembly := do
  let e ← orBroken (enumerations.get? target)
  let info ← orBroken (a.info.get? target)
  let grown := { a with
    info := a.info.insert target { info with rowCount := some e.names.length } }
  if info.format = .enumeration then
    if d.columns ≠ [] then .error (.fieldsOnEnumeration d.source target) else pure grown
  else
    match a.tables.get? target with
    | some (.sheet s) => do
      let rowCount ← orBroken info.rowCount
      let (s, wiki) ← l.modify d ⟨target, e, rowCount⟩ s a.wiki
      pure { grown with tables := a.tables.insert target (.sheet s), wiki }
    | _ => .error .broken

/-- Resolve a grid. mirrors `TablePostprocessor.process_enum_x_enum` -/
def addGrid (l : Linking) (enumerations : OrderedMap String Enumeration) (a : Assembly) (d : Draft)
    (g : Grid) : Except LinkError (Assembly × ValueGrid) := do
  let values ← l.grid enumerations d g
  pure ({ a with
    tables := a.tables.insert d.name (.grid values)
    info := a.info.insert d.name ⟨d.format, none, ""⟩ }, values)

/-- Resolve one table. -/
def addTable (l : Linking) (enumerations : OrderedMap String Enumeration) (a : Assembly)
    (d : Draft) : Logged LinkError Assembly :=
  match d.content with
  | .records .entities _ | .records .anonymous _ => do
    let (a, fields) ← Logged.ofExcept (l.addSheet a d)
    Logged.tell (.recordsResolved d.name d.rowCount fields)
    pure a
  | .records (.mod target) _ => do
    let a ← Logged.ofExcept (l.addMod enumerations a d target)
    if (a.tables.contains target) then Logged.tell (.modApplied d.name target)
    pure a
  | .records .wikiLookup _ => do
    let a ← Logged.ofExcept (l.addWikiLookup a d)
    if !l.options.enableWiki then Logged.tell (.wikiIgnored d.name)
    pure a
  | .records .enumeration _ => pure a
  | .grid g => do
    let (a, values) ← Logged.ofExcept (l.addGrid enumerations a d g)
    Logged.tell (.gridResolved d.name values.cells.length
      (((enumerations.get? values.columnAxis).map fun e => e.names.length).getD 0))
    pure a

/-- Resolve tables one after the other. -/
def addTables (l : Linking) (enumerations : OrderedMap String Enumeration) (a : Assembly) :
    List Draft → Logged LinkError Assembly
  | [] => pure a
  | d :: rest => do
    let a ← l.addTable enumerations a d
    l.addTables enumerations a rest

end Linking

/-- The store of a run that has resolved its tables. mirrors `TableStore.build` -/
def Names.store (names : Names) (options : LinkOptions) (count : Nat) (a : Assembly) :
    Logged LinkError Store := do
  Logged.tell (.linked count)
  pure {
    tables := a.tables
    info := a.info
    entities := names.entities
    enumerations := names.enumerations
    wiki := a.wiki
    tracksPrecision := options.enablePrecisions }

/-- Put the tables of a dataset together. -/
def link (units : Units.Converter) (options : LinkOptions) (tables : List Draft)
    (predefined : Predefined) : Logged LinkError Store := do
  let ordered ← Logged.ofExcept (orderTables tables)
  let names ← linkNames ordered predefined
  let l : Linking := ⟨units, options, names.entities⟩
  let a ← l.addTables names.enumerations { info := names.info } ordered
  names.store options ordered.length a

/-! ## Runs one after the other -/

/-- The unit texts of a table. -/
def Draft.unitTexts (d : Draft) : List String :=
  match d.content with
  | .records _ columns => columns.map Column.unit
  | .grid g => [g.unit]

/-- The table that a mod works on, if it has fields. -/
def Assembly.target? (a : Assembly) (enumerations : OrderedMap String Enumeration)
    (target : String) : Option (Target × Sheet) := do
  let e ← enumerations.get? target
  let info ← a.info.get? target
  let rowCount ← info.rowCount
  match a.tables.get? target with
  | some (.sheet s) => if info.format = .enumeration then none else some (⟨target, e, rowCount⟩, s)
  | _ => none

namespace Linking

/-- Work out a unit, as its check does. -/
def learn (l : Linking) (unit : String) : Linking :=
  { l with units := l.units.afterConversion unit }

/-- Work out the units of columns up to the first that cannot be resolved: the unit of a column is
checked before anything else is done with it. -/
def learnColumns {σ : Type} (resolve : Linking → σ → Column → Except LinkError σ) (l : Linking)
    (s : σ) : List Column → Linking
  | [] => l
  | c :: rest =>
    let l := l.learn c.unit
    match resolve l s c with
    | .ok s => learnColumns resolve l s rest
    | .error _ => l

/-- Work out the units that are checked while a table is resolved. -/
def learnTable (l : Linking) (enumerations : OrderedMap String Enumeration) (a : Assembly)
    (d : Draft) : Linking :=
  match d.content with
  | .records .entities columns | .records .anonymous columns =>
    learnColumns (fun l _ c => (fun _ => ()) <$> l.field d c) l () columns
  | .records (.mod target) columns =>
    match a.target? enumerations target with
    | some (t, s) => learnColumns (fun l s c => l.addField d t s c) l s columns
    | none => l
  | .records _ _ => l
  | .grid g => l.learn g.unit

end Linking

/-- The containers that a run works on. -/
structure Containers extends Names, Assembly

namespace Containers

def withNames (c : Containers) (n : Names) : Containers := { c with toNames := n }

def withAssembly (c : Containers) (a : Assembly) : Containers :=
  { c with tables := a.tables, info := a.info, wiki := a.wiki }

end Containers

/-- What a run does, table after table and stage after stage. -/
inductive RunStep where
  /-- define the members of a predefined enumeration -/
  | predefine (owner : String) (members : OrderedMap String Int)
  /-- define the row names of a table -/
  | define (d : Draft)
  /-- add the row names of a mod to its target -/
  | extend (d : Draft)
  /-- resolve a table -/
  | resolve (d : Draft)

/-- The steps of a run on ordered tables. -/
def runSteps (ordered : List Draft) (predefined : Predefined) : List RunStep :=
  predefined.toList.map (fun p => .predefine p.1 p.2) ++ (ordered.map .define ++
    (ordered.map .extend ++ ordered.map .resolve))

/-- Units and options for any number of runs, and what the last run has left behind.
mirrors `TablePostprocessor` -/
structure Linker where
  units : Units.Converter := {}
  options : LinkOptions := {}
  work : Containers := {}

namespace Linker

/-- Empty the containers. mirrors `TablePostprocessor._reset` -/
def reset (l : Linker) : Linker := { l with work := {} }

/-- What tables are resolved with, as far as the names are linked. -/
def linking (l : Linker) : Linking := ⟨l.units, l.options, l.work.entities⟩

/-- The containers after a step. -/
def stepped (l : Linker) : RunStep → Logged LinkError Containers
  | .predefine owner members => do
    let n ← Logged.ofExcept (l.work.toNames.addPredefined owner members)
    pure (l.work.withNames n)
  | .define d => do
    let n ← Logged.ofExcept (l.work.toNames.addTables [d])
    pure (l.work.withNames n)
  | .extend d => do
    let n ← l.work.toNames.addMods [d]
    pure (l.work.withNames n)
  | .resolve d => do
    let a ← l.linking.addTable l.work.enumerations l.work.toAssembly d
    pure (l.work.withAssembly a)

/-- The units after a step, whatever becomes of it. -/
def unitsAfter (l : Linker) : RunStep → Units.Converter
  | .predefine .. => l.units
  | .define _ => l.units
  | .extend _ => l.units
  | .resolve d => (l.linking.learnTable l.work.enumerations l.work.toAssembly d).units

/-- Take a step. One that fails leaves the containers of before it: what it has written by then is
as little read again as the rest of them. -/
def step (l : Linker) (x : RunStep) : Logged LinkError Unit × Linker :=
  let done := l.stepped x
  let learned := { l with units := l.unitsAfter x }
  match done.result with
  | .ok work => (⟨done.notices, .ok ()⟩, { learned with work })
  | .error e => (⟨done.notices, .error e⟩, learned)

/-- Go on from what is done, unless it has failed. -/
def goOn (done : Logged LinkError Unit × Linker)
    (next : Linker → Logged LinkError Unit × Linker) : Logged LinkError Unit × Linker :=
  match done.1.result with
  | .ok () =>
    let after := next done.2
    (done.1 >>= fun _ => after.1, after.2)
  | .error _ => done

/-- Take steps up to the first that fails. -/
def steps (l : Linker) : List RunStep → Logged LinkError Unit × Linker
  | [] => (pure (), l)
  | x :: rest => goOn (l.step x) fun l => l.steps rest

/-- Put the tables of a dataset together, in empty containers. What is learned about units is kept,
and what is in the containers is left behind, also if the run fails.
mirrors `TablePostprocessor.postprocess` -/
def run (l : Linker) (tables : List Draft) (predefined : Predefined) :
    Logged LinkError Store × Linker :=
  let l := l.reset
  match orderTables tables with
  | .error e => (⟨[], .error e⟩, l)
  | .ok ordered =>
    let done := l.steps (runSteps ordered predefined)
    let work := done.2.work
    (done.1 >>= fun _ => work.toNames.store l.options ordered.length work.toAssembly, done.2)

/-- Runs one after the other, each with its own tables and predefined enumerations. -/
def runs (l : Linker) : List (List Draft × Predefined) → List (Logged LinkError Store)
  | [] => []
  | (tables, predefined) :: rest =>
    let done := l.run tables predefined
    done.1 :: done.2.runs rest

end Linker

end TypedTables
