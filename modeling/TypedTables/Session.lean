import TypedTables.Dataset.Link
import TypedTables.Settings.Basic
import TypedTables.Table.File
import TypedTables.Units.Overrides
/-!
# Sessions

A session works on one dataset: it reads table files, links them and answers queries. It
holds the store of its last run if that run succeeded and nothing was cleared since; a run
discards the store of the one before, whatever becomes of it. The first query makes a reader of
the store, and later ones use the same until the store is discarded.

Files of overrides are read by a `YamlReader`, which is a parameter of all that makes units.

Results:
* `run_store`: after a run, a session holds the store of that run or none.
-/
namespace TypedTables

/-- Why a session cannot do something. -/
inductive SessionError where
  /-- there is no store to query -/
  | noTables
  | overrides (e : Units.OverridesError)
  | tableFile (e : TableFileError)
  | link (e : LinkError)
  deriving Repr

def SessionError.message : SessionError → String
  | .noTables => "No tables postprocessed"
  | .overrides e => e.message
  | .tableFile e => e.message
  | .link e => e.message

/-- What a caller adds to the units. -/
structure UnitChanges where
  sizes : List (String × Units.Quantity) := []
  nonlinear : List (String × Units.Nonlinear) := []

/-- What a caller asks of a run. Options that are not given are those of the settings. -/
structure Run where
  paths : List Path
  enableWiki : Option Bool := none
  enablePrecisions : Option Bool := none
  predefined : Predefined := ∅
  units : UnitChanges := {}

/-- Settings, the store of the last run and the reader that the first query made of it.
mirrors `TableContext` -/
structure Session where
  settings : Settings := {}
  store : Option Store := none
  reader : Option Access := none

namespace Session

/-- Discard the store and its reader. mirrors `TableContext.clear` -/
def clear (s : Session) : Session := { s with store := none, reader := none }

/-- The reader that answers queries: the one that is kept, or else a new one of the store.
mirrors `TableContext.access` -/
def access (s : Session) : Except SessionError Access :=
  match s.store with
  | some store => .ok (s.reader.getD { store, missing := s.settings.missing })
  | none => .error .noTables

/-- Answer a query, and keep the reader. -/
def ask {α : Type} (s : Session) (q : Access → α) : Except SessionError α × Session :=
  match s.access with
  | .ok reader => (.ok (q reader), { s with reader := some reader })
  | .error e => (.error e, s)

/-- The sizes with the file that the settings name: those of all units, the built-in ones among
them. Without a file there are none. -/
def overrides (yaml : Units.YamlReader) (s : Session) (d : Disk) :
    Logged SessionError (OrderedMap String Units.Quantity) :=
  match s.settings.unitOverrides with
  | none => pure ∅
  | some path => do
    let units ← (Units.readConverter yaml d path).mapError .overrides
    pure units.sizes

/-- The units of a run: the built-in ones, changed by the file that the settings name and then
by the caller. mirrors `TableContext.create_unit_converter` -/
def converter (yaml : Units.YamlReader) (s : Session) (d : Disk) (changes : UnitChanges) :
    Logged SessionError Units.Converter := do
  let sizes ← s.overrides yaml d
  pure (.withUnits (sizes.insertAll changes.sizes).toList changes.nonlinear)

/-- The drafts of table files. mirrors `TableContext.read_tables` -/
def readTables (d : Disk) (paths : List Path) : Logged SessionError (List Draft) :=
  (Draft.ofPaths d paths).mapError .tableFile

/-- The options of a run. -/
def linkOptions (s : Session) (r : Run) : LinkOptions where
  enableWiki := r.enableWiki.getD s.settings.enableWiki
  enablePrecisions := r.enablePrecisions.getD s.settings.enablePrecisions
  wikiField := s.settings.wikiField

/-- Read and link the tables of a run. -/
def link (yaml : Units.YamlReader) (s : Session) (d : Disk) (r : Run) :
    Logged SessionError Store := do
  let units ← s.converter yaml d r.units
  let drafts ← readTables d r.paths
  Logged.tell (.filesRead drafts.length)
  let linker : Linker := { units, options := s.linkOptions r }
  (linker.run drafts r.predefined).1.mapError .link

/-- Run: the store is discarded, and then the session holds the new one, or none if there is an
error. mirrors `TableContext.postprocess` -/
def run (yaml : Units.YamlReader) (s : Session) (d : Disk) (r : Run) :
    Logged SessionError Store × Session :=
  let s := s.clear
  let linked := s.link yaml d r
  (linked, { s with store := linked.result.toOption })

theorem run_store (yaml : Units.YamlReader) (s : Session) (d : Disk) (r : Run) :
    (s.run yaml d r).2.store = (s.run yaml d r).1.result.toOption := rfl

end Session

end TypedTables
