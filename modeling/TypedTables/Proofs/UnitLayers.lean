import Mathlib.Data.List.Forall2
import TypedTables.Proofs.Outcome
import TypedTables.Session
import TypedTables.Yaml.Read
/-!
# Layers of units

The units of a run come in three layers: the built-in ones, those of a file and those of the caller.
They are merged by way of two converters, and a third one reads the texts of the file and remembers
them. What comes of it is a look-up: a symbol has the size that the highest layer gives it, and a
text of the file is worth what the built-in units alone make of it. So the order of the entries of a
file is of no account.

Results:
* `ReadsBuiltin.afterEntry`, `sizesOf_eq_ok_iff`: what was read before makes no difference to an
  entry.
* `Layered.of_sizes`, `Layered.unique`, `Layered.of_perm`: the size of a symbol by layers.
* `converter_layers`: when there are units for a run, and which.
-/
namespace TypedTables

namespace Units

/-- The size that an entry of a file means. A number is itself, unless it is an integer that is too
large, and a text is an expression over the built-in units alone. -/
inductive HasSize : SizeEntry → Quantity → Prop
  | int {i : Int} (finite : (Float.ofInt i).isInf = false) :
    HasSize (.int i) (.real (Float.ofInt i))
  | float {x : Float} : HasSize (.float x) (.real x)
  | text {s : String} {q : Quantity} (value : ({} : Converter).multiplier s = .ok q) :
    HasSize (.text s) q

/-- The sizes that entries mean, by the names of their symbols. -/
def HaveSizes : List (Symbol × SizeEntry) → List (String × Quantity) → Prop :=
  List.Forall₂ fun e size => e.1.name = size.1 ∧ HasSize e.2 size.2

/-- Entries by the names of their symbols. Two symbols can have one name, as an
integer and its digits in quotes have; then the last one counts. -/
def entriesByName (entries : List (Symbol × SizeEntry)) : OrderedMap String SizeEntry :=
  .ofList (entries.map fun e => (e.1.name, e.2))

/-- The size of a symbol, if it has one: what the caller gives, or else what the entry of a file
means, or else the built-in size. -/
inductive Layered (given : List (String × Quantity)) (entries : List (Symbol × SizeEntry))
    (symbol : String) : Option Quantity → Prop
  | given {q : Quantity} (byCaller : (OrderedMap.ofList given).get? symbol = some q) :
    Layered given entries symbol (some q)
  | entry {v : SizeEntry} {q : Quantity} (notGiven : (OrderedMap.ofList given).get? symbol = none)
    (inFile : (entriesByName entries).get? symbol = some v) (size : HasSize v q) :
    Layered given entries symbol (some q)
  | builtin (notGiven : (OrderedMap.ofList given).get? symbol = none)
    (notInFile : (entriesByName entries).get? symbol = none) :
    Layered given entries symbol (builtinSizes.get? symbol)

/-- Whatever it remembers, the converter gives every text the size that the built-in units give
it. -/
def Converter.ReadsBuiltin (c : Converter) : Prop := c.multiplier = ({} : Converter).multiplier

/-! ## Entries -/

theorem HasSize.unique {v : SizeEntry} {q q' : Quantity} (h : HasSize v q) (h' : HasSize v q') :
    q = q' := by
  cases h with
  | int => cases h'; rfl
  | float => cases h'; rfl
  | text value =>
    cases h' with
    | text value' => exact Except.ok.inj (value.symm.trans value')

theorem sizeOfInt_eq_ok_iff {i : Int} {q : Quantity} :
    sizeOfInt i = .ok q ↔ (Float.ofInt i).isInf = false ∧ .real (Float.ofInt i) = q := by
  unfold sizeOfInt
  cases h : (Float.ofInt i).isInf <;> simp [h]

theorem Converter.ReadsBuiltin.afterEntry {base : Converter} (reads : base.ReadsBuiltin)
    (v : SizeEntry) : (base.afterEntry v).ReadsBuiltin := by
  unfold Converter.afterEntry
  split
  · next s => exact (base.multiplier_learn s).trans reads
  · exact reads

theorem sizeOf_eq_ok_iff {base : Converter} (reads : base.ReadsBuiltin) (path : Path)
    (symbol : Symbol) {v : SizeEntry} {q : Quantity} :
    sizeOf path base symbol v = .ok q ↔ HasSize v q := by
  cases v with
  | int i =>
    show (sizeOfInt i).mapError OverridesError.unit = .ok q ↔ _
    rw [mapError_eq_ok, sizeOfInt_eq_ok_iff]
    constructor
    · rintro ⟨finite, rfl⟩
      exact .int finite
    · rintro ⟨finite⟩
      exact ⟨finite, rfl⟩
  | float x =>
    constructor
    · rintro ⟨⟩
      exact .float
    · rintro ⟨⟩
      rfl
  | text s =>
    show (base.multiplier s).mapError OverridesError.unit = .ok q ↔ _
    rw [mapError_eq_ok, reads]
    constructor
    · exact .text
    · rintro ⟨⟩
      assumption
  | other shown =>
    constructor
    · rintro ⟨⟩
    · rintro ⟨⟩

/-- The entries before one make no difference to it. -/
theorem sizesOf_eq_ok_iff {base : Converter} (reads : base.ReadsBuiltin) (path : Path)
    {entries : List (Symbol × SizeEntry)} {sizes : List (String × Quantity)} :
    sizesOf path base entries = .ok sizes ↔ HaveSizes entries sizes := by
  -- The converter is another one at each entry; that it reads as built in carries the induction.
  induction entries generalizing base sizes with
  | nil => simp [sizesOf, HaveSizes, eq_comm]
  | cons e entries ih =>
    obtain ⟨symbol, value⟩ := e
    simp only [sizesOf, bind_eq_ok, sizeOf_eq_ok_iff reads, ih (reads.afterEntry value)]
    constructor
    · rintro ⟨q, size, rest, sizes, all⟩
      cases all
      exact .cons ⟨rfl, size⟩ sizes
    · intro all
      cases all with
      | @cons _ size _ rest first others =>
        obtain ⟨name, q⟩ := size
        obtain ⟨rfl, hq⟩ := first
        exact ⟨q, hq, rest, others, rfl⟩

theorem exists_haveSizes_iff {entries : List (Symbol × SizeEntry)} :
    (∃ sizes, HaveSizes entries sizes) ↔ ∀ e ∈ entries, ∃ q, HasSize e.2 q := by
  constructor
  · rintro ⟨sizes, all⟩ e he
    obtain ⟨size, -, -, hq⟩ := exists_of_forall₂ all he
    exact ⟨size.2, hq⟩
  · intro each
    induction entries with
    | nil => exact ⟨[], .nil⟩
    | cons e entries ih =>
      rw [List.forall_mem_cons] at each
      obtain ⟨q, hq⟩ := each.1
      obtain ⟨sizes, all⟩ := ih each.2
      exact ⟨(e.1.name, q) :: sizes, .cons ⟨rfl, hq⟩ all⟩

theorem rel_or {α β : Type} {R : α → β → Prop} {a a' : Option α} {b b' : Option β}
    (first : Option.Rel R a b) (second : Option.Rel R a' b') :
    Option.Rel R (a.or a') (b.or b') := by
  cases first with
  | some h => exact .some h
  | none => exact second

/-- A symbol that has an entry has the size that the entry means. -/
theorem HaveSizes.get? {entries : List (Symbol × SizeEntry)} {sizes : List (String × Quantity)}
    (h : HaveSizes entries sizes) (symbol : String) :
    Option.Rel HasSize ((entriesByName entries).get? symbol)
      ((OrderedMap.ofList sizes).get? symbol) := by
  unfold entriesByName
  induction h with
  | nil => exact .none
  | @cons e size entries sizes first others ih =>
    obtain ⟨same, hq⟩ := first
    rw [List.map_cons, OrderedMap.get?_ofList_cons, OrderedMap.get?_ofList_cons, ← same]
    refine rel_or ih ?_
    split
    · exact .some hq
    · exact .none

/-! ## Layers -/

/-- What is left of the two converters: three look-ups, one after the other. -/
theorem Layered.of_sizes {entries : List (Symbol × SizeEntry)} {sizes : List (String × Quantity)}
    (h : HaveSizes entries sizes) (given : List (String × Quantity)) (symbol : String) :
    Layered given entries symbol (((OrderedMap.ofList given).get? symbol).or
      (((OrderedMap.ofList sizes).get? symbol).or (builtinSizes.get? symbol))) := by
  cases byCaller : (OrderedMap.ofList given).get? symbol with
  | some q => exact .given byCaller
  | none =>
    have meant := h.get? symbol
    generalize inFile : (entriesByName entries).get? symbol = value at meant
    generalize (OrderedMap.ofList sizes).get? symbol = size at meant ⊢
    cases meant with
    | some size => exact .entry byCaller inFile size
    | none => exact .builtin byCaller inFile

/-- The layers leave no choice. -/
theorem Layered.unique {given : List (String × Quantity)} {entries : List (Symbol × SizeEntry)}
    {symbol : String} {x y : Option Quantity} (hx : Layered given entries symbol x)
    (hy : Layered given entries symbol y) : x = y := by
  cases hx with
  | given byCaller =>
    cases hy with
    | given byCaller' => exact byCaller.symm.trans byCaller'
    | entry notGiven => cases byCaller.symm.trans notGiven
    | builtin notGiven => cases byCaller.symm.trans notGiven
  | entry notGiven inFile size =>
    cases hy with
    | given byCaller => cases notGiven.symm.trans byCaller
    | entry _ inFile' size' =>
      cases inFile.symm.trans inFile'
      rw [size.unique size']
    | builtin _ notInFile => cases inFile.symm.trans notInFile
  | builtin notGiven notInFile =>
    cases hy with
    | given byCaller => cases notGiven.symm.trans byCaller
    | entry _ inFile => cases notInFile.symm.trans inFile
    | builtin => rfl

/-- In whatever order entries with distinct names stand, the layers are the same. -/
theorem Layered.of_perm {given : List (String × Quantity)}
    {entries entries' : List (Symbol × SizeEntry)} {symbol : String} {x : Option Quantity}
    (perm : entries'.Perm entries) (names : (entries.map fun e => e.1.name).Nodup)
    (h : Layered given entries' symbol x) :
    Layered given entries symbol x := by
  have same : (entriesByName entries').get? symbol = (entriesByName entries).get? symbol := by
    refine (OrderedMap.get?_ofList_of_perm (perm.map _).symm ?_ symbol).symm
    rwa [List.map_map]
  cases h with
  | given byCaller => exact .given byCaller
  | entry notGiven inFile size => exact .entry notGiven (same.symm.trans inFile) size
  | builtin notGiven notInFile => exact .builtin notGiven (same.symm.trans notInFile)

/-! ## Files -/

/-- The file at a path can be read, and has these entries. -/
inductive HoldsEntries (yaml : YamlReader) (d : Disk) (path : Path)
    (entries : List (Symbol × SizeEntry)) : Prop
  | intro {text : List Char} {document : Document} (found : d.text path = .ok text)
    (read : yaml text = .ok document) (mapping : document.entries path = .ok entries) :
    HoldsEntries yaml d path entries

variable {yaml : YamlReader} {d : Disk} {path : Path} {entries : List (Symbol × SizeEntry)}

theorem HoldsEntries.readOverrides_iff (h : HoldsEntries yaml d path entries)
    {m : OrderedMap String Quantity} :
    readOverrides yaml d path = .ok m ↔
      ∃ sizes, HaveSizes entries sizes ∧ .ofList sizes = m := by
  obtain ⟨found, read, mapping⟩ := h
  have builtin : Converter.ReadsBuiltin {} := rfl
  simp only [readOverrides, bind_eq_ok, mapError_eq_ok, found, Except.ok.injEq, exists_eq_left',
    read, mapping, sizesOf_eq_ok_iff builtin, pure, Except.pure]

/-- The first of the two converters that the sizes of a file go through. -/
theorem HoldsEntries.readConverter_iff (h : HoldsEntries yaml d path entries) {c : Converter} :
    (readConverter yaml d path).result = .ok c ↔
      ∃ sizes, HaveSizes entries sizes ∧ .withUnits (OrderedMap.ofList sizes).toList [] = c := by
  simp only [readConverter, Logged.result_bind, Logged.result_ofExcept, Logged.result_tell,
    Logged.result_pure, bind_eq_ok, h.readOverrides_iff]
  constructor
  · rintro ⟨_, ⟨sizes, all, rfl⟩, _, -, made⟩
    exact ⟨sizes, all, Except.ok.inj made⟩
  · rintro ⟨sizes, all, rfl⟩
    exact ⟨_, ⟨sizes, all, rfl⟩, (), trivial, rfl⟩

/-! ## Runs -/

/-- A multiplier rests on what is read of the registries, and not on the order in which they were
written. -/
theorem Converter.multiplier_congr {c c' : Converter}
    (sizes : ∀ symbol, c.sizes.get? symbol = c'.sizes.get? symbol)
    (nonlinear : c.nonlinear = c'.nonlinear) (learned : c.learned = c'.learned) :
    c.multiplier = c'.multiplier := by
  have symbols : c.symbols = c'.symbols := by
    unfold symbols
    simp only [sizes, nonlinear]
  funext unit
  simp only [multiplier, evaluate, sizes, learned, symbols]

end Units

open TypedTables.Units

open Yaml (Node Scalar)

namespace Session

/-- The entries that change the built-in units: those of the file that the settings name. Without a
file there are none. -/
inductive Overridden (yaml : YamlReader) (s : Session) (d : Disk) :
    List (Symbol × SizeEntry) → Prop
  | noFile (noPath : s.settings.unitOverrides = none) : Overridden yaml s d []
  | file {path : Path} {entries : List (Symbol × SizeEntry)}
    (named : s.settings.unitOverrides = some path) (holds : HoldsEntries yaml d path entries) :
    Overridden yaml s d entries

variable {yaml : YamlReader} {s : Session} {d : Disk} {entries : List (Symbol × SizeEntry)}

/-- Without a file there are no sizes, and those that come of a file have the built-in ones among
them. Either way the built-in units make up for what the file leaves out. -/
theorem Overridden.overrides (h : s.Overridden yaml d entries) :
    (∀ m, (s.overrides yaml d).result = .ok m → ∃ sizes, HaveSizes entries sizes ∧ ∀ symbol,
      (m.get? symbol).or (builtinSizes.get? symbol) =
        ((OrderedMap.ofList sizes).get? symbol).or (builtinSizes.get? symbol)) ∧
    ∀ sizes, HaveSizes entries sizes → ∃ m, (s.overrides yaml d).result = .ok m := by
  cases h with
  | noFile noPath =>
    have nothing : (s.overrides yaml d).result = .ok ∅ := by
      unfold Session.overrides
      rw [noPath]
      rfl
    refine ⟨fun m hm => ⟨[], .nil, fun symbol => ?_⟩, fun sizes _ => ⟨∅, nothing⟩⟩
    cases nothing.symm.trans hm
    rfl
  | @file path entries named holds =>
    have made : ∀ m, (s.overrides yaml d).result = .ok m ↔
        ∃ c, (readConverter yaml d path).result = .ok c ∧ c.sizes = m := by
      intro m
      simp only [Session.overrides, named, Logged.result_bind, Logged.result_mapError,
        Logged.result_pure, bind_eq_ok, mapError_eq_ok, Except.ok.injEq]
    constructor
    · intro m hm
      obtain ⟨c, hc, rfl⟩ := (made m).1 hm
      obtain ⟨sizes, all, rfl⟩ := holds.readConverter_iff.1 hc
      refine ⟨sizes, all, fun symbol => ?_⟩
      show ((builtinSizes.insertAll (OrderedMap.ofList sizes).toList).get? symbol).or _ = _
      rw [OrderedMap.get?_insertAll, OrderedMap.ofList_toList, Option.or_assoc, Option.or_self]
    · intro sizes all
      exact ⟨_, (made _).2 ⟨_, holds.readConverter_iff.2 ⟨sizes, all, rfl⟩, rfl⟩⟩

theorem converter_eq_ok_iff (yaml : YamlReader) (s : Session) (d : Disk) (changes : UnitChanges)
    {c : Converter} :
    (s.converter yaml d changes).result = .ok c ↔ ∃ m, (s.overrides yaml d).result = .ok m ∧
      .withUnits (m.insertAll changes.sizes).toList changes.nonlinear = c := by
  simp only [converter, Logged.result_bind, Logged.result_pure, bind_eq_ok, Except.ok.injEq]

/-- The converter of a run is a new one, with the sizes of the layers. -/
theorem Overridden.layered (h : s.Overridden yaml d entries) {changes : UnitChanges} {c : Converter}
    (made : (s.converter yaml d changes).result = .ok c) :
    (∀ symbol, Layered changes.sizes entries symbol (c.sizes.get? symbol)) ∧
      c.nonlinear = builtinNonlinear.insertAll changes.nonlinear ∧ c.learned = ∅ := by
  obtain ⟨m, hm, rfl⟩ := (s.converter_eq_ok_iff yaml d changes).1 made
  refine ⟨fun symbol => ?_, rfl, rfl⟩
  obtain ⟨sizes, all, below⟩ := h.overrides.1 m hm
  have size : (builtinSizes.insertAll (m.insertAll changes.sizes).toList).get? symbol =
      ((OrderedMap.ofList changes.sizes).get? symbol).or
        (((OrderedMap.ofList sizes).get? symbol).or (builtinSizes.get? symbol)) := by
    rw [OrderedMap.get?_insertAll, OrderedMap.ofList_toList, OrderedMap.get?_insertAll,
      Option.or_assoc, below]
  show Layered changes.sizes entries symbol
    ((builtinSizes.insertAll (m.insertAll changes.sizes).toList).get? symbol)
  rw [size]
  exact .of_sizes all changes.sizes symbol

/-- There are units for a run if every entry of the file has a size. -/
theorem Overridden.exists_converter_iff (h : s.Overridden yaml d entries) (changes : UnitChanges) :
    (∃ c, (s.converter yaml d changes).result = .ok c) ↔ ∀ e ∈ entries, ∃ q, HasSize e.2 q := by
  rw [← exists_haveSizes_iff]
  simp only [converter_eq_ok_iff]
  constructor
  · rintro ⟨c, m, hm, -⟩
    obtain ⟨sizes, all, -⟩ := h.overrides.1 m hm
    exact ⟨sizes, all⟩
  · rintro ⟨sizes, all⟩
    obtain ⟨m, hm⟩ := h.overrides.2 sizes all
    exact ⟨_, m, hm, rfl⟩

/-- **Layers.** There are units for a run just if every entry of the file has a size, and then a
symbol has the size that the caller gives, or else what the entry of the file means over the
built-in units alone, or else its built-in size. So it is the same in whatever order the entries
stand: whether there are units, and, if the symbols have distinct names, which. -/
theorem converter_layers (overridden : s.Overridden yaml d entries) (changes : UnitChanges) :
    ((∃ c, (s.converter yaml d changes).result = .ok c) ↔ ∀ e ∈ entries, ∃ q, HasSize e.2 q) ∧
    (∀ c, (s.converter yaml d changes).result = .ok c →
      ∀ symbol, Layered changes.sizes entries symbol (c.sizes.get? symbol)) ∧
    ∀ (s' : Session) (d' : Disk) (entries' : List (Symbol × SizeEntry)),
      s'.Overridden yaml d' entries' → entries'.Perm entries →
      ((∃ e, (s.converter yaml d changes).result = .error e) ↔
        ∃ e, (s'.converter yaml d' changes).result = .error e) ∧
      ((entries.map fun e => e.1.name).Nodup → ∀ c c',
        (s.converter yaml d changes).result = .ok c →
        (s'.converter yaml d' changes).result = .ok c' →
        (∀ symbol, c.sizes.get? symbol = c'.sizes.get? symbol) ∧ c.nonlinear = c'.nonlinear ∧
          c.multiplier = c'.multiplier) := by
  refine ⟨overridden.exists_converter_iff changes, fun c made => (overridden.layered made).1,
    fun s' d' entries' overridden' perm => ⟨?_, fun names c c' made made' => ?_⟩⟩
  · rw [exists_error_iff, exists_error_iff, overridden.exists_converter_iff,
      overridden'.exists_converter_iff]
    simp only [perm.mem_iff]
  · obtain ⟨layers, nonlinear, learned⟩ := overridden.layered made
    obtain ⟨layers', nonlinear', learned'⟩ := overridden'.layered made'
    have sizes : ∀ symbol, c.sizes.get? symbol = c'.sizes.get? symbol :=
      fun symbol => (layers symbol).unique ((layers' symbol).of_perm perm names)
    have scales : c.nonlinear = c'.nonlinear := nonlinear.trans nonlinear'.symm
    exact ⟨sizes, scales, Converter.multiplier_congr sizes scales (learned.trans learned'.symm)⟩

/-- Where a file of overrides is. -/
def unitsPath : Path := .ofText "units.yaml"

/-- The disk with that file only. -/
def unitsDisk (text : String) : Disk := fun p =>
  .ok (if p = unitsPath then some (.file text.toUTF8) else none)

/-- A session whose settings name the file. -/
def unitsSession : Session where
  settings := { unitOverrides := some unitsPath }

theorem read_of_tokens {text : List Char} {tokens : List Yaml.Token} {v : Node}
    (noMark : text.head? ≠ some '\ufeff') (allowed : text.all Yaml.isAllowed = true)
    (cut : Yaml.tokens? text = some tokens) (put : Node.ofTokens? tokens = some v)
    (sound : v.fault? = none) : Yaml.read text = .ok v.document := by
  have parsed : Node.ofText? text = some v := by
    simp only [Node.ofText?, if_neg noMark, allowed, if_true, cut, Option.bind_some, put]
  simp only [Yaml.read, parsed, sound]

/-- A kilometre that is longer than the built-in one, and a league of three kilometres. -/
def leagueEntries : List (Symbol × SizeEntry) :=
  [(⟨"km", "'km'"⟩, .float 2500), (⟨"league", "'league'"⟩, .text "3 km")]

/-- A file with these entries, and one with the same entries the other way round. -/
theorem league_overridden :
    unitsSession.Overridden Yaml.read (unitsDisk "km: 2500.0\nleague: 3 km\n") leagueEntries ∧
    unitsSession.Overridden Yaml.read (unitsDisk "league: 3 km\nkm: 2500.0\n")
      leagueEntries.reverse := by
  have scalars : Scalar.ofPlain "km" = .text "km" ∧ Scalar.ofPlain "2500.0" = .float 2500 ∧
      Scalar.ofPlain "league" = .text "league" ∧ Scalar.ofPlain "3 km" = .text "3 km" := by
    decide +kernel
  obtain ⟨km, size, league, leagues⟩ := scalars
  let first : Scalar × Node := (.text "km", .scalar (.float 2500))
  let second : Scalar × Node := (.text "league", .scalar (.text "3 km"))
  -- Tokens and scalars are worked out apart from the rest, which is then a matter of unfolding.
  have kmFirst : Yaml.read "km: 2500.0\nleague: 3 km\n".toList = .ok (.mapping leagueEntries) := by
    have cut : Yaml.tokens? "km: 2500.0\nleague: 3 km\n".toList =
        some [.blockMapping, .key, .plain "km", .value, .plain "2500.0",
          .key, .plain "league", .value, .plain "3 km", .blockEnd] := by decide +kernel
    refine read_of_tokens (v := .mapping [first, second]) (by decide) (by decide) cut ?_ rfl
    simp only [first, second, ← km, ← size, ← league, ← leagues]
    rfl
  have leagueFirst : Yaml.read "league: 3 km\nkm: 2500.0\n".toList =
      .ok (.mapping leagueEntries.reverse) := by
    have cut : Yaml.tokens? "league: 3 km\nkm: 2500.0\n".toList =
        some [.blockMapping, .key, .plain "league", .value, .plain "3 km",
          .key, .plain "km", .value, .plain "2500.0", .blockEnd] := by decide +kernel
    refine read_of_tokens (v := .mapping [second, first]) (by decide) (by decide) cut ?_ rfl
    simp only [first, second, ← km, ← size, ← league, ← leagues]
    rfl
  exact ⟨.file rfl ⟨by decide +kernel, kmFirst, rfl⟩,
    .file rfl ⟨by decide +kernel, leagueFirst, rfl⟩⟩

/-- A league is three built-in kilometres, also in a file with another kilometre, and whichever of
the two comes first. The hour is the caller's, and the second is built in. -/
theorem league_layers :
    unitsSession.Overridden Yaml.read (unitsDisk "km: 2500.0\nleague: 3 km\n") leagueEntries ∧
    ∃ c c', (unitsSession.converter Yaml.read (unitsDisk "km: 2500.0\nleague: 3 km\n")
        { sizes := [("h", .real 60)] }).result = .ok c ∧
      (unitsSession.converter Yaml.read (unitsDisk "league: 3 km\nkm: 2500.0\n")
        { sizes := [("h", .real 60)] }).result = .ok c' ∧
      c.sizes.get? "km" = some (.real 2500) ∧ c.sizes.get? "league" = some (.real 3000) ∧
      c.sizes.get? "h" = some (.real 60) ∧ c.sizes.get? "s" = some (.real 1) ∧
      c'.multiplier = c.multiplier := by
  obtain ⟨kmFirst, leagueFirst⟩ := league_overridden
  obtain ⟨success, layers, ordered⟩ := converter_layers kmFirst { sizes := [("h", .real 60)] }
  obtain ⟨success', -, -⟩ := converter_layers leagueFirst { sizes := [("h", .real 60)] }
  have km : HasSize (.float 2500) (.real 2500) := .float
  have league : HasSize (.text "3 km") (.real 3000) := .text (by decide +kernel)
  have sized : ∀ e ∈ leagueEntries, ∃ q, HasSize e.2 q := by
    simp only [leagueEntries, List.forall_mem_cons]
    exact ⟨⟨_, km⟩, ⟨_, league⟩, by simp⟩
  obtain ⟨c, made⟩ := success.2 sized
  obtain ⟨c', made'⟩ := success'.2 fun e he => sized e (List.mem_reverse.1 he)
  obtain ⟨-, -, same⟩ :=
    (ordered _ _ _ leagueFirst (List.reverse_perm _)).2 (by decide) c c' made made'
  have size := layers c made
  exact ⟨kmFirst, c, c', made, made', (size "km").unique (.entry rfl rfl km),
    (size "league").unique (.entry rfl rfl league), (size "h").unique (.given rfl),
    ((size "s").unique (.builtin rfl rfl)).trans (by decide +kernel), same.symm⟩

end Session

end TypedTables
