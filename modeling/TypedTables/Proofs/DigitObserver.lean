import TypedTables.Proofs.Agreement
import TypedTables.Proofs.DigitSteps
import TypedTables.Proofs.Linkable
import TypedTables.Proofs.RecordedDigits
/-!
# Recording digits

Whether significant digits are recorded is nobody's business but the reader's: the store is the same
in all else. What can differ is whether there is a store, since the digits of a number in another
script are not counted.

Results:
* `addTable_observes`: a table, with and without digits.
* `link_observes`, `link_digitsObserved`: two runs that differ in whether digits are recorded.
-/
namespace TypedTables

section Tables

variable {l : Linking} {d : Draft} {P : String → Prop}

/-! ## Any table -/

/-- The contents without digits. -/
def Contents.plain : Contents → Contents
  | .sheet s => .sheet (s.mapValues fun _ => Field.plain)
  | .grid g => .grid g

inductive Contents.Beside : Contents → Contents → Prop
  | sheet {s s' : Sheet} : s.Beside s' → Beside (.sheet s) (.sheet s')
  | grid (g : ValueGrid) : Beside (.grid g) (.grid g)

theorem Contents.Beside.plain {c c' : Contents} (h : c.Beside c') : c' = c.plain := by
  cases h with
  | sheet h => exact congrArg Contents.sheet (h.fields.eq_mapValues fun _ _ _ ff' => ff'.plain)
  | grid g => rfl

/-- Two assemblies that are the same but for digits. -/
structure Assembly.Beside (a a' : Assembly) : Prop where
  tables : OrderedMap.Beside Contents.Beside a.tables a'.tables
  info : a'.info = a.info
  wiki : a'.wiki = a.wiki

/-- The columns of the draft that become fields of a sheet. -/
def Draft.fieldColumns (d : Draft) : List Column :=
  match d.content with
  | .records .entities columns | .records .anonymous columns | .records (.mod _) columns => columns
  | _ => []

variable {a a' : Assembly} {enumerations : OrderedMap String Enumeration}
  (on : l.options.enablePrecisions)

include on in
theorem addSheet_observes (wf : d.WellFormed) (h : a.Beside a') :
    Observes (Uncounted d.columns)
      (fun p q => p.1.Beside q.1 ∧ ∀ t, ¬ Uncounted d.columns t)
      (l.addSheet a d) (l.untracked.addSheet a' d) := by
  obtain ⟨tables, _, _⟩ := a
  obtain ⟨tables', info, wiki⟩ := a'
  obtain ⟨beside, rfl, rfl⟩ := h
  unfold Linking.addSheet
  refine (sheet_observes on wf).bind fun s s' ⟨ss', counted⟩ => ?_
  have finish : ∀ wiki : OrderedMap String String, Observes (Uncounted d.columns)
      (fun p q : Assembly × Nat => p.1.Beside q.1 ∧ ∀ t, ¬ Uncounted d.columns t)
      (.ok (⟨tables.insert d.name (.sheet s),
        info.insert d.name ⟨d.format, some d.rowCount, d.entityAffix⟩, wiki⟩, s.size))
      (.ok (⟨tables'.insert d.name (.sheet s'),
        info.insert d.name ⟨d.format, some d.rowCount, d.entityAffix⟩, wiki⟩, s'.size)) :=
    fun wiki => .answered ⟨⟨beside.insert d.name (.sheet ss'), rfl, rfl⟩, counted⟩
  dsimp only
  split
  · refine .bind_same fun column _ => ?_
    cases column with
    | none => exact finish _
    | some c =>
      refine .bind_same fun named _ => ?_
      rw [Linking.addTitles_eq l.untracked l]
      exact .bind_same fun wiki _ => finish wiki
  · exact finish _

variable (enumerations) in
include on in
theorem addMod_observes (wf : d.WellFormed) (hm : d.format = .entitiesMod) (h : a.Beside a')
    (target : String) :
    Observes (Uncounted d.columns) (fun a a' => a.Beside a' ∧ ∀ t, ¬ Uncounted d.columns t)
      (l.addMod enumerations a d target) (l.untracked.addMod enumerations a' d target) := by
  obtain ⟨tables, _, _⟩ := a
  obtain ⟨tables', info, wiki⟩ := a'
  obtain ⟨beside, rfl, rfl⟩ := h
  unfold Linking.addMod
  refine .bind_same fun e _ => .bind_same fun i _ => ?_
  dsimp only
  split
  · split
    · exact .failed _
    · next none =>
      have none : d.columns = [] := by simpa using none
      refine .answered ⟨⟨beside, rfl, rfl⟩, ?_⟩
      rintro t ⟨c, hc, -⟩
      rw [none] at hc
      cases hc
  · obtain ⟨none, none'⟩ | ⟨c, c', hc, hc', cc'⟩ := beside.get? target
    · rw [none, none']
      exact .failed _
    · rw [hc, hc']
      cases cc' with
      | grid g => exact .failed _
      | sheet ss' =>
        refine .bind_same fun n _ => ?_
        refine (modify_observes on wf hm ss').bind ?_
        rintro ⟨s₁, wiki₁⟩ ⟨s₁', _⟩ ⟨⟨ss₁, -, rfl⟩, counted⟩
        exact .answered ⟨⟨beside.insert target (.sheet ss₁), rfl, rfl⟩, counted⟩

theorem addWikiLookup_observes (h : a.Beside a') :
    Observes P Assembly.Beside (l.addWikiLookup a d) (l.untracked.addWikiLookup a' d) := by
  obtain ⟨tables, _, _⟩ := a
  obtain ⟨tables', info, wiki⟩ := a'
  obtain ⟨beside, rfl, rfl⟩ := h
  unfold Linking.addWikiLookup
  have enabled : l.untracked.options.enableWiki = l.options.enableWiki := rfl
  dsimp only
  rw [enabled]
  split
  · exact .answered ⟨beside, rfl, rfl⟩
  · refine .bind_same fun column _ => ?_
    cases column with
    | none => exact .failed _
    | some c =>
      refine .bind_same fun named _ => ?_
      rw [Linking.addTitles_eq l.untracked l]
      exact .bind_same fun wiki _ => .answered ⟨beside, rfl, rfl⟩

include on in
/-- **One table.** Assemblies that are the same but for digits stay so. -/
theorem addTable_observes (wf : d.WellFormed) (h : a.Beside a') :
    Observes (Uncounted d.fieldColumns)
      (fun a a' => a.Beside a' ∧ ∀ t, ¬ Uncounted d.fieldColumns t)
      (l.addTable enumerations a d).result (l.untracked.addTable enumerations a' d).result := by
  rw [Linking.result_addTable, Linking.result_addTable]
  have nothing : ∀ t, ¬ Uncounted [] t := fun t ⟨c, hc, _⟩ => by cases hc
  have columns : ∀ {kind columns}, d.content = .records kind columns → d.columns = columns :=
    fun hc => by rw [Draft.columns, hc]
  unfold Draft.fieldColumns
  cases hc : d.content with
  | grid g =>
    refine .map (R := fun p q => p.1.Beside q.1) ?_ fun p q h => ⟨h, nothing⟩
    have same : l.untracked.grid enumerations d g = l.grid enumerations d g :=
      l.grid_withOptions _ enumerations d g
    unfold Linking.addGrid
    rw [same]
    obtain ⟨beside, info, wiki⟩ := h
    refine .bind_same fun v _ => .answered ⟨beside.insert d.name (.grid v), ?_, wiki⟩
    dsimp only
    rw [info]
  | records kind cs =>
    cases kind with
    | entities | anonymous =>
      have observed := addSheet_observes on wf h
      rw [columns hc] at observed
      exact observed.map fun p q h => h
    | mod target =>
      have mod : d.format = .entitiesMod := by
        rw [Draft.format, hc]
        rfl
      have observed := addMod_observes enumerations on wf mod h target
      rw [columns hc] at observed
      exact observed
    | wikiLookup => exact (addWikiLookup_observes h).imp (fun _ => id) fun _ _ h => ⟨h, nothing⟩
    | enumeration => exact .answered ⟨h, nothing⟩

variable (enumerations) in
include on in
theorem addTables_observes {tables : List Draft} (wf : ∀ d ∈ tables, d.WellFormed)
    (h : a.Beside a') :
    Observes (fun t => ∃ d ∈ tables, Uncounted d.fieldColumns t)
      (fun a a' => a.Beside a' ∧ ∀ d ∈ tables, ∀ t, ¬ Uncounted d.fieldColumns t)
      (l.addTables enumerations a tables).result
      (l.untracked.addTables enumerations a' tables).result := by
  induction tables generalizing a a' with
  | nil => exact .answered ⟨h, by simp⟩
  | cons d tables ih =>
    rw [List.forall_mem_cons] at wf
    rw [Linking.addTables, Linking.addTables, Logged.result_bind, Logged.result_bind]
    refine ((addTable_observes on wf.1 h).imp (fun t ht => ⟨d, List.mem_cons_self, ht⟩)
      fun _ _ => id).bind ?_
    rintro a₁ a₁' ⟨h₁, counted⟩
    refine (ih wf.2 h₁).imp ?_ fun _ _ h => ⟨h.1, List.forall_mem_cons.2 ⟨counted, h.2⟩⟩
    rintro t ⟨d, hd, ht⟩
    exact ⟨d, List.mem_cons_of_mem _ hd, ht⟩

end Tables

/-! ## Runs -/

/-- The store without digits. -/
def Store.plain (s : Store) : Store :=
  { s with tables := s.tables.mapValues fun _ => Contents.plain, tracksPrecision := false }

/-- A run that records digits, beside one that does not. -/
theorem link_observes {units : Units.Converter} {options : LinkOptions} {tables : List Draft}
    {predefined : Predefined} (wf : ∀ d ∈ tables, d.WellFormed) :
    Observes (fun t => ∃ d ∈ tables, Uncounted d.fieldColumns t)
      (fun s s' => s' = s.plain ∧ ∀ d ∈ tables, ∀ t, ¬ Uncounted d.fieldColumns t)
      (link units { options with enablePrecisions := true } tables predefined).result
      (link units { options with enablePrecisions := false } tables predefined).result := by
  cases hn : (linkAll tables predefined).result with
  | error e =>
    rw [link_of_linkAll_error hn, link_of_linkAll_error hn]
    exact .failed e
  | ok n =>
    obtain ⟨nd, hn⟩ := linkAll_eq_ok_iff.1 hn
    rw [link_eq_of_linkNames nd hn, link_eq_of_linkNames nd hn]
    have wf : ∀ d ∈ modsLast tables, d.WellFormed := fun d hd => wf d (mem_modsLast.1 hd)
    have start : Assembly.Beside { info := n.info } { info := n.info } := ⟨.empty, rfl, rfl⟩
    have observed := addTables_observes n.enumerations
      (l := ⟨units, { options with enablePrecisions := true }, n.entities⟩) rfl wf start
    refine Observes.map (observed.imp (fun t ⟨d, hd, ht⟩ => ⟨d, mem_modsLast.1 hd, ht⟩)
      fun _ _ => id) fun a a' ⟨⟨beside, info, wiki⟩, counted⟩ => ⟨?_, fun d hd =>
        counted d (mem_modsLast.2 hd)⟩
    rw [beside.eq_mapValues (f := fun _ => Contents.plain) fun _ _ _ cc' => cc'.plain, info, wiki]
    rfl

/-- **Recording digits.** A run that records significant digits and succeeds makes the store of the
run without them, and the digits. It succeeds just if that run does and, in every scalar FLOAT cell
of a table of records or a mod, the digits can be counted; no other error is its own. -/
theorem link_digitsObserved {units : Units.Converter} {options : LinkOptions} {tables : List Draft}
    {predefined : Predefined} (parsed : ∀ d ∈ tables, d.Parsed) :
    let tracked := (link units { options with enablePrecisions := true } tables predefined).result
    let untracked := (link units { options with enablePrecisions := false } tables predefined).result
    (∀ s, tracked = .ok s → untracked = .ok s.plain) ∧
      ((∃ s, tracked = .ok s) ↔ (∃ s, untracked = .ok s) ∧
        ∀ d ∈ tables, ∀ c ∈ d.fieldColumns, c.type = ⟨.float, false⟩ →
          ∀ t, .text t ∈ c.cells → ¬ Decimal.Uncountable t.toList) ∧
      ∀ e, tracked = .error e → untracked = .error e ∨
        ∃ t, e = .malformedDigits t ∧ ∃ d ∈ tables, Uncounted d.fieldColumns t := by
  intro tracked untracked
  have counted_iff : (∀ d ∈ tables, ∀ t, ¬ Uncounted d.fieldColumns t) ↔
      ∀ d ∈ tables, ∀ c ∈ d.fieldColumns, c.type = ⟨.float, false⟩ →
        ∀ t, .text t ∈ c.cells → ¬ Decimal.Uncountable t.toList := by
    constructor
    · exact fun h d hd c hc float t ht uncountable =>
        h d hd t ⟨c, hc, .text t, ht, float, rfl, uncountable⟩
    · rintro h d hd t ⟨c, hc, _, ht, float, rfl, uncountable⟩
      exact h d hd c hc float t ht uncountable
  rw [← counted_iff]
  have observed : Observes _ _ tracked untracked := link_observes fun d hd => (parsed d hd).wellFormed
  generalize tracked = x at observed ⊢
  generalize untracked = y at observed ⊢
  cases observed with
  | @stopped t y stops =>
    refine ⟨fun s h => (nomatch h), ⟨fun ⟨s, h⟩ => (nomatch h), fun ⟨_, counted⟩ => ?_⟩, ?_⟩
    · obtain ⟨d, hd, ht⟩ := stops
      exact absurd ht (counted d hd t)
    · rintro e ⟨⟩
      exact .inr ⟨t, rfl, stops⟩
  | failed e =>
    refine ⟨fun s h => (nomatch h), ⟨fun ⟨s, h⟩ => (nomatch h), fun ⟨⟨s, h⟩, _⟩ => (nomatch h)⟩, ?_⟩
    rintro e' ⟨⟩
    exact .inl rfl
  | @answered s s' beside =>
    obtain ⟨rfl, counted⟩ := beside
    refine ⟨?_, ⟨fun _ => ⟨⟨_, rfl⟩, counted⟩, fun _ => ⟨s, rfl⟩⟩, fun e h => (nomatch h)⟩
    rintro _ ⟨⟩
    rfl

/-- The digits of all heights can be counted, and nothing else depends on whether they are. -/
theorem peaks_digitsObserved : ∃ s,
    (link (.only [("m", .real 1.0), ("km", .real 1000.0)] []) { enablePrecisions := true }
      Draft.peaks ∅).result = .ok s ∧
    (link (.only [("m", .real 1.0), ("km", .real 1000.0)] []) { enablePrecisions := false }
      Draft.peaks ∅).result = .ok s.plain := by
  have run : ((link (.only [("m", .real 1.0), ("km", .real 1000.0)] [])
      { enablePrecisions := true } Draft.peaks ∅).result.toOption.map fun s => s.tracksPrecision) =
      some true := by
    decide +kernel
  have parsed : ∀ d ∈ Draft.peaks, d.Parsed := fun d => Draft.parsed_of_mem_readAll
  obtain ⟨s, h, -⟩ := toOption_map_eq_some.1 run
  exact ⟨s, h, (@link_digitsObserved _ {} _ _ parsed).1 s h⟩

/-- A depth that is written with an Arabic digit. -/
def Draft.strait : List Draft := readAll [
  ("Strait", ["@DB_ENTITIES", "strait\tdepth", "Type\tFLOAT", "bab\t\u0663"])]

/-- The depth is a number, and it is stored; but its digits are not counted, and so the run that
records digits fails. -/
theorem strait_digitsRefused :
    (∃ s, (link {} { enablePrecisions := false } Draft.strait ∅).result = .ok s) ∧
      ∃ e, (link {} { enablePrecisions := true } Draft.strait ∅).result = .error e ∧
        e.message = "Malformed float: '\u0663'" := by
  constructor
  · have run : ((link {} { enablePrecisions := false } Draft.strait ∅).result.toOption.map
        fun s => s.tables.keys) = some ["Strait"] := by
      decide +kernel
    obtain ⟨s, h, -⟩ := toOption_map_eq_some.1 run
    exact ⟨s, h⟩
  · have run : (match (link {} { enablePrecisions := true } Draft.strait ∅).result with
        | .ok _ => none
        | .error e => some e.message) = some "Malformed float: '\u0663'" := by
      decide +kernel
    cases h : (link {} { enablePrecisions := true } Draft.strait ∅).result with
    | ok s => rw [h] at run; cases run
    | error e =>
      rw [h] at run
      exact ⟨e, rfl, Option.some.inj run⟩

end TypedTables
