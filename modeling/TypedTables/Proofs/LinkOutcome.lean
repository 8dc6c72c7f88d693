import TypedTables.Proofs.Linkable
import TypedTables.Proofs.TableOutcome
/-!
# How a run ends

A run over parsed tables makes a store, or it fails with an error that tells what is wrong with the
tables. No container lacks what linking looks up in it: a table that is no mod needs nothing that an
earlier one has left, and when the turn of a mod has come its target is there, with as many rows as
the mods before it have made.

Results:
* `HoldsTarget.of_run`: what a table and some of its mods leave for the next one.
* `addMod_raises`, `addTable_raises`: the work on one table.
* `addTables_raises`: from that, the tables of a run.
* `link_raises`: the errors of a run.
* `link_outcome`: a run, and the cells that are resolved in it.
-/
namespace TypedTables

/-! ## Targets -/

/-- The assembly holds a table that has this enumeration: an enumeration without fields, or a
table of entities with some of its rows. -/
def HoldsTarget (l : Linking) (b : Draft) (e : Enumeration) (a : Assembly) : Prop :=
  (∃ n, HoldsRowNames b n a) ∨
    ∃ n, n ≤ e.names.length ∧ b.format = .entities ∧ b.rowNames ≠ [] ∧ HoldsRecords l b e.names n a

section Steps

variable {l : Linking} {enumerations : OrderedMap String Enumeration} {a a' : Assembly}
  {b d : Draft} {e : Enumeration} {texts : List String}

theorem HoldsTarget.congr (h : HoldsTarget l b e a) (same : a'.SameAt b.name a) :
    HoldsTarget l b e a' := by
  rcases h with ⟨n, info, tables⟩ | ⟨n, le, hf, named, info, sheet⟩
  · exact .inl ⟨n, same.info ▸ info, same.tables.trans tables⟩
  · exact .inr ⟨n, le, hf, named, same.info ▸ info, same.tables ▸ sheet⟩

/-- A table that has row names is there after its own turn and that of any mods. -/
theorem HoldsTarget.of_run {mods : List Draft} (wf : b.WellFormed) (hb : b.format.isEnumerated)
    (named : b.rowNames ≠ []) (info : a.info.get? b.name = some b.info)
    (new : a.tables.get? b.name = none) (he : enumerations.get? b.name = some e)
    (first : b.rowNames <+: e.names) (hm : ∀ m ∈ mods, m.WellFormed ∧ m.target? = some b.name)
    (h : (l.addTables enumerations a (b :: mods)).result = .ok a') : HoldsTarget l b e a' := by
  obtain ⟨a₁, h₁, h⟩ := Linking.addTables_cons_eq_ok.1 h
  have hf : b.format = .entities ∨ b.format = .enumeration := by
    cases hf : b.format with
    | entities => exact .inl rfl
    | enumeration => exact .inr rfl
    | _ => rw [hf] at hb; cases hb
  rcases hf with hf | hf
  · have start : HoldsRecords l b e.names b.rowCount a₁ := .start wf (.inl hf) (fun _ => first) h₁
    have le : b.rowCount ≤ e.names.length :=
      wf.rows_counted.resolve_left named ▸ first.length_le
    refine .inr ⟨_, ?_, hf, named, start.modifyAll hm hf named he le h⟩
    split
    · exact le
    · exact Nat.le_refl _
  · have start : HoldsRowNames b b.rowCount a₁ := .start hf info new h₁
    exact .inl ⟨_, start.extendAll (fun m hmm => (hm m hmm).2) he h⟩

/-! ## One table -/

variable (total : l.units.Total) (wf : d.WellFormed) (known : ∀ u ∈ d.unitTexts, u ∈ texts)

include total wf known in
/-- A mod finds its target, and there the rows of its names. -/
theorem addMod_raises (he : enumerations.get? b.name = some e) (located : e.Locates d.rowNames)
    (held : HoldsTarget l b e a) :
    Raises (LinkError.Expected l.units texts) (l.addMod enumerations a d b.name) := by
  unfold Linking.addMod
  refine .bind_ok (orBroken_eq_ok.2 he) ?_
  rcases held with ⟨n, ⟨affix, hi⟩, -⟩ | ⟨n, le, hf, named, ⟨affix, hi⟩, s, hs, shaped, rowNames⟩
  · refine .bind_ok (orBroken_eq_ok.2 hi) ?_
    dsimp only
    rw [if_pos rfl]
    split
    · exact .error (.form rfl (by simp))
    · exact .ok _
  · refine .bind_ok (orBroken_eq_ok.2 hi) ?_
    dsimp only
    rw [if_neg (by rw [hf]; decide), hs]
    exact .bind_ok rfl (.bind
      (modify_raises (t := ⟨b.name, e, n⟩) total wf known shaped (rowNames named) le located _)
      fun _ _ => .ok _)

include total wf known in
/-- A table that is no mod needs the names only. -/
theorem addTable_raises {ps : List (String × OrderedMap String Int)} {ts : List Draft} {n : Names}
    (linked : Linked ps ts n) (names : l.entities = n.entities) (hm : d.isMod = false) :
    Raises (LinkError.Expected l.units texts) (l.addTable n.enumerations a d).result := by
  rw [Linking.result_addTable]
  cases hc : d.content with
  | grid g =>
    have hg : d.grid? = some g := by rw [Draft.grid?, hc]
    exact .map (.bind (grid_raises total wf known linked names hg) fun _ _ => .ok _)
  | records kind columns =>
    cases kind with
    | entities | anonymous => exact .map (addSheet_raises total wf known a)
    | wikiLookup =>
      exact addWikiLookup_raises wf (by rw [Draft.format, hc]; rfl) a
    | enumeration => exact .ok a
    | mod target =>
      have none := Draft.target?_eq_none hm
      rw [Draft.target?, hc] at none
      cases none

/-! ## Runs -/

/-- The errors of a run are those of its tables, each after the tables before it. -/
theorem addTables_raises {P : LinkError → Prop} {tables : List Draft}
    (h : ∀ before d rest a', tables = before ++ d :: rest →
      (l.addTables enumerations a before).result = .ok a' →
        Raises P (l.addTable enumerations a' d).result) :
    Raises P (l.addTables enumerations a tables).result := by
  induction tables generalizing a with
  | nil => exact .ok a
  | cons d rest ih =>
    rw [Linking.addTables, Logged.result_bind]
    refine .bind (h [] d rest a rfl rfl) fun a₁ h₁ => ih fun before d' rest' a' split h' => ?_
    exact h (d :: before) d' rest' a' (congrArg (d :: ·) split)
      (Linking.addTables_cons_eq_ok.2 ⟨a₁, h₁, h'⟩)

end Steps

/-- Before a mod comes its target, with nothing but mods of the target after it. -/
theorem about_before {tables before rest : List Draft} {b d : Draft}
    (nd : ((tables.filter (!·.isMod)).map Draft.name).Nodup) (hb : b ∈ tables)
    (hbm : b.isMod = false) (hd : d.target? = some b.name)
    (split : modsLast tables = before ++ d :: rest) :
    ∃ mods, about before b.name = b :: mods ∧ ∀ m ∈ mods, m ∈ modsOf tables b.name := by
  have all := about_modsLast_of_mem nd hb hbm
  rw [split, about, List.filter_append,
    List.filter_cons_of_pos (by simp [Draft.subject_of_target hd])] at all
  change about before b.name ++ _ = _ at all
  cases ha : about before b.name with
  | nil =>
    rw [ha] at all
    cases (List.cons.inj all).1
    rw [Draft.target?_eq_none hbm] at hd
    cases hd
  | cons c mods =>
    rw [ha, List.cons_append, List.cons.injEq] at all
    obtain ⟨rfl, all⟩ := all
    exact ⟨mods, rfl, fun m hm => all ▸ List.mem_append_left _ hm⟩

section Runs

variable {units : Units.Converter} {options : LinkOptions} {tables : List Draft}
  {predefined : Predefined} {n : Names} (total : units.Total)
  (wf : ∀ d ∈ tables, d.WellFormed) (linked : Linked predefined.toList tables n)
  (nd : ((tables.filter (!·.isMod)).map Draft.name).Nodup)

include total wf linked nd in
theorem resolve_raises :
    Raises (LinkError.Expected units (tables.flatMap Draft.unitTexts))
      (Linking.addTables ⟨units, options, n.entities⟩ n.enumerations { info := n.info }
        (modsLast tables)).result := by
  refine addTables_raises fun before d rest a split h => ?_
  have hd : d ∈ tables := mem_modsLast.1 (by simp [split])
  have known : ∀ u ∈ d.unitTexts, u ∈ tables.flatMap Draft.unitTexts :=
    fun u hu => List.mem_flatMap.2 ⟨d, hd, hu⟩
  cases hm : d.isMod with
  | false => exact addTable_raises total (wf d hd) known linked rfl hm
  | true =>
    obtain ⟨target, ht⟩ := Draft.isMod_iff.1 hm
    obtain ⟨b, hb, hbe, named, rfl⟩ := linked.target d hd target ht
    obtain ⟨e, he, -, first⟩ := linked.table b hb hbe named
    obtain ⟨mods, only, hmods⟩ := about_before nd hb (Draft.isMod_of_isEnumerated hbe) ht split
    obtain ⟨a₁, h₁, same⟩ := Linking.addTables_about (t := b.name) (.refl _) h
    rw [only] at h₁
    have held := HoldsTarget.of_run (wf b hb) hbe named (linked.info_of_mem hb hbe) rfl he first
      (fun m hmm => ⟨wf m (List.mem_filter.1 (hmods m hmm)).1, target_of_mem_modsOf m (hmods m hmm)⟩)
      h₁
    have located : e.Locates d.rowNames :=
      linked.locates he fun name hn => (linked.owns_iff _ _).2 (.modRow hd ht hn)
    rw [Linking.result_addTable_of_target ht]
    exact addMod_raises total (wf d hd) known he located (held.congr same)

end Runs

/-- The errors of a run are of names, of the form of a table, or of a unit text. -/
theorem link_raises {units : Units.Converter} {options : LinkOptions} {tables : List Draft}
    {predefined : Predefined} (parsed : ∀ d ∈ tables, d.Parsed) (total : units.Total) :
    Raises (LinkError.Expected units (tables.flatMap Draft.unitTexts))
      (link units options tables predefined).result := by
  have wf : ∀ d ∈ tables, d.WellFormed := fun d hd => (parsed d hd).wellFormed
  cases hn : (linkAll tables predefined).result with
  | error e =>
    obtain ⟨kind, not_cell⟩ := linkAll_raises _ _ e hn
    rw [link_of_linkAll_error hn]
    exact .error (kind.elim .names fun schema => .form schema fun source raw => not_cell _)
  | ok n =>
    obtain ⟨nd, hn⟩ := linkAll_eq_ok_iff.1 hn
    rw [link_eq_of_linkNames nd hn]
    exact .map (resolve_raises total wf (linkNames_linked nd hn) nd)

/-- **How a run ends.** A run over parsed tables makes a store or fails with an error of names, of
the form of a table, or of a unit text that has no value; nothing that linking looks up is missing,
and a cell fails for a name only. In particular, when the unit of a field or a grid is accepted, all
its cells, their elements and the default have values, but for an INT whose text is neither an
integer nor the name of an entity. Left out are the limits of the machine: lists may have any size,
also for an index of 2^63 or more, and unit expressions may nest to any depth. -/
theorem link_outcome {units : Units.Converter} {options : LinkOptions} {tables : List Draft}
    {predefined : Predefined} (parsed : ∀ d ∈ tables, d.Parsed) (total : units.Total) :
    Raises (fun e => e.Expected units (tables.flatMap Draft.unitTexts) ∧ e ≠ .broken ∧
        ∀ f, e = .cell f → ∃ source text, f = .unknownEntity source text)
      (link units options tables predefined).result ∧
      ∀ d ∈ tables, ∀ l : Linking, l.units = units →
        (∀ c ∈ d.columns, l.checkUnit d c.unit c.name = .ok () →
          ∀ raw ∈ c.default :: c.cells, l.Resolves d c.type c.unit raw) ∧
        ∀ g, d.grid? = some g → l.checkUnit d g.unit "DATA_UNIT" = .ok () →
          ∀ raw ∈ g.default :: g.cells.flatten, l.Resolves d g.type g.unit raw := by
  have wf : ∀ d ∈ tables, d.WellFormed := fun d hd => (parsed d hd).wellFormed
  constructor
  · exact (link_raises parsed total).imp fun e he => ⟨he, he.told⟩
  · rintro d hd l rfl
    refine ⟨fun c hc hu => ?_, fun g hg hu => ?_⟩
    · have column := (wf d hd).columns c hc
      exact List.forall_mem_cons.2
        ⟨Linking.resolves total (Linking.checkUnit_eq_ok hu) column.default_fits, fun raw hraw =>
          Linking.resolves total (Linking.checkUnit_eq_ok hu) (column.cells_fit raw hraw)⟩
    · have even := (wf d hd).grid g hg
      refine List.forall_mem_cons.2
        ⟨Linking.resolves total (Linking.checkUnit_eq_ok hu) even.default_fits, fun raw hraw => ?_⟩
      obtain ⟨row, hrow, hm⟩ := List.mem_flatten.1 hraw
      exact Linking.resolves total (Linking.checkUnit_eq_ok hu) (even.cells_fit row hrow raw hm)

/-- A run fails with the name that is not defined, and nothing but such a name keeps a cell from
having a value. -/
theorem ponds_outcome :
    (∃ e, (link {} {} Draft.ponds ∅).result = .error e ∧
      e.message = "Pond: unknown enumeration 'river'" ∧
      e.Expected {} (Draft.ponds.flatMap Draft.unitTexts)) ∧
    ∀ d ∈ Draft.ponds, ∀ c ∈ d.columns, ∀ raw ∈ c.default :: c.cells,
      Linking.Resolves ⟨{}, {}, ∅⟩ d c.type c.unit raw := by
  have parsed : ∀ d ∈ Draft.ponds, d.Parsed := fun d => Draft.parsed_of_mem_readAll
  have outcome := @link_outcome {} {} Draft.ponds ∅ parsed Units.Converter.total_builtin
  constructor
  · have run : (match (link {} {} Draft.ponds ∅).result with
        | .ok _ => none
        | .error e => some e.message) = some "Pond: unknown enumeration 'river'" := by
      decide +kernel
    cases h : (link {} {} Draft.ponds ∅).result with
    | ok s => rw [h] at run; cases run
    | error e =>
      rw [h] at run
      exact ⟨e, rfl, Option.some.inj run, (outcome.1 e h).1⟩
  · intro d hd c hc
    have accepted : ∀ d ∈ Draft.ponds, ∀ c ∈ d.columns,
        (Linking.checkUnit ⟨{}, {}, ∅⟩ d c.unit c.name).toOption = some () := by
      decide +kernel
    have ok : Linking.checkUnit ⟨{}, {}, ∅⟩ d c.unit c.name = .ok () := by
      have := accepted d hd c hc
      cases hu : Linking.checkUnit ⟨{}, {}, ∅⟩ d c.unit c.name with
      | ok => rfl
      | error e => rw [hu] at this; cases this
    exact (outcome.2 d hd _ rfl).1 c hc ok

end TypedTables
