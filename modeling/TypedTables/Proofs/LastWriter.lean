import TypedTables.Proofs.GivenCells
import TypedTables.Proofs.Linked
/-!
# The last writer wins

A table is resolved once and then changed by the mods that name it; what happens to other tables
in between leaves it alone. So at the end of a run each of its places holds the value of the last
cell that is given for it.

Results:
* `addTable_frame`: the work on a table leaves the other tables as they are.
* `Shows.modify`: a mod adds its cells to what its target shows.
* `link_lastWriter`: what the tables of a store hold.
-/
namespace TypedTables

namespace Linking

variable {l : Linking} {enumerations : OrderedMap String Enumeration} {a a' : Assembly} {d : Draft}

/-! ## One table -/

theorem addSheet_eq_ok {n : Nat} (h : l.addSheet a d = .ok (a', n)) :
    ∃ s, l.sheet d = .ok s ∧ a'.tables = a.tables.insert d.name (.sheet s) ∧
      a'.info = a.info.insert d.name ⟨d.format, some d.rowCount, d.entityAffix⟩ := by
  unfold addSheet at h
  obtain ⟨s, hs, h⟩ := bind_eq_ok.1 h
  -- the titles matter to neither
  have finish : ∀ wiki, (pure ({ a with
      tables := a.tables.insert d.name (.sheet s)
      info := a.info.insert d.name ⟨d.format, some d.rowCount, d.entityAffix⟩
      wiki }, s.size) : Except LinkError (Assembly × Nat)) = .ok (a', n) →
      a'.tables = a.tables.insert d.name (.sheet s) ∧
        a'.info = a.info.insert d.name ⟨d.format, some d.rowCount, d.entityAffix⟩ := by
    intro wiki h
    cases h
    exact ⟨rfl, rfl⟩
  dsimp only at h
  split at h
  · obtain ⟨column, -, h⟩ := bind_eq_ok.1 h
    cases column with
    | none => exact ⟨s, hs, finish _ h⟩
    | some c =>
      obtain ⟨named, -, h⟩ := bind_eq_ok.1 h
      obtain ⟨wiki, -, h⟩ := bind_eq_ok.1 h
      exact ⟨s, hs, finish wiki h⟩
  · exact ⟨s, hs, finish _ h⟩

theorem addSheet_frame {n : Nat} (h : l.addSheet a d = .ok (a', n)) {t : String}
    (ht : d.name ≠ t) :
    a'.tables.get? t = a.tables.get? t ∧ a'.info.get? t = a.info.get? t := by
  obtain ⟨s, -, tables, info⟩ := addSheet_eq_ok h
  rw [tables, info, OrderedMap.get?_insert, OrderedMap.get?_insert, if_neg ht, if_neg ht]
  exact ⟨rfl, rfl⟩

theorem addWikiLookup_eq_ok (h : l.addWikiLookup a d = .ok a') :
    a'.tables = a.tables ∧ a'.info = a.info.insert d.name ⟨d.format, none, ""⟩ := by
  unfold addWikiLookup at h
  dsimp only at h
  split at h
  · cases h
    exact ⟨rfl, rfl⟩
  · obtain ⟨column, -, h⟩ := bind_eq_ok.1 h
    cases column with
    | none => cases h
    | some c =>
      obtain ⟨named, -, h⟩ := bind_eq_ok.1 h
      obtain ⟨wiki, -, h⟩ := bind_eq_ok.1 h
      cases h
      exact ⟨rfl, rfl⟩

theorem addGrid_eq_ok {g : Grid} {v : ValueGrid} (h : l.addGrid enumerations a d g = .ok (a', v)) :
    a'.tables = a.tables.insert d.name (.grid v) ∧
      a'.info = a.info.insert d.name ⟨d.format, none, ""⟩ := by
  unfold addGrid at h
  obtain ⟨values, -, h⟩ := bind_eq_ok.1 h
  cases h
  exact ⟨rfl, rfl⟩

theorem addMod_eq_ok {target : String} (h : l.addMod enumerations a d target = .ok a') :
    ∃ e info, enumerations.get? target = some e ∧ a.info.get? target = some info ∧
      a'.info = a.info.insert target { info with rowCount := some e.names.length } ∧
      ((info.format = .enumeration ∧ a'.tables = a.tables) ∨
        info.format ≠ .enumeration ∧ ∃ s n s' wiki, a.tables.get? target = some (.sheet s) ∧
          info.rowCount = some n ∧ l.modify d ⟨target, e, n⟩ s a.wiki = .ok (s', wiki) ∧
          a'.tables = a.tables.insert target (.sheet s')) := by
  unfold addMod at h
  obtain ⟨e, he, h⟩ := bind_eq_ok.1 h
  obtain ⟨info, hi, h⟩ := bind_eq_ok.1 h
  rw [orBroken_eq_ok] at he hi
  dsimp only at h
  split at h
  · next hf =>
    split at h
    · cases h
    · cases h
      exact ⟨e, info, he, hi, rfl, .inl ⟨hf, rfl⟩⟩
  · next hf =>
    cases hs : a.tables.get? target with
    | none => rw [hs] at h; cases h
    | some contents =>
      cases contents with
      | grid g => rw [hs] at h; cases h
      | sheet s =>
        rw [hs] at h
        obtain ⟨n, hn, h⟩ := bind_eq_ok.1 h
        obtain ⟨⟨s', wiki⟩, hm, h⟩ := bind_eq_ok.1 h
        rw [orBroken_eq_ok] at hn
        cases h
        exact ⟨e, info, he, hi, rfl, .inr ⟨hf, s, n, s', wiki, rfl, hn, hm, rfl⟩⟩

/-- The work on a table, notices apart. -/
theorem result_addTable (l : Linking) (enumerations : OrderedMap String Enumeration) (a : Assembly)
    (d : Draft) : (l.addTable enumerations a d).result =
      match d.content with
      | .records .entities _ | .records .anonymous _ => Prod.fst <$> l.addSheet a d
      | .records (.mod target) _ => l.addMod enumerations a d target
      | .records .wikiLookup _ => l.addWikiLookup a d
      | .records .enumeration _ => .ok a
      | .grid g => Prod.fst <$> l.addGrid enumerations a d g := by
  have quiet : ∀ (p : Bool) (n : Notice) (a : Assembly),
      (if p then do Logged.tell n; pure a else pure a : Logged LinkError Assembly).result =
        .ok a := by
    intro p n a
    cases p <;> rfl
  unfold addTable
  cases hc : d.content with
  | grid g =>
    simp only [Logged.result_bind, Logged.result_ofExcept]
    cases l.addGrid enumerations a d g <;> rfl
  | records kind columns =>
    cases kind with
    | entities | anonymous =>
      simp only [Logged.result_bind, Logged.result_ofExcept]
      cases l.addSheet a d <;> rfl
    | mod target =>
      simp only [Logged.result_bind, Logged.result_ofExcept]
      cases l.addMod enumerations a d target with
      | error e => rfl
      | ok a => exact quiet _ _ _
    | wikiLookup =>
      simp only [Logged.result_bind, Logged.result_ofExcept]
      cases l.addWikiLookup a d with
      | error e => rfl
      | ok a => exact quiet _ _ _
    | enumeration => rfl

/-- What the steps of a table do to the assembly. -/
theorem addTable_eq_ok (h : (l.addTable enumerations a d).result = .ok a') :
    match d.content with
    | .records .entities _ | .records .anonymous _ => ∃ n, l.addSheet a d = .ok (a', n)
    | .records (.mod target) _ => l.addMod enumerations a d target = .ok a'
    | .records .wikiLookup _ => l.addWikiLookup a d = .ok a'
    | .records .enumeration _ => a' = a
    | .grid g => ∃ v, l.addGrid enumerations a d g = .ok (a', v) := by
  have first : ∀ {β : Type} {x : Except LinkError (Assembly × β)}, Prod.fst <$> x = .ok a' →
      ∃ n, x = .ok (a', n) := by
    intro β x hx
    obtain ⟨⟨_, n⟩, ok, rfl⟩ := map_eq_ok.1 hx
    exact ⟨n, ok⟩
  rw [result_addTable] at h
  cases hc : d.content with
  | grid g =>
    rw [hc] at h
    exact first h
  | records kind columns =>
    rw [hc] at h
    cases kind with
    | entities | anonymous => exact first h
    | mod | wikiLookup => exact h
    | enumeration => exact (Except.ok.inj h).symm

/-- A table of entities or of anonymous rows becomes a sheet. -/
theorem addSheet_of_format (hf : d.format = .entities ∨ d.format = .anonymousRows)
    (h : (l.addTable enumerations a d).result = .ok a') : ∃ n, l.addSheet a d = .ok (a', n) := by
  have hc := addTable_eq_ok h
  unfold Draft.format at hf
  split at hc
  · exact hc
  · exact hc
  all_goals simp_all [RecordKind.format]

/-- The work on a mod is done on its target. -/
theorem result_addTable_of_target {t : String} (ht : d.target? = some t) :
    (l.addTable enumerations a d).result = l.addMod enumerations a d t := by
  rw [result_addTable]
  unfold Draft.target? at ht
  split at ht
  · next target columns hd =>
    rw [hd]
    cases ht
    rfl
  · cases ht

/-- The work on a table leaves the other tables as they are. -/
theorem addTable_frame (h : (l.addTable enumerations a d).result = .ok a') {t : String}
    (ht : d.target?.getD d.name ≠ t) :
    a'.tables.get? t = a.tables.get? t ∧ a'.info.get? t = a.info.get? t := by
  have hc := addTable_eq_ok h
  unfold Draft.target? at ht
  split at hc
  · next hd =>
    obtain ⟨n, hn⟩ := hc
    exact addSheet_frame hn (by simpa [hd] using ht)
  · next hd =>
    obtain ⟨n, hn⟩ := hc
    exact addSheet_frame hn (by simpa [hd] using ht)
  · next target _ hd =>
    have ht : target ≠ t := by simpa [hd] using ht
    obtain ⟨e, i, -, -, info, ⟨-, tables⟩ | ⟨-, s, n, s', wiki, -, -, -, tables⟩⟩ := addMod_eq_ok hc
    · rw [tables, info, OrderedMap.get?_insert, if_neg ht]
      exact ⟨rfl, rfl⟩
    · rw [tables, info, OrderedMap.get?_insert, OrderedMap.get?_insert, if_neg ht, if_neg ht]
      exact ⟨rfl, rfl⟩
  · next hd =>
    have ht : d.name ≠ t := by simpa [hd] using ht
    obtain ⟨tables, info⟩ := addWikiLookup_eq_ok hc
    rw [tables, info, OrderedMap.get?_insert, if_neg ht]
    exact ⟨rfl, rfl⟩
  · rw [hc]
    exact ⟨rfl, rfl⟩
  · next hd =>
    have ht : d.name ≠ t := by simpa [hd] using ht
    obtain ⟨v, hv⟩ := hc
    obtain ⟨tables, info⟩ := addGrid_eq_ok hv
    rw [tables, info, OrderedMap.get?_insert, OrderedMap.get?_insert, if_neg ht, if_neg ht]
    exact ⟨rfl, rfl⟩

/-! ## Several tables -/

theorem addTables_cons_eq_ok {rest : List Draft} :
    (l.addTables enumerations a (d :: rest)).result = .ok a' ↔
      ∃ a₁, (l.addTable enumerations a d).result = .ok a₁ ∧
        (l.addTables enumerations a₁ rest).result = .ok a' := by
  rw [addTables, Logged.result_bind, bind_eq_ok]

theorem addTables_append_eq_ok {first rest : List Draft} :
    (l.addTables enumerations a (first ++ rest)).result = .ok a' ↔
      ∃ a₁, (l.addTables enumerations a first).result = .ok a₁ ∧
        (l.addTables enumerations a₁ rest).result = .ok a' := by
  induction first generalizing a with
  | nil => simp [addTables]
  | cons d first ih =>
    rw [List.cons_append, addTables_cons_eq_ok]
    simp only [ih, addTables_cons_eq_ok]
    constructor
    · rintro ⟨a₁, h₁, a₂, h₂, h⟩
      exact ⟨a₂, ⟨a₁, h₁, h₂⟩, h⟩
    · rintro ⟨a₂, ⟨a₁, h₁, h₂⟩, h⟩
      exact ⟨a₁, h₁, a₂, h₂, h⟩

theorem addTables_frame {rest : List Draft}
    (h : (l.addTables enumerations a rest).result = .ok a') {t : String}
    (ht : ∀ d ∈ rest, d.target?.getD d.name ≠ t) :
    a'.tables.get? t = a.tables.get? t ∧ a'.info.get? t = a.info.get? t := by
  induction rest generalizing a with
  | nil =>
    cases h
    exact ⟨rfl, rfl⟩
  | cons d rest ih =>
    obtain ⟨a₁, h₁, h⟩ := addTables_cons_eq_ok.1 h
    obtain ⟨tables, info⟩ := ih h fun b hb => ht b (List.mem_cons_of_mem _ hb)
    obtain ⟨tables₁, info₁⟩ := addTable_frame h₁ (ht d List.mem_cons_self)
    exact ⟨tables.trans tables₁, info.trans info₁⟩

end Linking

/-! ## A table and its mods -/

/-- The mods of a table, in order. -/
def modsOf (tables : List Draft) (t : String) : List Draft :=
  tables.filter fun m => m.target? = some t

theorem modsOf_cons_of_target {d : Draft} {t : String} (h : d.target? = some t)
    (rest : List Draft) : modsOf (d :: rest) t = d :: modsOf rest t :=
  List.filter_cons_of_pos (by simpa using h)

theorem modsOf_cons_of_ne {d : Draft} {t : String} (h : d.target? ≠ some t) (rest : List Draft) :
    modsOf (d :: rest) t = modsOf rest t :=
  List.filter_cons_of_neg (by simpa using h)

theorem modsOf_filter_isMod (tables : List Draft) (t : String) :
    modsOf (tables.filter Draft.isMod) t = modsOf tables t := by
  unfold modsOf
  rw [List.filter_filter]
  refine List.filter_congr fun m _ => ?_
  by_cases ht : m.target? = some t
  · simp [ht, Draft.isMod_iff.2 ⟨_, ht⟩]
  · simp [ht]

/-- The assembly holds table `d` as `mods` have changed it. -/
structure Shows (l : Linking) (d : Draft) (names : List String) (mods : List Draft)
    (a : Assembly) : Prop where
  shows : ∃ s n affix, a.tables.get? d.name = some (.sheet s) ∧
    a.info.get? d.name = some ⟨d.format, some n, affix⟩ ∧
    SheetHolds l (d :: mods) (givenCells d mods names) n s ∧
    (mods = [] ∧ n = d.rowCount ∨ n = names.length)

namespace Shows

variable {l : Linking} {enumerations : OrderedMap String Enumeration} {a a' : Assembly}
  {d : Draft} {names : List String} {mods : List Draft}

theorem frame (h : Shows l d names mods a) (tables : a'.tables.get? d.name = a.tables.get? d.name)
    (info : a'.info.get? d.name = a.info.get? d.name) : Shows l d names mods a' := by
  obtain ⟨s, n, affix, hs, hi, h⟩ := h.shows
  exact ⟨s, n, affix, tables.trans hs, info.trans hi, h⟩

theorem start (hd : d.Sound) (hf : d.format = .entities ∨ d.format = .anonymousRows)
    (h : (l.addTable enumerations a d).result = .ok a') : Shows l d names [] a' := by
  obtain ⟨n, hn⟩ := Linking.addSheet_of_format hf h
  obtain ⟨s, hs, tables, info⟩ := Linking.addSheet_eq_ok hn
  refine ⟨s, d.rowCount, d.entityAffix, ?_, ?_, ?_, .inl ⟨rfl, rfl⟩⟩
  · rw [tables, OrderedMap.get?_insert, if_pos rfl]
  · rw [info, OrderedMap.get?_insert, if_pos rfl]
  · exact (sheet_holds hd hs).congr fun field r => by simp [givenCells]

/-- A mod adds its cells to what its target shows. -/
theorem modify {m : Draft} {e : Enumeration} (h : Shows l d e.names mods a) (hd : d.Sound)
    (hm : m.Sound) (hf : d.format = .entities) (ht : m.target? = some d.name)
    (he : enumerations.get? d.name = some e) (inv : e.Inverse) (le : d.rowCount ≤ e.names.length)
    (ha : (l.addTable enumerations a m).result = .ok a') : Shows l d e.names (mods ++ [m]) a' := by
  obtain ⟨s, n, affix, hs, hi, hold, rows⟩ := h.shows
  obtain ⟨e', i, he', hi', info, ⟨hfe, -⟩ | ⟨-, s₁, n₁, s', wiki, hs₁, hn₁, hmod, tables⟩⟩ :=
    Linking.addMod_eq_ok (Linking.result_addTable_of_target ht ▸ ha)
  · rw [hi] at hi'
    cases hi'
    rw [hf] at hfe
    cases hfe
  · rw [hi] at hi'
    rw [he] at he'
    rw [hs] at hs₁
    cases hi'
    cases he'
    cases hs₁
    cases hn₁
    refine ⟨s', e.names.length, affix, ?_, ?_, ?_, .inr rfl⟩
    · rw [tables, OrderedMap.get?_insert, if_pos rfl]
    · rw [info, OrderedMap.get?_insert, if_pos rfl]
    · have held := modify_holds (t := ⟨d.name, e, n⟩) hm inv hold
        (fun field r un => givenCells_of_undeclared un _ _) ?_ ?_ hmod
      · exact held.congr fun field r => by rw [givenCells_snoc]
      · rcases rows with ⟨-, rfl⟩ | rfl
        · exact le
        · exact Nat.le_refl _
      · intro field r hne hr
        rcases rows with ⟨rfl, rfl⟩ | rfl
        · simp [givenCells, hd.cell?_eq_none hr]
        · exact absurd rfl hne

/-- All mods, those of other tables among them. -/
theorem modifyAll {rest : List Draft} (h : Shows l d names mods a) (hd : d.Sound)
    (sound : ∀ m ∈ rest, m.Sound) (isMod : ∀ m ∈ rest, m.isMod)
    (target : ∀ m ∈ rest, m.target? = some d.name → d.format = .entities ∧
      ∃ e, enumerations.get? d.name = some e ∧ e.Inverse ∧ d.rowCount ≤ e.names.length ∧
        e.names = names)
    (ha : (l.addTables enumerations a rest).result = .ok a') :
    Shows l d names (mods ++ modsOf rest d.name) a' := by
  induction rest generalizing mods a with
  | nil =>
    cases ha
    rwa [modsOf, List.filter_nil, List.append_nil]
  | cons m rest ih =>
    obtain ⟨a₁, h₁, ha⟩ := Linking.addTables_cons_eq_ok.1 ha
    rw [List.forall_mem_cons] at sound isMod target
    by_cases ht : m.target? = some d.name
    · obtain ⟨hf, e, he, inv, le, rfl⟩ := target.1 ht
      have step := h.modify hd sound.1 hf ht he inv le h₁
      rw [modsOf_cons_of_target ht, List.append_cons]
      exact ih step sound.2 isMod.2 target.2 ha
    · obtain ⟨t, ht'⟩ := Draft.isMod_iff.1 isMod.1
      have other : m.target?.getD m.name ≠ d.name := by
        rw [ht'] at ht ⊢
        exact fun e => ht (congrArg some e)
      obtain ⟨tables, info⟩ := Linking.addTable_frame h₁ other
      rw [modsOf_cons_of_ne ht]
      exact ih (h.frame tables info) sound.2 isMod.2 target.2 ha

/-- A value for every place, from the cell that decides. -/
theorem value (h : Shows l d names mods a) : ∃ s n affix,
    a.tables.get? d.name = some (.sheet s) ∧ a.info.get? d.name = some ⟨d.format, some n, affix⟩ ∧
    (mods = [] ∧ n = d.rowCount ∨ n = names.length) ∧ ∀ field, field ≠ nameField →
      ((s.get? field).isSome ↔ ∃ t ∈ d :: mods, (t.column? field).isSome) ∧
      ∀ f, s.get? field = some f → f.values.length = n ∧ ∀ r < n, ∃ g v,
        decidingCell d mods names field r = some g ∧ l.value g = .ok v ∧ f.values[r]? = some v := by
  obtain ⟨s, n, affix, hs, hi, hold, rows⟩ := h.shows
  refine ⟨s, n, affix, hs, hi, rows, fun field hn => ?_⟩
  cases hfirst : firstDefault (d :: mods) field with
  | none =>
    have absent := hold.absent field hn hfirst
    rw [firstDefault, List.findSome?_eq_none_iff] at hfirst
    rw [absent]
    refine ⟨iff_of_false (by simp) ?_, fun f hf => by cases hf⟩
    rintro ⟨t, ht, hc⟩
    rw [Draft.default?_eq_none.1 (hfirst t ht)] at hc
    cases hc
  | some first =>
    obtain ⟨f, hf, holds⟩ := hold.holds field first hn hfirst
    rw [hf]
    refine ⟨iff_of_true rfl ?_, fun f' hf' => ?_⟩
    · obtain ⟨t, ht, hc⟩ := List.exists_of_findSome?_eq_some hfirst
      refine ⟨t, ht, ?_⟩
      cases hcol : t.column? field with
      | none => rw [Draft.default?_eq_none.2 hcol] at hc; cases hc
      | some c => rfl
    · cases hf'
      refine ⟨holds.length, fun r hr => ?_⟩
      obtain ⟨v, hv, hval⟩ := holds.value r hr
      refine ⟨_, v, ?_, hval, hv⟩
      rw [decidingCell, hfirst]
      cases lastGiven (givenCells d mods names field r) <;> rfl

end Shows

/-! ## Runs -/

/-- The names of an owner by their rows. -/
def Store.namesOf (s : Store) (owner : String) : List String :=
  ((s.enumerations.get? owner).map Enumeration.names).getD []

/-- Two tables that are no mods have different names. -/
theorem eq_of_name {tables : List Draft}
    (nd : ((tables.filter (!·.isMod)).map Draft.name).Nodup) {b d : Draft} (hb : b ∈ tables)
    (hd : d ∈ tables) (hbm : b.isMod = false) (hdm : d.isMod = false) (hn : b.name = d.name) :
    b = d :=
  List.inj_on_of_nodup_map nd (by simp [hb, hbm]) (by simp [hd, hdm]) hn

/-- A table that a mod targets has an enumeration, which starts with its own rows. -/
theorem Linked.enumeration_of_target {predefined : Predefined} {tables : List Draft} {n : Names}
    (h : Linked predefined.toList tables n)
    (nd : ((tables.filter (!·.isMod)).map Draft.name).Nodup) {d m : Draft} (sound : d.Sound)
    (hd : d ∈ tables) (hdm : d.isMod = false) (hm : m ∈ tables) (ht : m.target? = some d.name) :
    d.format.isEnumerated ∧
      ∃ e, n.enumerations.get? d.name = some e ∧ e.Inverse ∧ d.rowCount ≤ e.names.length := by
  obtain ⟨b, hb, hbe, hbr, hbn⟩ := h.target m hm _ ht
  cases eq_of_name nd hb hd (Draft.isMod_of_isEnumerated hbe) hdm hbn
  obtain ⟨e, he, inv, le⟩ := h.table d hd hbe hbr
  refine ⟨hbe, e, he, inv, ?_⟩
  rw [← sound.length_rowNames hbr]
  exact le.length_le

/-- Without mods a table has the names that it gives its own rows. -/
theorem Linked.names_eq {predefined : Predefined} {tables : List Draft} {n : Names}
    (h : Linked predefined.toList tables n)
    (nd : ((tables.filter (!·.isMod)).map Draft.name).Nodup) {d : Draft} (hd : d ∈ tables)
    (hde : d.format.isEnumerated) (hdr : d.rowNames ≠ []) (none : modsOf tables d.name = [])
    {e : Enumeration} (he : n.enumerations.get? d.name = some e) : e.names = d.rowNames := by
  obtain ⟨e', he', inv, rest, hrest⟩ := h.table d hd hde hdr
  rw [he] at he'
  cases he'
  -- a further name would be declared by `d` alone
  have nil : rest = [] := by
    refine List.eq_nil_iff_forall_not_mem.2 fun name hm => ?_
    have owns : n.Owns d.name name :=
      h.coherent.owns_iff.2 ⟨e, he, inv.mem_keys.2 (by simp [← hrest, hm])⟩
    have own : name ∈ d.rowNames := by
      generalize ho : d.name = o at owns
      cases (h.owns_iff _ _).1 owns with
      | member hp _ => exact absurd ho.symm (h.apart d hd hde _ hp)
      | row hb hbe hn =>
        cases eq_of_name nd hb hd (Draft.isMod_of_isEnumerated hbe)
          (Draft.isMod_of_isEnumerated hde) ho.symm
        exact hn
      | @modRow m _ _ hb ht _ =>
        have : m ∈ modsOf tables d.name := List.mem_filter.2 ⟨hb, by simpa [ho] using ht⟩
        rw [none] at this
        cases this
    have := inv.nodup
    rw [← hrest, List.nodup_append] at this
    exact this.2.2 name own name hm rfl
  rw [← hrest, nil, List.append_nil]

/-- **The last writer wins.** A table of entities or of rows without names holds the fields that it
or a mod of it declares, and its rows are those of its names if it has any. In every row stands the
value of the last cell that is given for it and not empty, resolved with the texts, the type and the
unit of the table that gives it; if there is none, that of the default of the first table to declare
the field. -/
theorem link_lastWriter {units : Units.Converter} {options : LinkOptions} {tables : List Draft}
    {predefined : Predefined} {s : Store} (parsed : ∀ d ∈ tables, d.Parsed)
    (h : (link units options tables predefined).result = .ok s) {d : Draft} (hd : d ∈ tables)
    (hf : d.format = .entities ∨ d.format = .anonymousRows) :
    ∃ sheet n, s.sheet? d.name = some sheet ∧ s.rowCount? d.name = some n ∧
      (d.format = .entities → d.rowNames ≠ [] → (s.namesOf d.name).length = n) ∧
      ∀ field, field ≠ nameField →
        ((sheet.get? field).isSome ↔
          ∃ t ∈ d :: modsOf tables d.name, (t.column? field).isSome) ∧
        ∀ f, sheet.get? field = some f → f.values.length = n ∧ ∀ r < n, ∃ g v,
          decidingCell d (modsOf tables d.name) (s.namesOf d.name) field r = some g ∧
          Linking.value ⟨units, options, s.entities⟩ g = .ok v ∧ f.values[r]? = some v := by
  obtain ⟨nd, names, a, hn, ha, rfl⟩ := link_eq_ok_iff.1 h
  have linked := linkNames_linked nd hn
  have dm : d.isMod = false := by
    rcases hf with hf | hf <;> simp [Draft.isMod, hf]
  -- the tables before `d`, the other tables after it, the mods
  obtain ⟨pre, post, split⟩ := List.append_of_mem
    (show d ∈ tables.filter (!·.isMod) by simp [hd, dm])
  rw [modsLast, split, List.append_assoc, List.cons_append] at ha
  obtain ⟨a₁, -, ha⟩ := Linking.addTables_append_eq_ok.1 ha
  obtain ⟨a₂, h₂, ha⟩ := Linking.addTables_cons_eq_ok.1 ha
  obtain ⟨a₃, h₃, ha⟩ := Linking.addTables_append_eq_ok.1 ha
  have sound : ∀ b ∈ tables, b.Sound := fun b hb => (parsed b hb).sound
  have others : ∀ b ∈ post, b.target?.getD b.name ≠ d.name := by
    intro b hb
    have hbm : b ∈ tables.filter (!·.isMod) := by simp [split, hb]
    have none : b.target? = none := Draft.target?_eq_none (by simpa using (List.mem_filter.1 hbm).2)
    rw [split, List.map_append, List.nodup_append, List.map_cons, List.nodup_cons] at nd
    rw [none]
    exact fun e => nd.2.1.1 (List.mem_map.2 ⟨b, hb, e⟩)
  have target : ∀ m ∈ tables.filter Draft.isMod, m.target? = some d.name → d.format = .entities ∧
      ∃ e, names.enumerations.get? d.name = some e ∧ e.Inverse ∧ d.rowCount ≤ e.names.length ∧
        e.names = ((names.enumerations.get? d.name).map Enumeration.names).getD [] := by
    intro m hm ht
    obtain ⟨hde, e, he, inv, le⟩ :=
      linked.enumeration_of_target nd (sound d hd) hd dm (List.mem_filter.1 hm).1 ht
    refine ⟨?_, e, he, inv, le, by rw [he]; rfl⟩
    rcases hf with hf | hf
    · exact hf
    · rw [hf] at hde
      cases hde
  have start : Shows ⟨units, options, names.entities⟩ d
      (((names.enumerations.get? d.name).map Enumeration.names).getD []) [] a₂ :=
    Shows.start (sound d hd) hf h₂
  obtain ⟨tables₃, info₃⟩ := Linking.addTables_frame h₃ others
  have final := (start.frame tables₃ info₃).modifyAll (sound d hd)
    (fun m hm => sound m (List.mem_filter.1 hm).1) (fun m hm => (List.mem_filter.1 hm).2) target ha
  rw [List.nil_append, modsOf_filter_isMod] at final
  obtain ⟨sheet, n, affix, hs, hi, rows, value⟩ := final.value
  refine ⟨sheet, n, ?_, ?_, fun hde hdr => ?_, value⟩
  · simp only [Store.sheet?, hs]
  · simp only [Store.rowCount?, hi, Option.bind_some]
  · rcases rows with ⟨none, rfl⟩ | rfl
    · have hde : d.format.isEnumerated := by rw [hde]; rfl
      obtain ⟨e, he, -, -⟩ := linked.table d hd hde hdr
      rw [← (sound d hd).length_rowNames hdr, ← linked.names_eq nd hd hde hdr none he]
      simp only [Store.namesOf, he, Option.map_some, Option.getD_some]
    · rfl

/-- The ages of the pets: a cell of the table, one that a mod overwrites, one that it adds. -/
theorem pets_lastWriter : ∃ s d sheet f, (link {} {} Draft.pets ∅).result = .ok s ∧
    d ∈ Draft.pets ∧ d.name = "Pet" ∧ s.sheet? d.name = some sheet ∧
    sheet.get? "age" = some f ∧ f.values.map Value.integer? = [some 3, some 6, some 2] ∧
    ∀ r < 3, ∃ g v,
      decidingCell d (modsOf Draft.pets d.name) (s.namesOf d.name) "age" r = some g ∧
      Linking.value ⟨{}, {}, s.entities⟩ g = .ok v ∧ f.values[r]? = some v := by
  have parsed : ∀ d ∈ Draft.pets, d.Parsed := fun d => Draft.parsed_of_mem_readAll
  have first : Draft.pets.head?.map (fun d => (d.name, d.format)) = some ("Pet", .entities) := by
    decide +kernel
  have run : ((link {} {} Draft.pets ∅).result.toOption.map fun s =>
      ((s.sheet? "Pet").bind fun sheet => sheet.get? "age").map fun f =>
        f.values.map Value.integer?) = some (some [some 3, some 6, some 2]) := by
    decide +kernel
  obtain ⟨d, hd, hdf⟩ := Option.map_eq_some_iff.1 first
  rw [Prod.mk.injEq] at hdf
  obtain ⟨s, h, hs⟩ := toOption_map_eq_some.1 run
  have mem : d ∈ Draft.pets := List.mem_of_mem_head? (by rw [hd]; rfl)
  obtain ⟨sheet, n, hsheet, -, -, value⟩ := link_lastWriter parsed h mem (.inl hdf.2)
  rw [← hdf.1, hsheet] at hs
  obtain ⟨f, hf, hvalues⟩ := Option.map_eq_some_iff.1 hs
  obtain ⟨length, value⟩ := (value "age" (by decide)).2 f hf
  have hn : n = 3 := by
    have := congrArg List.length hvalues
    rw [List.length_map, length] at this
    exact this
  subst hn
  exact ⟨s, d, sheet, f, h, mem, hdf.1, hsheet, hf, hvalues, value⟩

end TypedTables
