import TypedTables.Proofs.ModSteps
import TypedTables.Proofs.SheetShape
/-!
# Repeated mods

A mod that stands twice in a row is applied twice, and the second time changes nothing: its names
are rows by then, its fields are there, and each of its cells stands where it is written. That needs
its places to differ: two cells of one mod never have the same row and the same column.

Results:
* `writeCell_again`, `writeCell_keeps`: a cell that is written stays until its place is written.
* `modify_again`: from them, a whole mod.
* `Names.addMod_again`: the names of a mod.
* `link_repeatedMod`: a run with the mod twice ends as the run with the mod once.
-/
namespace TypedTables

/-! ## Fields -/

namespace Field

variable {f f' : Field} {row row' : Nat} {v v' : Value} {k k' : Int}

theorem written_again (f : Field) (row : Nat) (v : Value) (k : Int) :
    (f.written row v k).written row v k = f.written row v k := by
  simp [written, Function.comp_def]

theorem written_comm (f : Field) (apart : row ≠ row') :
    (f.written row' v' k').written row v k = (f.written row v k).written row' v' k' := by
  simp [written, Function.comp_def, List.set_comm _ _ apart]

theorem written_inside {row₀ : Nat} (h : ∀ ds, f.precisions = some ds → row < ds.length) :
    ∀ ds, (f.written row₀ v k).precisions = some ds → row < ds.length := by
  intro ds hds
  obtain ⟨old, ho, rfl⟩ := Option.map_eq_some_iff.1 hds
  rw [List.length_set]
  exact h old ho

theorem write_again (h : f.write row v k = .ok f') : f'.write row v k = .ok f' := by
  obtain ⟨hr, hds, rfl⟩ := write_eq_ok_iff.1 h
  rw [write_eq_ok_iff]
  exact ⟨by rwa [written, List.length_set], written_inside hds, (written_again f row v k).symm⟩

/-- What stands in a row stays when another row is written. -/
theorem write_keeps (apart : row ≠ row') (h : f.write row v k = .ok f)
    (hw : f.write row' v' k' = .ok f') : f'.write row v k = .ok f' := by
  obtain ⟨hr, hds, same⟩ := write_eq_ok_iff.1 h
  obtain ⟨-, -, rfl⟩ := write_eq_ok_iff.1 hw
  rw [write_eq_ok_iff]
  refine ⟨by rwa [written, List.length_set], written_inside hds, ?_⟩
  rw [written_comm f apart, ← same]

end Field

/-! ## Cells -/

section Steps

variable {l : Linking} {d : Draft} {t : Target} {s s' : Sheet} {row row' : Nat} {c c' : Column}
  {raw raw' : Raw} {wiki wiki' : OrderedMap String String} {name name' : String}

theorem Field.digitsOf_write {f f' : Field} {v : Value} {k : Int} (h : f.write row v k = .ok f')
    (raw : Raw) : f'.digitsOf raw = f.digitsOf raw := by
  obtain ⟨-, -, rfl⟩ := write_eq_ok_iff.1 h
  unfold digitsOf written
  rw [Option.isSome_map]

theorem writeCell_again (h : l.writeCell d row s c raw = .ok s') :
    l.writeCell d row s' c raw = .ok s' := by
  rw [writeCell_eq_ok_iff] at h ⊢
  split at h
  · next he => rw [if_pos he]
  · next he =>
    obtain ⟨v, f, k, f', hv, hf, hk, hw, rfl⟩ := h
    rw [if_neg he]
    refine ⟨v, f', k, f', hv, by rw [OrderedMap.get?_insert, if_pos rfl], ?_,
      Field.write_again hw, (OrderedMap.insert_insert ..).symm⟩
    rw [Field.digitsOf_write hw, hk]

/-- A cell that stands in its place stays when another place is written. -/
theorem writeCell_keeps (apart : c.name ≠ c'.name ∨ row ≠ row')
    (h : l.writeCell d row s c raw = .ok s) (hw : l.writeCell d row' s c' raw' = .ok s') :
    l.writeCell d row s' c raw = .ok s' := by
  rw [writeCell_eq_ok_iff] at hw
  split at hw
  · rwa [hw]
  · obtain ⟨v', f', k', g', -, hf', -, hw', rfl⟩ := hw
    rw [writeCell_eq_ok_iff] at h ⊢
    split at h
    · next he => rw [if_pos he]
    · next he =>
      obtain ⟨v, f, k, g, hv, hf, hk, hw, same⟩ := h
      -- the field holds the value already
      have stands : g = f := by
        rw [same, OrderedMap.get?_insert, if_pos rfl] at hf
        exact Option.some.inj hf
      rw [stands] at hw
      rw [if_neg he]
      by_cases hc : c.name = c'.name
      · rw [← hc, hf] at hf'
        cases hf'
        have hr : row ≠ row' := apart.resolve_left (not_not_intro hc)
        rw [← hc]
        refine ⟨v, g', k, g', hv, by rw [OrderedMap.get?_insert, if_pos rfl], ?_,
          Field.write_keeps hr hw hw', (OrderedMap.insert_insert ..).symm⟩
        rw [Field.digitsOf_write hw', hk]
      · have hget : (s.insert c'.name g').get? c.name = some f := by
          rw [OrderedMap.get?_insert, if_neg (Ne.symm hc), hf]
        exact ⟨v, f, k, f, hv, hget, hk, hw, (OrderedMap.insert_of_get? hget).symm⟩

theorem addTitle_again (h : l.addTitle d wiki name raw = .ok wiki') :
    l.addTitle d wiki' name raw = .ok wiki' := by
  rw [addTitle_eq_ok_iff] at h ⊢
  split at h
  · next blank => rw [if_pos blank]
  · next given =>
    obtain ⟨title, ht, rfl⟩ := h
    rw [if_neg given]
    exact ⟨title, ht, (OrderedMap.insert_insert ..).symm⟩

theorem addTitle_keeps (apart : name ≠ name') (h : l.addTitle d wiki name raw = .ok wiki)
    (hw : l.addTitle d wiki name' raw' = .ok wiki') : l.addTitle d wiki' name raw = .ok wiki' := by
  rw [addTitle_eq_ok_iff] at hw
  split at hw
  · rwa [hw]
  · obtain ⟨title', -, rfl⟩ := hw
    rw [addTitle_eq_ok_iff] at h ⊢
    split at h
    · next blank => rw [if_pos blank]
    · next given =>
      obtain ⟨title, ht, same⟩ := h
      rw [if_neg given]
      refine ⟨title, ht, (OrderedMap.insert_of_get? ?_).symm⟩
      rw [OrderedMap.get?_insert, if_neg (Ne.symm apart), same, OrderedMap.get?_insert, if_pos rfl]

/-! ## Rows -/

variable {title : Option Column} {st st' : Sheet × OrderedMap String String}

/-- The cell of a mod stands in its row, and its title is recorded if it is one. -/
structure Settled (l : Linking) (d : Draft) (title : Option Column) (name : String) (row : Nat)
    (st : Sheet × OrderedMap String String) (p : Column × Raw) : Prop where
  cell : l.writeCell d row st.1 p.1 p.2 = .ok st.1
  title : (title.any fun t => t.name == p.1.name) → l.addTitle d st.2 name p.2 = .ok st.2

theorem writeRow_of_settled {cells : List (Column × Raw)}
    (h : ∀ p ∈ cells, Settled l d title name row st p) :
    l.writeRow d title name row st cells = .ok st := by
  induction cells with
  | nil => rfl
  | cons p cells ih =>
    rw [List.forall_mem_cons] at h
    rw [writeRow_cons_eq_ok]
    refine ⟨st.1, st.2, h.1.cell, ?_, ih h.2⟩
    split
    · next titled => exact h.1.title titled
    · rfl

/-- A cell stays when cells of other columns, or of another row, are written. -/
theorem Settled.writeRow {p : Column × Raw} {cells : List (Column × Raw)}
    (h : Settled l d title name row st p)
    (apart : (∀ q ∈ cells, p.1.name ≠ q.1.name) ∨ name ≠ name' ∧ row ≠ row')
    (hw : l.writeRow d title name' row' st cells = .ok st') : Settled l d title name row st' p := by
  induction cells generalizing st with
  | nil =>
    cases hw
    exact h
  | cons q cells ih =>
    obtain ⟨s, wiki, hs, ht, hw⟩ := writeRow_cons_eq_ok.1 hw
    have rest : (∀ q ∈ cells, p.1.name ≠ q.1.name) ∨ name ≠ name' ∧ row ≠ row' :=
      apart.imp_left fun h q' hq => h q' (List.mem_cons_of_mem _ hq)
    have here : p.1.name ≠ q.1.name ∨ name ≠ name' ∧ row ≠ row' :=
      apart.imp_left fun h => h q List.mem_cons_self
    refine ih ⟨writeCell_keeps (here.imp_right And.right) h.cell hs, fun titled => ?_⟩ rest hw
    have recorded := h.title titled
    split at ht
    · next titled' =>
      -- one column has the titles, so the rows differ
      have same : p.1.name = q.1.name := by
        obtain ⟨t, rfl⟩ : ∃ t, title = some t := by
          cases title with
          | none => cases titled
          | some t => exact ⟨t, rfl⟩
        rw [Option.any_some, beq_iff_eq] at titled titled'
        rw [← titled, titled']
      exact addTitle_keeps (here.resolve_left (not_not_intro same)).1 recorded ht
    · rwa [ht]

theorem settled_of_writeRow {cells : List (Column × Raw)} (nd : (cells.map (·.1.name)).Nodup)
    (hw : l.writeRow d title name row st cells = .ok st') :
    ∀ p ∈ cells, Settled l d title name row st' p := by
  induction cells generalizing st with
  | nil => simp
  | cons p cells ih =>
    rw [List.map_cons, List.nodup_cons] at nd
    obtain ⟨s, wiki, hs, ht, hw⟩ := writeRow_cons_eq_ok.1 hw
    have first : Settled l d title name row (s, wiki) p := by
      refine ⟨writeCell_again hs, fun titled => ?_⟩
      rw [if_pos titled] at ht
      exact addTitle_again ht
    refine List.forall_mem_cons.2 ⟨first.writeRow (.inl fun q hq same => ?_) hw, ih nd.2 hw⟩
    exact nd.1 (same ▸ List.mem_map_of_mem hq)

/-- The cells of a row of a mod stand in the row of its name. -/
def SettledRow (l : Linking) (d : Draft) (e : Enumeration) (title : Option Column)
    (st : Sheet × OrderedMap String String) (r : String × Nat) : Prop :=
  ∃ row cells, e.rows.get? r.1 = some row ∧ cellsAt d.columns r.2 = .ok cells ∧
    ∀ p ∈ cells, Settled l d title r.1 row st p

theorem writeRows_of_settled {rows : List (String × Nat)}
    (h : ∀ r ∈ rows, SettledRow l d t.enumeration title st r) :
    l.writeRows d t title st rows = .ok st := by
  induction rows with
  | nil => rfl
  | cons r rows ih =>
    rw [List.forall_mem_cons] at h
    obtain ⟨row, cells, hrow, hcells, settled⟩ := h.1
    exact writeRows_cons_eq_ok.2
      ⟨row, cells, st, hrow, hcells, writeRow_of_settled settled, ih h.2⟩

/-- A row stays when the rows of other names are written. -/
theorem SettledRow.writeRows {r : String × Nat} {rows : List (String × Nat)}
    (inv : t.enumeration.Inverse) (h : SettledRow l d t.enumeration title st r)
    (apart : r.1 ∉ rows.map Prod.fst) (hw : l.writeRows d t title st rows = .ok st') :
    SettledRow l d t.enumeration title st' r := by
  induction rows generalizing st with
  | nil =>
    cases hw
    exact h
  | cons q rows ih =>
    rw [List.map_cons, List.mem_cons, not_or] at apart
    obtain ⟨row, cells, hrow, hcells, settled⟩ := h
    obtain ⟨row', cells', st₁, hrow', -, h₁, hw⟩ := writeRows_cons_eq_ok.1 hw
    have rows_apart : row ≠ row' := by
      intro same
      rw [inv.row_iff] at hrow hrow'
      rw [same, hrow'] at hrow
      exact apart.1 (Option.some.inj hrow).symm
    refine ih ⟨row, cells, hrow, hcells, fun p hp => ?_⟩ apart.2 hw
    exact (settled p hp).writeRow (.inr ⟨apart.1, rows_apart⟩) h₁

theorem settled_of_writeRows {rows : List (String × Nat)} (inv : t.enumeration.Inverse)
    (fields : (d.columns.map Column.name).Nodup) (nd : (rows.map Prod.fst).Nodup)
    (hw : l.writeRows d t title st rows = .ok st') :
    ∀ r ∈ rows, SettledRow l d t.enumeration title st' r := by
  induction rows generalizing st with
  | nil => simp
  | cons r rows ih =>
    rw [List.map_cons, List.nodup_cons] at nd
    obtain ⟨row, cells, st₁, hrow, hcells, h₁, hw⟩ := writeRows_cons_eq_ok.1 hw
    have distinct : (cells.map (·.1.name)).Nodup := by
      rw [← cellsAt_columns hcells, List.map_map] at fields
      exact fields
    have first : SettledRow l d t.enumeration title st₁ r :=
      ⟨row, cells, hrow, hcells, settled_of_writeRow distinct h₁⟩
    exact List.forall_mem_cons.2 ⟨first.writeRows inv nd.1 hw, ih nd.2 hw⟩

/-! ## A mod -/

/-- The columns of a mod have their fields when they are added, and keep those that are there. -/
theorem addFields_covers {columns : List Column}
    (h : columns.foldlM (l.addField d t) s = .ok s') :
    (∀ c ∈ columns, l.checkUnit d c.unit c.name = .ok ()) ∧ s'.Covers columns ∧
      ∀ field f, s.get? field = some f → s'.get? field = some f := by
  induction columns generalizing s with
  | nil =>
    cases h
    exact ⟨by simp, fun c hc => (List.not_mem_nil hc).elim, fun _ _ => id⟩
  | cons c columns ih =>
    rw [List.foldlM_cons] at h
    obtain ⟨s₁, h₁, h⟩ := bind_eq_ok.1 h
    obtain ⟨units, covers, kept⟩ := ih h
    obtain ⟨hu, ⟨f, hf, type, rfl⟩ | ⟨none, default, -, rfl⟩⟩ := addField_eq_ok h₁
    · exact ⟨List.forall_mem_cons.2 ⟨hu, units⟩,
        List.forall_mem_cons.2 ⟨⟨f, kept _ f hf, type⟩, covers⟩, kept⟩
    · have new : (s.insert c.name (l.imputed c default t.rowCount)).get? c.name =
          some (l.imputed c default t.rowCount) := by
        rw [OrderedMap.get?_insert, if_pos rfl]
      refine ⟨List.forall_mem_cons.2 ⟨hu, units⟩,
        List.forall_mem_cons.2 ⟨⟨_, kept _ _ new, rfl⟩, covers⟩, fun field f hf => ?_⟩
      have : c.name ≠ field := fun same => by rw [← same, none] at hf; cases hf
      exact kept field f (by rw [OrderedMap.get?_insert, if_neg this, hf])

theorem addFields_of_covers {columns : List Column}
    (units : ∀ c ∈ columns, l.checkUnit d c.unit c.name = .ok ()) (h : s.Covers columns) :
    columns.foldlM (l.addField d t) s = .ok s := by
  induction columns with
  | nil => rfl
  | cons c columns ih =>
    rw [List.forall_mem_cons] at units
    obtain ⟨f, hf, type⟩ := h c List.mem_cons_self
    have step : l.addField d t s c = .ok s := by
      unfold Linking.addField
      rw [units.1, hf]
      exact if_neg (not_not_intro type)
    rw [List.foldlM_cons, step]
    exact ih units.2 fun c' hc' => h c' (List.mem_cons_of_mem _ hc')

namespace Sheet.Covers

variable {columns : List Column}

theorem writeCell (h : s.Covers columns) (hw : l.writeCell d row s c raw = .ok s') :
    s'.Covers columns := by
  rw [writeCell_eq_ok_iff] at hw
  split at hw
  · rwa [hw]
  · obtain ⟨v, f, k, f', -, hf, -, hw, rfl⟩ := hw
    obtain ⟨-, -, rfl⟩ := Field.write_eq_ok_iff.1 hw
    intro c' hc'
    obtain ⟨g, hg, type⟩ := h c' hc'
    rw [OrderedMap.get?_insert]
    split
    · next same =>
      rw [← same, hf] at hg
      cases hg
      exact ⟨_, rfl, type⟩
    · exact ⟨g, hg, type⟩

theorem writeRow {cells : List (Column × Raw)} (h : st.1.Covers columns)
    (hw : l.writeRow d title name row st cells = .ok st') : st'.1.Covers columns := by
  induction cells generalizing st with
  | nil =>
    cases hw
    exact h
  | cons p cells ih =>
    obtain ⟨s, wiki, hs, -, hw⟩ := writeRow_cons_eq_ok.1 hw
    have covers : s.Covers columns := h.writeCell hs
    exact ih covers hw

theorem writeRows {rows : List (String × Nat)} (h : st.1.Covers columns)
    (hw : l.writeRows d t title st rows = .ok st') : st'.1.Covers columns := by
  induction rows generalizing st with
  | nil =>
    cases hw
    exact h
  | cons r rows ih =>
    obtain ⟨row, cells, st₁, -, -, h₁, hw⟩ := writeRows_cons_eq_ok.1 hw
    exact ih (h.writeRow h₁) hw

end Sheet.Covers

/-- **A mod again.** When all rows are there, a mod changes nothing that it has written. -/
theorem modify_again (sound : d.Sound) (inv : t.enumeration.Inverse)
    (h : l.modify d t s wiki = .ok st') :
    l.modify d { t with rowCount := t.enumeration.names.length } st'.1 st'.2 = .ok st' := by
  obtain ⟨s₁, title, h₁, ht, hw⟩ := modify_eq_ok_iff.1 h
  obtain ⟨units, covers, -⟩ := addFields_covers h₁
  have final : st'.1.Covers d.columns := Sheet.Covers.writeRows (growSheet_covers covers) hw
  have settled := settled_of_writeRows inv sound.fields_nodup
    (d.keys_zipIdx.symm ▸ sound.rows_nodup) hw
  have full : growSheet { t with rowCount := t.enumeration.names.length } st'.1 = st'.1 := by
    unfold growSheet
    exact if_pos (Nat.sub_self _)
  refine modify_eq_ok_iff.2 ⟨st'.1, title, addFields_of_covers units final, ht, ?_⟩
  rw [full]
  exact writeRows_of_settled settled

end Steps

namespace Linking

variable {l : Linking} {enumerations : OrderedMap String Enumeration} {a a' : Assembly} {d : Draft}
  {target : String}

theorem addMod_again (sound : d.Sound)
    (inv : ∀ e, enumerations.get? target = some e → e.Inverse)
    (h : l.addMod enumerations a d target = .ok a') :
    l.addMod enumerations a' d target = .ok a' := by
  rw [addMod_eq_ok_iff] at h ⊢
  obtain ⟨e, info, he, hi, h⟩ := h
  refine ⟨e, { info with rowCount := some e.names.length }, he, ?_⟩
  split at h
  · next enumeration =>
    obtain ⟨columns, rfl⟩ := h
    refine ⟨by rw [OrderedMap.get?_insert, if_pos rfl], ?_⟩
    rw [if_pos enumeration, OrderedMap.insert_insert]
    exact ⟨columns, rfl⟩
  · next entities =>
    obtain ⟨s, n, st, hs, hn, hm, rfl⟩ := h
    refine ⟨by rw [OrderedMap.get?_insert, if_pos rfl], ?_⟩
    rw [if_neg entities]
    refine ⟨st.1, e.names.length, st, by rw [OrderedMap.get?_insert, if_pos rfl], rfl,
      modify_again sound (inv e he) hm, ?_⟩
    rw [OrderedMap.insert_insert, OrderedMap.insert_insert]

end Linking

/-! ## Names -/

namespace Names

theorem extend_of_known (n : Names) {owner : String} {e : Enumeration} {names : List String}
    (h : ∀ name ∈ names, name ∈ e.rows.keys) : n.extend owner e names = .ok (n, e) := by
  induction names with
  | nil => rfl
  | cons name rest ih =>
    rw [List.forall_mem_cons, ← OrderedMap.contains_iff] at h
    rw [extend, if_pos h.1]
    exact ih h.2

/-- The target of a mod has its names, so the mod has none to add to it again. -/
theorem addMod_again {n n' : Names} {d : Draft} {target : String} {added : Nat}
    (h : n.addMod d target = .ok (n', added)) : n'.addMod d target = .ok (n', 0) := by
  obtain ⟨i, e, n₁, e', hi, entities, he, hx, rfl, -⟩ := addMod_eq_ok_iff.1 h
  have x := extend_spec hx
  refine addMod_eq_ok_iff.2 ⟨i, e', _, e', x.info ▸ hi, entities,
    by rw [OrderedMap.get?_insert, if_pos rfl],
    extend_of_known _ fun name hn => (x.mem_keys name).2 (.inr hn), ?_, (Nat.sub_self _).symm⟩
  rw [OrderedMap.insert_insert]

theorem addMods_append (n : Names) (first rest : List Draft) :
    (n.addMods (first ++ rest)).result =
      (n.addMods first).result >>= fun n => (n.addMods rest).result := by
  induction first generalizing n with
  | nil => rfl
  | cons d first ih =>
    rw [List.cons_append]
    cases ht : d.target? with
    | none =>
      have skip : ∀ ds, n.addMods (d :: ds) = n.addMods ds := fun ds => by
        rw [addMods, ht]
      rw [skip, skip, ih]
    | some target =>
      rw [result_addMods_cons ht, result_addMods_cons ht, bind_assoc]
      exact bind_congr fun p => ih p.1

theorem addTables_append_cons_of_isMod {m : Draft} (hm : m.isMod) (n : Names)
    (before after : List Draft) :
    n.addTables (before ++ m :: after) = n.addTables (before ++ after) := by
  induction before generalizing n with
  | nil =>
    have notTable : ¬ m.format.isEnumerated := fun he => by
      rw [Draft.isMod_of_isEnumerated he] at hm
      cases hm
    exact if_neg notTable
  | cons d before ih => simp only [List.cons_append, addTables, ih]

/-- The mod finds its own names when it comes again. -/
theorem addMods_repeated {m : Draft} {t : String} (ht : m.target? = some t) {n n' : Names}
    {before after : List Draft} (h : (n.addMods (before ++ m :: after)).result = .ok n') :
    (n.addMods (before ++ m :: m :: after)).result = .ok n' := by
  rw [addMods_append, bind_eq_ok] at h ⊢
  obtain ⟨n₁, h₁, h⟩ := h
  rw [result_addMods_cons ht, bind_eq_ok] at h
  obtain ⟨⟨n₂, added⟩, h₂, h⟩ := h
  refine ⟨n₁, h₁, ?_⟩
  rw [result_addMods_cons ht, h₂]
  show (n₂.addMods (m :: after)).result = _
  rw [result_addMods_cons ht, addMod_again h₂]
  exact h

end Names

/-! ## Runs -/

theorem modsLast_append_cons {m : Draft} (hm : m.isMod) (before after : List Draft) :
    modsLast (before ++ m :: after) =
      ((before ++ after).filter (!·.isMod) ++ before.filter Draft.isMod) ++
        m :: after.filter Draft.isMod := by
  simp [modsLast, hm]

section Runs

variable {before after : List Draft} {m : Draft} {predefined : Predefined}

theorem linkNames_repeatedMod {t : String} (ht : m.target? = some t) {n : Names}
    (h : (linkNames (before ++ m :: after) predefined).result = .ok n) :
    (linkNames (before ++ m :: m :: after) predefined).result = .ok n := by
  have hm : m.isMod := Draft.isMod_iff.2 ⟨t, ht⟩
  unfold linkNames at h ⊢
  simp only [Logged.result_bind, Logged.result_ofExcept, bind_eq_ok] at h ⊢
  obtain ⟨n₁, h₁, n₂, h₂, h⟩ := h
  refine ⟨n₁, h₁, n₂, ?_, Names.addMods_repeated ht h⟩
  rw [Names.addTables_append_cons_of_isMod hm] at h₂ ⊢
  rw [Names.addTables_append_cons_of_isMod hm, h₂]

theorem addTables_repeatedMod {l : Linking} {enumerations : OrderedMap String Enumeration}
    {a a' : Assembly} {t : String} (ht : m.target? = some t) (sound : m.Sound)
    (inv : ∀ e, enumerations.get? t = some e → e.Inverse)
    (h : (l.addTables enumerations a (before ++ m :: after)).result = .ok a') :
    (l.addTables enumerations a (before ++ m :: m :: after)).result = .ok a' := by
  obtain ⟨a₁, h₁, h⟩ := Linking.addTables_append_eq_ok.1 h
  obtain ⟨a₂, h₂, h⟩ := Linking.addTables_cons_eq_ok.1 h
  have again : (l.addTable enumerations a₂ m).result = .ok a₂ := by
    rw [Linking.result_addTable_of_target ht] at h₂ ⊢
    exact Linking.addMod_again sound inv h₂
  refine Linking.addTables_append_eq_ok.2 ⟨a₁, h₁, Linking.addTables_cons_eq_ok.2 ⟨a₂, h₂, ?_⟩⟩
  exact Linking.addTables_cons_eq_ok.2 ⟨a₂, again, h⟩

/-- **Repeated mods.** A second copy of a mod right after the first changes nothing: the run
succeeds if it does with one, and its store is the same, the order of everything in it included. -/
theorem link_repeatedMod {units : Units.Converter} {options : LinkOptions} {s : Store}
    (parsed : ∀ d ∈ before ++ m :: after, d.Parsed) (hm : m.isMod)
    (h : (link units options (before ++ m :: after) predefined).result = .ok s) :
    (link units options (before ++ m :: m :: after) predefined).result = .ok s := by
  obtain ⟨nd, n, a, hn, ha, rfl⟩ := link_eq_ok_iff.1 h
  obtain ⟨t, ht⟩ := Draft.isMod_iff.1 hm
  have member : m ∈ before ++ m :: after := by simp
  have linked := linkNames_linked nd hn
  have inv : ∀ e, n.enumerations.get? t = some e → e.Inverse := by
    obtain ⟨b, hb, hbe, -, rfl⟩ := linked.target m member t ht
    exact fun e he => linked.inverse_of_table hb hbe he
  have twice : modsLast (before ++ m :: m :: after) =
      ((before ++ after).filter (!·.isMod) ++ before.filter Draft.isMod) ++
        m :: m :: after.filter Draft.isMod := by
    simp [modsLast, hm]
  rw [modsLast_append_cons hm] at hn ha
  refine link_eq_ok_iff.2 ⟨by simpa [hm] using nd, n, a, ?_, ?_, rfl⟩
  · rw [twice]
    exact linkNames_repeatedMod ht hn
  · rw [twice]
    exact addTables_repeatedMod ht (parsed m member).sound inv ha

end Runs

/-- Flowers with titles. -/
def Draft.flowers : List Draft := readAll [
  ("Flower", ["@DB_ENTITIES", "flower\ten.wiki\theight", "Type\tSTRING\tFLOAT", "rose\tRose\t2.50",
    "iris\t\t12"])]

/-- A mod that gives a title, adds a field with a default, and adds a flower. -/
def Draft.moreFlowers : List Draft := readAll [
  ("MoreFlowers", ["@DB_ENTITIES_MOD", "@MODIFIES=Flower", "flower\ten.wiki\theight\tpetals",
    "Type\tSTRING\tFLOAT\tINT", "Default\t\t\t5", "iris\tIris\t\t3", "lily\tLily\t1.0\t6"])]

/-- A mod that comes later, and writes over both. -/
def Draft.lateFlowers : List Draft := readAll [
  ("LateFlowers", ["@DB_ENTITIES_MOD", "@MODIFIES=Flower", "flower\theight\ten.wiki",
    "Type\tFLOAT\tSTRING", "lily\t3\tLilium", "moss\t\t"])]

/-- The mod of the flowers twice, before another mod. -/
theorem flowers_repeatedMod : ∃ m s, Draft.moreFlowers = [m] ∧ m.isMod ∧
    (link {} { enableWiki := true, enablePrecisions := true }
      (Draft.flowers ++ m :: Draft.lateFlowers) ∅).result = .ok s ∧
    s.wiki.toList = [("rose", "Rose"), ("iris", "Iris"), ("lily", "Lilium")] ∧
    ((s.precisions.get? "Flower").bind fun fields => fields.get? "height") = some [3, 2, 1, -1] ∧
    (link {} { enableWiki := true, enablePrecisions := true }
      (Draft.flowers ++ m :: m :: Draft.lateFlowers) ∅).result = .ok s := by
  have mods : Draft.moreFlowers.map Draft.isMod = [true] := by decide +kernel
  have run : ((link {} { enableWiki := true, enablePrecisions := true }
      (Draft.flowers ++ Draft.moreFlowers ++ Draft.lateFlowers) ∅).result.toOption.map fun s =>
        (s.wiki.toList, (s.precisions.get? "Flower").bind fun fields => fields.get? "height")) =
      some ([("rose", "Rose"), ("iris", "Iris"), ("lily", "Lilium")], some [3, 2, 1, -1]) := by
    decide +kernel
  obtain ⟨m, rest, hm, isMod, hrest⟩ := List.map_eq_cons_iff.1 mods
  rw [List.map_eq_nil_iff.1 hrest] at hm
  rw [hm, List.append_assoc, List.singleton_append] at run
  obtain ⟨s, h, hs⟩ := toOption_map_eq_some.1 run
  rw [Prod.mk.injEq] at hs
  have parsed : ∀ d ∈ Draft.flowers ++ m :: Draft.lateFlowers, d.Parsed := by
    intro d hd
    rw [List.mem_append, List.mem_cons] at hd
    rcases hd with hd | rfl | hd
    · exact Draft.parsed_of_mem_readAll hd
    · exact Draft.parsed_of_mem_readAll (show d ∈ Draft.moreFlowers by simp [hm])
    · exact Draft.parsed_of_mem_readAll hd
  exact ⟨m, s, hm, isMod, h, hs.1, hs.2, link_repeatedMod parsed isMod h⟩

end TypedTables
