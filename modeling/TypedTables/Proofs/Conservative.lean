import TypedTables.Proofs.GrownNames
/-!
# Mods are conservative

A mod that is put after a dataset changes the run from its start: the enumeration of its target is
another one before the first table is resolved, earlier mods of the target now fill rows that were
not there, and the grids over it are larger. Nonetheless what the mod does not mention is what it
was. Names keep their rows, so every cell keeps its value; which cell decides a place depends only
on the cells that are given for it; and for a new row nobody but the mod gives any.

Results:
* `Field.Holds.same_row`, `Field.Holds.new_row`: the rows of a field with and without the mod.
* `sheet_of_mem`: what a run holds of a table of entities.
* `sameAt_of_ne`, `fields_extended`: the other tables, and the target.
* `link_conservative`: the stores with and without the mod.
-/
namespace TypedTables

/-! ## Given cells -/

/-- The mod gives no value for a field of an entity: it does not declare the field, or does not list
the entity, or its cell is empty and has no default. -/
inductive Draft.Silent (m : Draft) (field name : String) : Prop
  | undeclared : field ∉ m.columns.map Column.name → Silent m field name
  | unlisted : name ∉ m.rowNames → Silent m field name
  | empty {g : Given} : m.entityCell? field name = some g → g.raw.isEmpty → Silent m field name

theorem lastGiven_of_silent {m : Draft} {field name : String} (h : m.Silent field name)
    (given : List Given) :
    lastGiven (given ++ (m.entityCell? field name).toList) = lastGiven given := by
  cases h with
  | undeclared un =>
    rw [Draft.entityCell?_of_undeclared (Draft.column?_eq_none.2 un), Option.toList_none,
      List.append_nil]
  | unlisted un =>
    rw [Draft.entityCell?, List.idxOf?_eq_none_iff.2 un, Option.bind_none, Option.toList_none,
      List.append_nil]
  | empty hg he => rw [hg, Option.toList_some, lastGiven_snoc, if_pos he]

/-- What is given for the rows that were there is still given. -/
theorem givenCells_of_isPrefix {names names' : List String} (hp : names <+: names') {r : Nat}
    (hr : r < names.length) (d : Draft) (mods : List Draft) (field : String) :
    givenCells d mods names' field r = givenCells d mods names field r := by
  obtain ⟨rest, rfl⟩ := hp
  simp only [givenCells, List.getElem?_append_left hr]

/-- Nothing is given for a row that nobody lists. -/
theorem givenCells_eq_nil {d : Draft} (hd : d.Sound) {mods : List Draft} {names : List String}
    {r : Nat} (hr : d.rowCount ≤ r)
    (unlisted : ∀ m ∈ mods, ∀ name, names[r]? = some name → name ∉ m.rowNames) (field : String) :
    givenCells d mods names field r = [] := by
  have none : ∀ m ∈ mods, names[r]?.bind (m.entityCell? field) = none := by
    intro m hm
    cases hname : names[r]? with
    | none => rfl
    | some name =>
      rw [Option.bind_some, Draft.entityCell?,
        List.idxOf?_eq_none_iff.2 (unlisted m hm name hname), Option.bind_none]
  rw [givenCells, hd.cell?_eq_none hr, List.filterMap_eq_nil_iff.2 none]
  rfl

theorem firstDefault_snoc {tables : List Draft} {field : String} {g : Given}
    (h : firstDefault tables field = some g) (m : Draft) :
    firstDefault (tables ++ [m]) field = some g := by
  unfold firstDefault at h ⊢
  rw [List.findSome?_append, h]
  rfl

/-! ## Fields -/

/-- The significant digits in a row, where they are tracked. -/
def Field.digitsAt? (f : Field) (r : Nat) : Option Int := f.precisions.bind fun ds => ds[r]?

namespace Field.HoldsDigits

variable {l : Linking} {given : Nat → List Given} {n r : Nat} {f : Field}

theorem isSome (h : f.HoldsDigits l given n) : f.precisions.isSome = l.tracks f.type := by
  unfold HoldsDigits at h
  split at h
  · next tracked =>
    obtain ⟨ds, hds, -⟩ := h
    rw [hds, tracked]
    rfl
  · next untracked =>
    rw [h, Bool.eq_false_iff.2 untracked]
    rfl

/-- The digits of a row are those of its last cell, or are not tracked. -/
theorem row (h : f.HoldsDigits l given n) (hr : r < n) :
    (l.tracks f.type ∧ ∃ k, f.digitsAt? r = some k ∧ recordedDigits (given r) = .ok k) ∨
      ¬ l.tracks f.type ∧ f.digitsAt? r = none := by
  unfold HoldsDigits at h
  unfold digitsAt?
  split at h
  · next tracked =>
    obtain ⟨ds, hds, -, recorded⟩ := h
    rw [hds]
    exact .inl ⟨tracked, recorded r hr⟩
  · next untracked =>
    rw [h]
    exact .inr ⟨untracked, rfl⟩

end Field.HoldsDigits

namespace Field.Holds

variable {l l' : Linking} {first : Given} {given given' : Nat → List Given} {n n' r : Nat}
  {f f' : Field}

theorem default_eq (within : l.Within l') (h : f.Holds l first given n)
    (h' : f'.Holds l' first given' n') : f'.default = f.default := by
  have kept := within.value first _ h.default
  rw [h'.default] at kept
  exact Except.ok.inj kept

/-- A row with the same deciding cell holds the same. -/
theorem same_row (within : l.Within l') (h : f.Holds l first given n)
    (h' : f'.Holds l' first given' n') (hr : r < n) (hr' : r < n')
    (same : lastGiven (given' r) = lastGiven (given r)) :
    f'.values[r]? = f.values[r]? ∧ f'.digitsAt? r = f.digitsAt? r := by
  constructor
  · obtain ⟨v, hv, value⟩ := h.value r hr
    obtain ⟨v', hv', value'⟩ := h'.value r hr'
    have kept := within.value _ v value
    rw [← same, value'] at kept
    rw [hv, hv', Except.ok.inj kept]
  · rcases h.digits.row hr with ⟨tracked, k, hk, last⟩ | ⟨untracked, none⟩
    · rw [h.type, within.tracks, ← h'.type] at tracked
      obtain ⟨-, k', hk', last'⟩ := (h'.digits.row hr').resolve_right fun no => no.1 tracked
      rw [recordedDigits, same, ← recordedDigits, last] at last'
      rw [hk, hk', Except.ok.inj last']
    · rw [h.type, within.tracks, ← h'.type] at untracked
      rw [none, ((h'.digits.row hr').resolve_left fun no => untracked no.1).2]

/-- A row for which nothing is given holds the default, with no digits known. -/
theorem new_row (h : f.Holds l first given n) (hr : r < n) (none : lastGiven (given r) = none) :
    f.values[r]? = some f.default ∧ (f.precisions.isSome → f.digitsAt? r = some (-1)) := by
  constructor
  · obtain ⟨v, hv, value⟩ := h.value r hr
    rw [none, Option.getD_none, h.default] at value
    rw [hv, Except.ok.inj value]
  · intro tracked
    rw [h.digits.isSome] at tracked
    obtain ⟨-, k, hk, last⟩ := (h.digits.row hr).resolve_right fun no => no.1 tracked
    rw [recordedDigits, none] at last
    cases last
    exact hk

end Field.Holds

/-- What becomes of a field of the target of a mod, with the names of its rows before and after. -/
structure Field.ExtendedBy (m : Draft) (field : String) (names names' : List String)
    (f f' : Field) : Prop where
  type : f'.type = f.type
  default : f'.default = f.default
  tracked : f'.precisions.isSome = f.precisions.isSome
  length : f.values.length = names.length
  length' : f'.values.length = names'.length
  /-- old rows that the mod leaves alone -/
  old : ∀ r name, names[r]? = some name → m.Silent field name →
    f'.values[r]? = f.values[r]? ∧ f'.digitsAt? r = f.digitsAt? r
  /-- new rows that the mod adds without a value; the row names name themselves -/
  new : field ≠ nameField → ∀ r name, names.length ≤ r → names'[r]? = some name →
    m.Silent field name →
    f'.values[r]? = some f.default ∧ (f'.precisions.isSome → f'.digitsAt? r = some (-1))

/-- The row names of a table whose enumeration has grown. -/
theorem rowNameField_extendedBy {names names' : List String} (hp : names <+: names') (m : Draft) :
    (rowNameField names).ExtendedBy m nameField names names' (rowNameField names') where
  type := rfl
  default := rfl
  tracked := rfl
  length := List.length_map ..
  length' := List.length_map ..
  old r name hname _ := by
    refine ⟨?_, rfl⟩
    simp only [rowNameField, List.getElem?_map, hname, getElem?_of_isPrefix hp hname]
  new hn := absurd rfl hn

/-! ## Runs -/

section Names

variable {ps : List (String × OrderedMap String Int)} {ts : List Draft} {n : Names}

/-- A table has no more rows than its enumeration. -/
theorem Linked.rowCount_le (linked : Linked ps ts n) {d : Draft} (sound : d.Sound) (hd : d ∈ ts)
    (enumerated : d.format.isEnumerated) (named : d.rowNames ≠ []) {e : Enumeration}
    (he : n.enumerations.get? d.name = some e) : d.rowCount ≤ e.names.length := by
  obtain ⟨_, found, -, le⟩ := linked.table d hd enumerated named
  rw [he] at found
  cases found
  rw [← sound.length_rowNames named]
  exact le.length_le

/-- A name in a row that was not there is one that no mod had listed. -/
theorem Linked.unlisted (linked : Linked ps ts n) {t : String} {e e' : Enumeration}
    (he : n.enumerations.get? t = some e) (inv : e.Inverse) (inv' : e'.Inverse)
    (hp : e.names <+: e'.names) {r : Nat} (hr : e.names.length ≤ r) :
    ∀ m ∈ modsOf ts t, ∀ name, e'.names[r]? = some name → name ∉ m.rowNames := by
  intro m hm name hname listed
  obtain ⟨_, found, mem⟩ := linked.owner_of_declares
    (.modRow (List.mem_filter.1 hm).1 (target_of_mem_modsOf m hm) listed)
  rw [he] at found
  cases found
  obtain ⟨i, hi⟩ := List.mem_iff_getElem?.1 (inv.mem_keys.1 mem)
  have lt : i < e.names.length := (List.getElem?_eq_some_iff.1 hi).1
  have old := (inv'.row_iff name i).2 (getElem?_of_isPrefix hp hi)
  rw [← inv'.row_iff, old] at hname
  exact absurd (Option.some.inj hname) (by omega)

/-- The target of a mod is a table before it. -/
theorem Linked.exists_target {m : Draft} {t : String} (linked : Linked ps (ts ++ [m]) n)
    (ht : m.target? = some t) :
    ∃ b ∈ ts, b.format.isEnumerated ∧ b.rowNames ≠ [] ∧ b.name = t := by
  obtain ⟨b, hb, enumerated, named, hbt⟩ := linked.target m (by simp) t ht
  rcases List.mem_append.1 hb with hb | hb
  · exact ⟨b, hb, enumerated, named, hbt⟩
  · have notMod := Draft.isMod_of_isEnumerated enumerated
    rw [List.mem_singleton.1 hb, Draft.isMod_iff.2 ⟨t, ht⟩] at notMod
    cases notMod

end Names

section Runs

variable {units : Units.Converter} {options : LinkOptions} {tables : List Draft}
  {predefined : Predefined} {n : Names} {a : Assembly} {d : Draft}
  (linked : Linked predefined.toList tables n)
  (nd : ((tables.filter (!·.isMod)).map Draft.name).Nodup)
  (ha : (Linking.addTables ⟨units, options, n.entities⟩ n.enumerations { info := n.info }
    (modsLast tables)).result = .ok a)
  (parsed : ∀ d ∈ tables, d.Parsed)

include linked nd ha parsed in
/-- What a run holds of a table of entities: what the table and its mods give, and the names of all
rows. -/
theorem sheet_of_mem (hd : d ∈ tables) (hf : d.format = .entities) (named : d.rowNames ≠ []) :
    ∃ e s, n.enumerations.get? d.name = some e ∧ a.tables.get? d.name = some (.sheet s) ∧
      SheetHolds ⟨units, options, n.entities⟩ (d :: modsOf tables d.name)
        (givenCells d (modsOf tables d.name) e.names) e.names.length s ∧
      s.get? nameField = some (rowNameField e.names) := by
  have sound : ∀ b ∈ tables, b.Sound := fun b hb => (parsed b hb).sound
  obtain ⟨e, he, -⟩ := linked.table d hd (by rw [hf]; rfl) named
  -- the cells
  have final := shows_of_mem linked nd ha sound hd (.inl hf)
  rw [he, Option.map_some, Option.getD_some] at final
  obtain ⟨s, k, affix, hs, hi, holds, -⟩ := final.shows
  -- the rows
  obtain ⟨_, k', b', rfl, same', records, all⟩ := holdsRecords_of_mem linked nd ha
    (fun b hb => (parsed b hb).wellFormed) hd (.inl hf)
  obtain ⟨e', he', rfl⟩ := all named
  rw [he] at he'
  cases he'
  obtain ⟨affix', hi'⟩ := records.info
  obtain ⟨s', hs', -, names⟩ := records.sheet
  rw [same'.info, hi'] at hi
  rw [same'.tables, hs'] at hs
  cases hi
  cases hs
  have names := names named
  rw [he, Option.map_some, Option.getD_some, List.take_length] at names
  exact ⟨e, s, he, same'.tables.trans hs', holds, names⟩

include linked nd ha in
/-- Of the tables whose rows are entities an enumeration has no fields. -/
theorem Linked.entities_of_tables (wf : ∀ d ∈ tables, d.WellFormed) (hd : d ∈ tables)
    (enumerated : d.format.isEnumerated) (named : d.rowNames ≠ [])
    (fields : a.tables.get? d.name ≠ none) : d.format = .entities := by
  cases hf : d.format with
  | entities => rfl
  | enumeration =>
    obtain ⟨e, b, -, same, holds⟩ :=
      holdsRowNames_of_mem linked nd ha wf hd hf ((wf d hd).rowCount_ne_zero named)
    exact absurd (same.tables.trans holds.tables) fields
  | _ => rw [hf] at enumerated; cases enumerated

end Runs

theorem about_snoc_of_ne {m : Draft} {t u : String} (ht : m.target? = some t) (hu : u ≠ t)
    (tables : List Draft) : about (modsLast (tables ++ [m])) u = about (modsLast tables) u := by
  rw [modsLast_snoc (Draft.isMod_iff.2 ⟨t, ht⟩)]
  simp [about, Draft.subject_of_target ht, Ne.symm hu]

theorem modsOf_snoc {m : Draft} {t : String} (ht : m.target? = some t) (tables : List Draft) :
    modsOf (tables ++ [m]) t = modsOf tables t ++ [m] := by
  simp [modsOf, ht]

section Both

variable {units : Units.Converter} {options : LinkOptions} {tables : List Draft}
  {predefined : Predefined} {m : Draft} {t : String} {n n' : Names} {a a' : Assembly}
  (ht : m.target? = some t) (grown : n.Grown t n')
  (linked : Linked predefined.toList tables n)
  (linked' : Linked predefined.toList (tables ++ [m]) n')
  (nd : ((tables.filter (!·.isMod)).map Draft.name).Nodup)
  (nd' : (((tables ++ [m]).filter (!·.isMod)).map Draft.name).Nodup)
  (ha : (Linking.addTables ⟨units, options, n.entities⟩ n.enumerations { info := n.info }
    (modsLast tables)).result = .ok a)
  (ha' : (Linking.addTables ⟨units, options, n'.entities⟩ n'.enumerations { info := n'.info }
    (modsLast (tables ++ [m]))).result = .ok a')

include ht grown linked linked' nd nd' ha ha' in
/-- **Other tables.** What the mod is not about is resolved as without it. -/
theorem sameAt_of_ne {u : String} (hu : u ≠ t)
    (axes : ∀ v, a.tables.get? u = some (.grid v) → v.rowAxis ≠ t ∧ v.columnAxis ≠ t) :
    a'.SameAt u a := by
  obtain ⟨b, hb, same⟩ := Linking.addTables_about (t := u) (.refl _) ha
  obtain ⟨b', hb', same'⟩ := Linking.addTables_about (t := u) (.refl _) ha'
  rw [about_snoc_of_ne ht hu, grown.info] at hb'
  have target : ∀ d ∈ about (modsLast tables) u, ∀ o, d.target? = some o →
      n'.enumerations.get? o = n.enumerations.get? o := by
    intro d hd o ho
    have subject : d.subject = u := by simpa using (List.mem_filter.1 hd).2
    rw [Draft.subject_of_target ho] at subject
    exact grown.others o (subject ▸ hu)
  have grid : ∀ d ∈ about (modsLast tables) u, ∀ g, d.grid? = some g →
      Refines (Linking.grid ⟨units, options, n.entities⟩ n.enumerations d g)
        (Linking.grid ⟨units, options, n'.entities⟩ n'.enumerations d g) := by
    intro d hd g hg v hv
    obtain ⟨mem, subject⟩ := List.mem_filter.1 hd
    rw [mem_modsLast] at mem
    have name : d.name = u := by
      simpa [Draft.subject, Draft.target?, Draft.content_of_grid? hg] using subject
    obtain ⟨w, table, hw⟩ := grid_of_mem linked nd ha mem hg
    obtain ⟨w', -, hw'⟩ := grid_of_mem linked' nd' ha' (List.mem_append_left _ mem) hg
    rw [hv] at hw
    cases hw
    obtain ⟨rows, columns⟩ := axes v (name ▸ table)
    rw [hw', grid_eq grown linked linked' hv hw' rows columns]
  have kept := (grown.within units options).addTables target grid _ b hb
  rw [hb'] at kept
  cases kept
  exact same'.trans same.symm

include ht grown linked linked' nd nd' ha ha' in
/-- **Fields.** What the mod does not give for a field of its target is what it was, or the default
that is recorded for the field. -/
theorem fields_extended (parsed : ∀ d ∈ tables ++ [m], d.Parsed) {b : Draft} (hb : b ∈ tables)
    (hf : b.format = .entities) (named : b.rowNames ≠ []) (hbt : b.name = t) :
    ∃ e e' s s', n.enumerations.get? t = some e ∧ n'.enumerations.get? t = some e' ∧
      a.tables.get? t = some (.sheet s) ∧ a'.tables.get? t = some (.sheet s') ∧
      ∀ field f, s.get? field = some f →
        (field ≠ nameField → ∃ g, firstDefault (b :: modsOf tables t) field = some g ∧
          Linking.value ⟨units, options, n.entities⟩ g = .ok f.default) ∧
        ∃ f', s'.get? field = some f' ∧ f.ExtendedBy m field e.names e'.names f' := by
  subst hbt
  have within := grown.within units options
  have enumerated : b.format.isEnumerated := by rw [hf]; rfl
  have sound : b.Sound := (parsed b (List.mem_append_left _ hb)).sound
  obtain ⟨e, s, he, hs, holds, names⟩ := sheet_of_mem linked nd ha
    (fun d hd => parsed d (List.mem_append_left _ hd)) hb hf named
  obtain ⟨e', s', he', hs', holds', names'⟩ := sheet_of_mem linked' nd' ha' parsed
    (List.mem_append_left _ hb) hf named
  rw [modsOf_snoc ht] at holds'
  have inv := linked.inverse_of_table hb enumerated he
  have inv' := linked'.inverse_of_table (List.mem_append_left _ hb) enumerated he'
  obtain ⟨_, found, hp⟩ := grown.names _ e he
  rw [he'] at found
  cases found
  have own := linked.rowCount_le sound hb enumerated named he
  refine ⟨e, e', s, s', he, he', hs, hs', fun field f hget => ?_⟩
  by_cases hn : field = nameField
  · subst hn
    rw [names] at hget
    cases hget
    exact ⟨fun no => absurd rfl no, _, names', rowNameField_extendedBy hp m⟩
  · cases hfirst : firstDefault (b :: modsOf tables b.name) field with
    | none =>
      rw [holds.absent field hn hfirst] at hget
      cases hget
    | some first =>
      obtain ⟨_, found, hold⟩ := holds.holds field first hn hfirst
      rw [hget] at found
      cases found
      obtain ⟨f', hget', hold'⟩ := holds'.holds field first hn (firstDefault_snoc hfirst m)
      refine ⟨fun _ => ⟨first, rfl, hold.default⟩, f', hget', hold'.type.trans hold.type.symm,
        hold.default_eq within hold', ?_, hold.length, hold'.length, fun r name hname silent => ?_,
        fun _ r name hr hname silent => ?_⟩
      · rw [hold.digits.isSome, hold'.digits.isSome, hold.type, hold'.type, within.tracks]
      · have lt := (List.getElem?_eq_some_iff.1 hname).1
        refine hold.same_row within hold' lt (Nat.lt_of_lt_of_le lt hp.length_le) ?_
        rw [givenCells_snoc, getElem?_of_isPrefix hp hname, Option.bind_some,
          lastGiven_of_silent silent, givenCells_of_isPrefix hp lt]
      · have lt := (List.getElem?_eq_some_iff.1 hname).1
        rw [← hold.default_eq within hold']
        refine hold'.new_row lt ?_
        rw [givenCells_snoc, hname, Option.bind_some, lastGiven_of_silent silent,
          givenCells_eq_nil sound (Nat.le_trans own hr) (linked.unlisted he inv inv' hp hr)]
        rfl

end Both

/-! ## Stores -/

/-- Both stores hold the same of a table. -/
structure Store.SameTable (s s' : Store) (t : String) : Prop where
  contents : s'.tables.get? t = s.tables.get? t
  info : s'.info.get? t = s.info.get? t
  fieldTypes : s'.fieldTypes.get? t = s.fieldTypes.get? t
  precisions : s'.precisions.get? t = s.precisions.get? t

/-- What becomes of a store when a mod of table `t` is put after the dataset. -/
structure Store.ExtendedBy (l : Linking) (tables : List Draft) (m : Draft) (t : String)
    (s s' : Store) : Prop where
  /-- every entity keeps its owner and its row -/
  entities : ∀ name x, s.entities.get? name = some x → s'.entities.get? name = some x
  names : ∀ o, s.namesOf o <+: s'.namesOf o
  enumerations : ∀ o, o ≠ t → s'.enumerations.get? o = s.enumerations.get? o
  /-- tables other than the target, and grids over other names -/
  others : ∀ u, u ≠ t → (∀ v, s.grid? u = some v → v.rowAxis ≠ t ∧ v.columnAxis ≠ t) →
    s.SameTable s' u
  /-- the fields of the target, with the defaults that are recorded for them -/
  fields : ∀ sheet, s.sheet? t = some sheet → ∃ b ∈ tables, b.isMod = false ∧ b.name = t ∧
    ∃ sheet', s'.sheet? t = some sheet' ∧ ∀ field f, sheet.get? field = some f →
      (field ≠ nameField → ∃ g, firstDefault (b :: modsOf tables t) field = some g ∧
        l.value g = .ok f.default) ∧
      ∃ f', sheet'.get? field = some f' ∧
        f.ExtendedBy m field (s.namesOf t) (s'.namesOf t) f'
  /-- the grids, also those over the names of the target -/
  grids : ∀ d ∈ tables, ∀ g, d.grid? = some g → ∃ v v',
    s.grid? d.name = some v ∧ s'.grid? d.name = some v' ∧
    v.ExtendedTo l d g (s.namesOf v.rowAxis).length (s.namesOf v.columnAxis).length
      (s'.namesOf v.rowAxis).length (s'.namesOf v.columnAxis).length v'

/-- **Mods are conservative.** If a run succeeds on a dataset, and on the dataset with one more mod,
then the second store has what the first has, and more. Names keep their rows; other tables and the
grids over other names are the same. In the target each place for which the mod gives no value holds
what it held, or, in a new row, the default that is recorded for the field, with no digits known.
The grids over its names hold what they held, and their defaults in all new rows and columns. -/
theorem link_conservative {units : Units.Converter} {options : LinkOptions} {tables : List Draft}
    {predefined : Predefined} {m : Draft} {t : String} {s s' : Store}
    (parsed : ∀ d ∈ tables ++ [m], d.Parsed) (ht : m.target? = some t)
    (h : (link units options tables predefined).result = .ok s)
    (h' : (link units options (tables ++ [m]) predefined).result = .ok s') :
    s.ExtendedBy ⟨units, options, s.entities⟩ tables m t s' := by
  obtain ⟨nd, n, a, hn, ha, rfl⟩ := link_eq_ok_iff.1 h
  obtain ⟨nd', n', a', hn', ha', rfl⟩ := link_eq_ok_iff.1 h'
  have linked := linkNames_linked nd hn
  have linked' := linkNames_linked nd' hn'
  obtain ⟨added, hm⟩ := linkNames_snoc ht hn hn'
  have grown := linked.grown ht hm
  refine ⟨grown.entities, fun o => ?_, grown.others, fun u hu axes => ?_, fun sheet hs => ?_,
    fun d hd g hg => ?_⟩
  · simp only [Store.namesOf]
    cases he : n.enumerations.get? o with
    | none => exact List.nil_prefix
    | some e =>
      obtain ⟨e', he', hp⟩ := grown.names o e he
      rw [he']
      exact hp
  · have same := sameAt_of_ne ht grown linked linked' nd nd' ha ha' hu fun v hv =>
      axes v (by simp only [Store.grid?, hv])
    refine ⟨same.tables, same.info, ?_, ?_⟩
    · simp only [Store.fieldTypes, OrderedMap.get?_filterMapValues, same.tables]
    · unfold Store.precisions
      dsimp only
      split
      · simp only [OrderedMap.get?_filterMapValues, same.tables]
      · rfl
  · -- the target is a table of entities, for an enumeration has no fields
    obtain ⟨b, mem, hbe, named, hbt⟩ := linked'.exists_target ht
    have wf : ∀ d ∈ tables, d.WellFormed := fun d hd =>
      (parsed d (List.mem_append_left _ hd)).wellFormed
    have format : b.format = .entities := by
      refine linked.entities_of_tables nd ha wf mem hbe named fun none => ?_
      rw [Store.sheet?, ← hbt, none] at hs
      cases hs
    obtain ⟨e, e', sheet₁, sheet', he, he', hs₁, hs', kept⟩ :=
      fields_extended ht grown linked linked' nd nd' ha ha' parsed mem format named hbt
    simp only [Store.sheet?, hs₁, Option.some.injEq] at hs
    subst hs
    refine ⟨b, mem, Draft.isMod_of_isEnumerated hbe, hbt, sheet',
      by simp only [Store.sheet?, hs'], ?_⟩
    simp only [Store.namesOf, he, he', Option.map_some, Option.getD_some]
    exact kept
  · obtain ⟨v, hv, resolved⟩ := grid_of_mem linked nd ha hd hg
    obtain ⟨v', hv', resolved'⟩ := grid_of_mem linked' nd' ha' (List.mem_append_left _ hd) hg
    obtain ⟨r, c, r', c', hr, hc, hr', hc', extended⟩ :=
      grid_extended grown linked linked' resolved resolved'
    refine ⟨v, v', by simp only [Store.grid?, hv], by simp only [Store.grid?, hv'], ?_⟩
    simp only [Store.namesOf, hr, hc, hr', hc', Option.map_some, Option.getD_some]
    exact extended

/-- Trees with a mod, and a grid over their names. -/
def Draft.orchard : List Draft := readAll [
  ("Tree", ["@DB_ENTITIES", "tree\theight\tage", "Type\tFLOAT\tINT", "Default\t2.50\t",
    "oak\t\t80", "elm\t12\t"]),
  ("Soil", ["@ENUMERATION", "clay", "sand"]),
  ("Yield", ["@ENUM_X_ENUM", "@DATA_TYPE=INT", "@DATA_DEFAULT=7", "\tclay", "elm\t3"]),
  ("OldTrees", ["@DB_ENTITIES_MOD", "@MODIFIES=Tree", "tree\tage", "Type\tINT", "oak\t90",
    "yew\t900"])]

/-- One more mod of the trees. -/
def Draft.moreTrees : List Draft := readAll [
  ("MoreTrees", ["@DB_ENTITIES_MOD", "@MODIFIES=Tree", "tree\tage", "Type\tINT", "elm\t40",
    "ash\t"])]

/-- The trees with one more mod, which gives an age and adds a tree. -/
theorem orchard_conservative : ∃ m s s', Draft.moreTrees = [m] ∧ m.target? = some "Tree" ∧
    (link {} { enablePrecisions := true } Draft.orchard ∅).result = .ok s ∧
    (link {} { enablePrecisions := true } (Draft.orchard ++ [m]) ∅).result = .ok s' ∧
    ((s.precisions.get? "Tree").bind fun fields => fields.get? "height") = some [3, 2, -1] ∧
    ((s'.precisions.get? "Tree").bind fun fields => fields.get? "height") = some [3, 2, -1, -1] ∧
    s.ExtendedBy ⟨{}, { enablePrecisions := true }, s.entities⟩ Draft.orchard m "Tree" s' := by
  have targets : Draft.moreTrees.map Draft.target? = [some "Tree"] := by decide +kernel
  have run : ((link {} { enablePrecisions := true } Draft.orchard ∅).result.toOption.map fun s =>
      (s.precisions.get? "Tree").bind fun fields => fields.get? "height") =
      some (some [3, 2, -1]) := by
    decide +kernel
  have run' : ((link {} { enablePrecisions := true } (Draft.orchard ++ Draft.moreTrees)
      ∅).result.toOption.map fun s =>
        (s.precisions.get? "Tree").bind fun fields => fields.get? "height") =
      some (some [3, 2, -1, -1]) := by
    decide +kernel
  obtain ⟨m, rest, hm, ht, hrest⟩ := List.map_eq_cons_iff.1 targets
  rw [List.map_eq_nil_iff.1 hrest] at hm
  rw [hm] at run'
  obtain ⟨s, h, hs⟩ := toOption_map_eq_some.1 run
  obtain ⟨s', h', hs'⟩ := toOption_map_eq_some.1 run'
  have parsed : ∀ d ∈ Draft.orchard ++ [m], d.Parsed := by
    intro d hd
    rcases List.mem_append.1 hd with hd | hd
    · exact Draft.parsed_of_mem_readAll hd
    · exact Draft.parsed_of_mem_readAll (hm ▸ hd)
  exact ⟨m, s, s', hm, ht, h, h', hs, hs', link_conservative parsed ht h h'⟩

end TypedTables
