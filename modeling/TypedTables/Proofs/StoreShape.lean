import TypedTables.Proofs.Locality
import TypedTables.Proofs.SheetShape
/-!
# The shape of a store

Row counts, columns, types, significant digits and names of a table stand in containers of their
own, and every mod may add to each of them. `Store.Shaped` says how they belong together when a run
has succeeded: no column is shorter than its table, and no value is of another type than its field.

Results:
* `HoldsRecords.start`, `HoldsRecords.modifyAll`: a table and its mods.
* `HoldsRowNames.extendAll`: an enumeration and its mods.
* `grid_shaped`: the cells of a grid.
* `link_shaped`: the store of a run that succeeds.
-/
namespace TypedTables

/-! ## Tables of records -/

/-- The assembly holds `n` rows of a table, the first of those that `names` has. -/
structure HoldsRecords (l : Linking) (d : Draft) (names : List String) (n : Nat) (a : Assembly) :
    Prop where
  info : ∃ affix, a.info.get? d.name = some ⟨d.format, some n, affix⟩
  sheet : ∃ s, a.tables.get? d.name = some (.sheet s) ∧ s.Shaped l.options.enablePrecisions n ∧
    (d.rowNames ≠ [] → s.get? nameField = some (rowNameField (names.take n)))

section Steps

variable {l : Linking} {enumerations : OrderedMap String Enumeration} {a a' : Assembly}
  {d : Draft} {names : List String} {n : Nat}

theorem HoldsRecords.start (hd : d.WellFormed)
    (hf : d.format = .entities ∨ d.format = .anonymousRows)
    (first : d.rowNames ≠ [] → d.rowNames <+: names)
    (h : (l.addTable enumerations a d).result = .ok a') :
    HoldsRecords l d names d.rowCount a' := by
  obtain ⟨k, hk⟩ := Linking.addSheet_of_format hf h
  obtain ⟨s, hs, tables, info⟩ := Linking.addSheet_eq_ok hk
  obtain ⟨shaped, rowNames⟩ := sheet_shaped hd hs
  refine ⟨⟨_, by rw [info, OrderedMap.get?_insert, if_pos rfl]⟩, s,
    by rw [tables, OrderedMap.get?_insert, if_pos rfl], shaped, fun named => ?_⟩
  have all := List.prefix_iff_eq_take.1 (first named)
  rw [hd.rows_counted.resolve_left named] at all
  rw [rowNames, if_neg named, ← all]

/-- After a mod all rows of the enumeration are there. -/
theorem HoldsRecords.modify {m : Draft} {e : Enumeration} (h : HoldsRecords l d e.names n a)
    (hm : m.WellFormed) (hf : d.format = .entities) (named : d.rowNames ≠ [])
    (ht : m.target? = some d.name) (he : enumerations.get? d.name = some e)
    (le : n ≤ e.names.length) (ha : (l.addTable enumerations a m).result = .ok a') :
    HoldsRecords l d e.names e.names.length a' := by
  obtain ⟨affix, hi⟩ := h.info
  obtain ⟨s, hs, shaped, rowNames⟩ := h.sheet
  obtain ⟨e', i, he', hi', info, ⟨hfe, -⟩ | ⟨-, s₁, n₁, s', wiki, hs₁, hn₁, hmod, tables⟩⟩ :=
    Linking.addMod_eq_ok (Linking.result_addTable_of_target ht ▸ ha)
  · rw [hi] at hi'
    cases hi'
    rw [hf] at hfe
    cases hfe
  · rw [hi] at hi'
    rw [he] at he'
    rw [hs] at hs₁
    cases hi'
    cases he'
    cases hs₁
    cases hn₁
    have written := modify_shaped (t := ⟨d.name, e, n⟩) hm shaped (rowNames named) le hmod
    refine ⟨⟨affix, by rw [info, OrderedMap.get?_insert, if_pos rfl]⟩, s',
      by rw [tables, OrderedMap.get?_insert, if_pos rfl], written.shaped, fun _ => ?_⟩
    rw [List.take_length]
    exact written.names

theorem HoldsRecords.modifyAll {mods : List Draft} {e : Enumeration}
    (h : HoldsRecords l d e.names n a)
    (hm : ∀ m ∈ mods, m.WellFormed ∧ m.target? = some d.name) (hf : d.format = .entities)
    (named : d.rowNames ≠ []) (he : enumerations.get? d.name = some e) (le : n ≤ e.names.length)
    (ha : (l.addTables enumerations a mods).result = .ok a') :
    HoldsRecords l d e.names (if mods = [] then n else e.names.length) a' := by
  induction mods generalizing n a with
  | nil =>
    cases ha
    exact h
  | cons m mods ih =>
    rw [List.forall_mem_cons] at hm
    obtain ⟨a₁, h₁, ha⟩ := Linking.addTables_cons_eq_ok.1 ha
    have step := h.modify hm.1.1 hf named hm.1.2 he le h₁
    have rest := ih step hm.2 (Nat.le_refl _) ha
    rw [ite_self] at rest
    exact rest

/-! ## Enumerations -/

/-- The assembly knows `n` rows of an enumeration, which has no fields. -/
structure HoldsRowNames (d : Draft) (n : Nat) (a : Assembly) : Prop where
  info : ∃ affix, a.info.get? d.name = some ⟨.enumeration, some n, affix⟩
  tables : a.tables.get? d.name = none

/-- An enumeration is known already when its own turn comes. -/
theorem HoldsRowNames.start (hf : d.format = .enumeration) (info : a.info.get? d.name = some d.info)
    (tables : a.tables.get? d.name = none) (h : (l.addTable enumerations a d).result = .ok a') :
    HoldsRowNames d d.rowCount a' := by
  have same : a' = a := by
    have hc := Linking.addTable_eq_ok h
    unfold Draft.format at hf
    split at hc
    all_goals simp_all [RecordKind.format]
  rw [same]
  exact ⟨⟨d.entityAffix, by rw [info, Draft.info, hf]⟩, tables⟩

theorem HoldsRowNames.extend {m : Draft} {e : Enumeration} (h : HoldsRowNames d n a)
    (ht : m.target? = some d.name) (he : enumerations.get? d.name = some e)
    (ha : (l.addTable enumerations a m).result = .ok a') :
    HoldsRowNames d e.names.length a' := by
  obtain ⟨affix, hi⟩ := h.info
  obtain ⟨e', i, he', hi', info, ⟨-, tables⟩ | ⟨hf, -⟩⟩ :=
    Linking.addMod_eq_ok (Linking.result_addTable_of_target ht ▸ ha)
  · rw [hi] at hi'
    rw [he] at he'
    cases hi'
    cases he'
    exact ⟨⟨affix, by rw [info, OrderedMap.get?_insert, if_pos rfl]⟩, by rw [tables, h.tables]⟩
  · rw [hi] at hi'
    cases hi'
    exact absurd rfl hf

theorem HoldsRowNames.extendAll {mods : List Draft} {e : Enumeration} (h : HoldsRowNames d n a)
    (hm : ∀ m ∈ mods, m.target? = some d.name) (he : enumerations.get? d.name = some e)
    (ha : (l.addTables enumerations a mods).result = .ok a') :
    HoldsRowNames d (if mods = [] then n else e.names.length) a' := by
  induction mods generalizing n a with
  | nil =>
    cases ha
    exact h
  | cons m mods ih =>
    rw [List.forall_mem_cons] at hm
    obtain ⟨a₁, h₁, ha⟩ := Linking.addTables_cons_eq_ok.1 ha
    have rest := ih (h.extend hm.1 he h₁) hm.2 ha
    rw [ite_self] at rest
    exact rest

/-! ## Formats -/

/-- A table is listed with its format. -/
theorem addTable_format (hm : d.isMod = false)
    (known : d.format = .enumeration → a.info.get? d.name = some d.info)
    (h : (l.addTable enumerations a d).result = .ok a') :
    ∃ i, a'.info.get? d.name = some i ∧ i.format = d.format := by
  have hc := Linking.addTable_eq_ok h
  split at hc
  · obtain ⟨k, hk⟩ := hc
    obtain ⟨s, -, -, info⟩ := Linking.addSheet_eq_ok hk
    exact ⟨_, by rw [info, OrderedMap.get?_insert, if_pos rfl], rfl⟩
  · obtain ⟨k, hk⟩ := hc
    obtain ⟨s, -, -, info⟩ := Linking.addSheet_eq_ok hk
    exact ⟨_, by rw [info, OrderedMap.get?_insert, if_pos rfl], rfl⟩
  · next target columns hd =>
    have : d.isMod = true := Draft.isMod_iff.2 ⟨target, by simp [Draft.target?, hd]⟩
    rw [hm] at this
    cases this
  · obtain ⟨-, info⟩ := Linking.addWikiLookup_eq_ok hc
    exact ⟨_, by rw [info, OrderedMap.get?_insert, if_pos rfl], rfl⟩
  · next columns hd =>
    have hf : d.format = .enumeration := by simp [Draft.format, hd, RecordKind.format]
    exact ⟨d.info, by rw [hc, known hf], rfl⟩
  · obtain ⟨v, hv⟩ := hc
    obtain ⟨-, info⟩ := Linking.addGrid_eq_ok hv
    exact ⟨_, by rw [info, OrderedMap.get?_insert, if_pos rfl], rfl⟩

/-- Mods leave the format as it is. -/
theorem addTables_format {mods : List Draft} {t : String} {f : TableFormat}
    (hm : ∀ m ∈ mods, m.target? = some t) (hi : ∃ i, a.info.get? t = some i ∧ i.format = f)
    (h : (l.addTables enumerations a mods).result = .ok a') :
    ∃ i, a'.info.get? t = some i ∧ i.format = f := by
  induction mods generalizing a with
  | nil =>
    cases h
    exact hi
  | cons m mods ih =>
    rw [List.forall_mem_cons] at hm
    obtain ⟨a₁, h₁, h⟩ := Linking.addTables_cons_eq_ok.1 h
    refine ih hm.2 ?_ h
    obtain ⟨i, hi, rfl⟩ := hi
    obtain ⟨e, i', -, hi', info, -⟩ :=
      Linking.addMod_eq_ok (Linking.result_addTable_of_target hm.1 ▸ h₁)
    rw [hi] at hi'
    cases hi'
    exact ⟨{ i with rowCount := some e.names.length },
      by rw [info, OrderedMap.get?_insert, if_pos rfl], rfl⟩

/-! ## Grids -/

namespace Linking

theorem fillRow_withOptions (l : Linking) (options : LinkOptions) (d : Draft) (g : Grid)
    (columns : Enumeration) (row : Nat) (cells : List (List Value)) (named : List (String × Raw)) :
    fillRow { l with options } d g columns row cells named =
      l.fillRow d g columns row cells named := by
  induction named generalizing cells with
  | nil => rfl
  | cons p named ih =>
    simp only [fillRow, ih]
    rfl

theorem fillGrid_withOptions (l : Linking) (options : LinkOptions) (d : Draft) (g : Grid)
    (rows columns : Enumeration) (cells : List (List Value)) (named : List (String × List Raw)) :
    fillGrid { l with options } d g rows columns cells named =
      l.fillGrid d g rows columns cells named := by
  induction named generalizing cells with
  | nil => rfl
  | cons p named ih => simp only [fillGrid, fillRow_withOptions, ih]

/-- What a run is asked to do has no part in a grid: it has neither digits nor titles. -/
theorem grid_withOptions (l : Linking) (options : LinkOptions)
    (enumerations : OrderedMap String Enumeration) (d : Draft) (g : Grid) :
    grid { l with options } enumerations d g = l.grid enumerations d g := by
  simp only [grid, fillGrid_withOptions]
  rfl

end Linking

/-- There are this many rows and columns of values of the type. -/
structure ShapedCells (type : FieldType) (rows columns : Nat) (cells : List (List Value)) :
    Prop where
  length : cells.length = rows
  row : ∀ r ∈ cells, r.length = columns ∧ ∀ v ∈ r, v.hasKind type

theorem replicate_shaped {type : FieldType} {rows columns : Nat} {v : Value}
    (hv : v.hasKind type) :
    ShapedCells type rows columns (List.replicate rows (List.replicate columns v)) := by
  refine ⟨List.length_replicate, fun row hrow => ?_⟩
  rw [(List.mem_replicate.1 hrow).2]
  refine ⟨List.length_replicate, fun w hw => ?_⟩
  rw [(List.mem_replicate.1 hw).2]
  exact hv

theorem setCell_shaped {type : FieldType} {rows columns row column : Nat} {v : Value}
    {cells cells' : List (List Value)} (hc : ShapedCells type rows columns cells)
    (hv : v.hasKind type) (h : setCell cells row column v = .ok cells') :
    ShapedCells type rows columns cells' := by
  unfold setCell at h
  split at h
  · next r hr =>
    split at h
    · cases h
      refine ⟨by rw [List.length_set, hc.length], fun r' hr' => ?_⟩
      rcases List.mem_or_eq_of_mem_set hr' with hr' | rfl
      · exact hc.row r' hr'
      · obtain ⟨length, kinds⟩ := hc.row r (List.mem_of_getElem? hr)
        refine ⟨by rw [List.length_set, length], fun w hw => ?_⟩
        rcases List.mem_or_eq_of_mem_set hw with hw | rfl
        · exact kinds w hw
        · exact hv
    · cases h
  · cases h

section Grids

variable {g : Grid} {rows columns : Nat}

theorem fillRow_shaped {e : Enumeration} {row : Nat} {named : List (String × Raw)}
    {cells cells' : List (List Value)} (accepts : l.Accepts g.unit)
    (hc : ShapedCells g.type rows columns cells)
    (h : l.fillRow d g e row cells named = .ok cells') :
    ShapedCells g.type rows columns cells' := by
  induction named generalizing cells with
  | nil =>
    cases h
    exact hc
  | cons p named ih =>
    unfold Linking.fillRow at h
    split at h
    · exact ih hc h
    · obtain ⟨column, -, h⟩ := bind_eq_ok.1 h
      obtain ⟨v, hv, h⟩ := bind_eq_ok.1 h
      obtain ⟨cells₁, h₁, h⟩ := bind_eq_ok.1 h
      exact ih (setCell_shaped hc (Linking.cell_hasKind accepts hv) h₁) h

theorem fillGrid_shaped {e e' : Enumeration} {named : List (String × List Raw)}
    {cells cells' : List (List Value)} (accepts : l.Accepts g.unit)
    (hc : ShapedCells g.type rows columns cells)
    (h : l.fillGrid d g e e' cells named = .ok cells') :
    ShapedCells g.type rows columns cells' := by
  induction named generalizing cells with
  | nil =>
    cases h
    exact hc
  | cons p named ih =>
    obtain ⟨row, -, h⟩ := bind_eq_ok.1 h
    obtain ⟨pairs, -, h⟩ := bind_eq_ok.1 h
    obtain ⟨cells₁, h₁, h⟩ := bind_eq_ok.1 h
    exact ih (fillRow_shaped accepts hc h₁) h

/-- A grid has a row for each name of one enumeration and a column for each of the other. -/
theorem grid_shaped {v : ValueGrid} (h : l.grid enumerations d g = .ok v) :
    ∃ r c, enumerations.get? v.rowAxis = some r ∧ enumerations.get? v.columnAxis = some c ∧
      ShapedCells g.type r.names.length c.names.length v.cells := by
  unfold Linking.grid at h
  obtain ⟨_, hu, h⟩ := bind_eq_ok.1 h
  obtain ⟨default, hd, h⟩ := bind_eq_ok.1 h
  obtain ⟨rowAxis, -, h⟩ := bind_eq_ok.1 h
  obtain ⟨columnAxis, -, h⟩ := bind_eq_ok.1 h
  obtain ⟨r, hr, h⟩ := bind_eq_ok.1 h
  obtain ⟨c, hc, h⟩ := bind_eq_ok.1 h
  obtain ⟨named, -, h⟩ := bind_eq_ok.1 h
  obtain ⟨cells, hcells, h⟩ := bind_eq_ok.1 h
  cases h
  rw [orBroken_eq_ok] at hr hc
  have accepts := Linking.checkUnit_eq_ok hu
  exact ⟨r, c, hr, hc, fillGrid_shaped accepts
    (replicate_shaped (Linking.cell_hasKind accepts hd)) hcells⟩

end Grids

end Steps

/-! ## Stores -/

/-- The columns of a table of records, in the containers of a store. -/
structure Store.ShapedRecords (s : Store) (d : Draft) (sheet : Sheet) (n : Nat)
    (types : OrderedMap String FieldType) : Prop where
  tables : s.tables.get? d.name = some (.sheet sheet)
  rowCounts : s.rowCounts.get? d.name = some n
  fieldTypes : s.fieldTypes.get? d.name = some types
  keys : types.keys = sheet.keys
  length : ∀ field f, sheet.get? field = some f → f.values.length = n
  kinds : ∀ field type, types.get? field = some type →
    ∃ f, sheet.get? field = some f ∧ ∀ v ∈ f.values, v.hasKind type
  /-- the column of row names -/
  names : d.rowNames ≠ [] → ∃ e f, s.enumerations.get? d.name = some e ∧
    sheet.get? nameField = some f ∧ f.values = e.names.map .text
  precisions : s.tracksPrecision → ∃ digits, s.precisions.get? d.name = some digits ∧
    (∀ field, field ∈ digits.keys ↔ types.get? field = some ⟨.float, false⟩) ∧
    ∀ field ds, digits.get? field = some ds → ds.length = n ∧ ∀ k ∈ ds, -1 ≤ k

/-- The containers of a store belong together. -/
structure Store.Shaped (s : Store) (tables : List Draft) : Prop where
  formats : ∀ t f, s.formats.get? t = some f ↔
    ∃ d ∈ tables, d.isMod = false ∧ d.name = t ∧ d.format = f
  records : ∀ d ∈ tables, d.format = .entities ∨ d.format = .anonymousRows →
    ∃ sheet n types, s.ShapedRecords d sheet n types
  enumerations : ∀ d ∈ tables, d.format = .enumeration → d.rowCount ≠ 0 →
    s.tables.get? d.name = none ∧ ∃ e, s.enumerations.get? d.name = some e ∧
      s.rowCounts.get? d.name = some e.names.length
  grids : ∀ d ∈ tables, ∀ g, d.grid? = some g → ∃ v r c,
    s.tables.get? d.name = some (.grid v) ∧
    s.gridAxes.get? d.name = some (v.rowAxis, v.columnAxis) ∧
    s.enumerations.get? v.rowAxis = some r ∧ s.enumerations.get? v.columnAxis = some c ∧
    v.cells.length = r.names.length ∧
    ∀ row ∈ v.cells, row.length = c.names.length ∧ ∀ x ∈ row, x.hasKind g.type

/-- The fields of a sheet, seen in the containers of the store. -/
theorem HoldsRecords.shapedRecords {l : Linking} {d : Draft} {e : Option Enumeration} {n : Nat}
    {a : Assembly} {s : Store} (h : HoldsRecords l d ((e.map Enumeration.names).getD []) n a)
    (tables : s.tables.get? d.name = a.tables.get? d.name)
    (info : s.info.get? d.name = a.info.get? d.name)
    (tracks : s.tracksPrecision = l.options.enablePrecisions)
    (he : s.enumerations.get? d.name = e)
    (all : d.rowNames ≠ [] → ∃ e', e = some e' ∧ n = e'.names.length) :
    ∃ sheet n types, s.ShapedRecords d sheet n types := by
  obtain ⟨affix, hi⟩ := h.info
  obtain ⟨sheet, hs, shaped, rowNames⟩ := h.sheet
  rw [← tables] at hs
  rw [← info] at hi
  refine ⟨sheet, n, sheet.mapValues fun _ f => f.type, hs, ?_, ?_, OrderedMap.keys_mapValues _ _,
    fun field f hf => (shaped field f hf).length, ?_, fun named => ?_, fun tracked => ?_⟩
  · rw [Store.rowCounts, OrderedMap.get?_filterMapValues, hi]
    rfl
  · rw [Store.fieldTypes, OrderedMap.get?_filterMapValues, hs]
    rfl
  · intro field type ht
    rw [OrderedMap.get?_mapValues] at ht
    obtain ⟨f, hf, rfl⟩ := Option.map_eq_some_iff.1 ht
    exact ⟨f, hf, (shaped field f hf).kinds⟩
  · obtain ⟨e', rfl, rfl⟩ := all named
    have names := rowNames named
    rw [Option.map_some, Option.getD_some, List.take_length] at names
    exact ⟨e', _, he, names, rfl⟩
  · refine ⟨sheet.filterMapValues fun _ f => f.precisions, ?_, fun field => ?_, ?_⟩
    · rw [Store.precisions, if_pos tracked, OrderedMap.get?_filterMapValues, hs]
      rfl
    · rw [OrderedMap.mem_keys_iff, OrderedMap.get?_filterMapValues, OrderedMap.get?_mapValues]
      cases hf : sheet.get? field with
      | none => simp
      | some f =>
        have iff := (shaped field f hf).tracks
        rw [Option.isSome_iff_exists] at iff
        simp only [Option.bind_some, Option.map_some, Option.some.injEq]
        rw [iff]
        simp [← tracks, tracked]
    · intro field ds hds
      rw [OrderedMap.get?_filterMapValues] at hds
      obtain ⟨f, hf, hp⟩ := Option.bind_eq_some_iff.1 hds
      exact (shaped field f hf).digits ds hp

section Runs

variable {units : Units.Converter} {options : LinkOptions} {tables : List Draft}
  {predefined : Predefined} {n : Names} {a : Assembly} {d : Draft}
  (linked : Linked predefined.toList tables n)
  (nd : ((tables.filter (!·.isMod)).map Draft.name).Nodup)
  (ha : (Linking.addTables ⟨units, options, n.entities⟩ n.enumerations { info := n.info }
    (modsLast tables)).result = .ok a)

include linked nd in
/-- A format that has no enumeration is that of no target. -/
theorem Linked.modsOf_eq_nil (hd : d ∈ tables) (hm : d.isMod = false)
    (none : ¬ (d.format.isEnumerated ∧ d.rowNames ≠ [])) : modsOf tables d.name = [] := by
  refine List.filter_eq_nil_iff.2 fun m hmt ht => none ?_
  obtain ⟨b, hb, hbe, hbr, hbn⟩ := linked.target m hmt d.name (by simpa using ht)
  cases eq_of_name nd hb hd (Draft.isMod_of_isEnumerated hbe) hm hbn
  exact ⟨hbe, hbr⟩

include linked in
theorem Linked.info_of_mem (hd : d ∈ tables) (hde : d.format.isEnumerated) :
    n.info.get? d.name = some d.info :=
  (linked.info_iff _ _).2 ⟨d, hd, hde, rfl, rfl⟩

include nd ha in
/-- The run holds of a table what the table and its mods make of it. -/
theorem exists_runOf (hd : d ∈ tables) (hm : d.isMod = false) : ∃ a₁ b,
    (Linking.addTable ⟨units, options, n.entities⟩ n.enumerations { info := n.info } d).result =
      .ok a₁ ∧
    (Linking.addTables ⟨units, options, n.entities⟩ n.enumerations a₁
      (modsOf tables d.name)).result = .ok b ∧ a.SameAt d.name b := by
  obtain ⟨b, hb, same⟩ := Linking.addTables_about (t := d.name) (.refl _) ha
  rw [about_modsLast_of_mem nd hd hm] at hb
  obtain ⟨a₁, h₁, hb⟩ := Linking.addTables_cons_eq_ok.1 hb
  exact ⟨a₁, b, h₁, hb, same⟩

theorem target_of_mem_modsOf {t : String} : ∀ m ∈ modsOf tables t, m.target? = some t :=
  fun _ hm => by simpa using (List.mem_filter.1 hm).2

include linked nd ha in
theorem format_of_mem (hd : d ∈ tables) (hm : d.isMod = false) :
    ∃ i, a.info.get? d.name = some i ∧ i.format = d.format := by
  obtain ⟨a₁, b, h₁, hb, same⟩ := exists_runOf nd ha hd hm
  rw [same.info]
  exact addTables_format target_of_mem_modsOf (addTable_format hm
    (fun hf => linked.info_of_mem hd (by rw [hf]; rfl)) h₁) hb

include linked in
/-- No draft is about a name that is no table's, for it has no mods either. -/
theorem about_eq_nil {t : String} (ht : ¬ ∃ d ∈ tables, d.isMod = false ∧ d.name = t) :
    about (modsLast tables) t = [] := by
  refine List.filter_eq_nil_iff.2 fun d hd hs => ht ?_
  rw [mem_modsLast] at hd
  cases hm : d.isMod with
  | false => exact ⟨d, hd, hm, by simpa [Draft.subject_of_notMod hm] using hs⟩
  | true =>
    obtain ⟨target, hdt⟩ := Draft.isMod_iff.1 hm
    obtain ⟨b, hb, hbe, -, hbn⟩ := linked.target d hd target hdt
    refine ⟨b, hb, Draft.isMod_of_isEnumerated hbe, hbn.trans ?_⟩
    simpa [Draft.subject_of_target hdt] using hs

include linked ha in
/-- Nothing is held of a name that is no table's. -/
theorem sameAt_of_no_table {t : String} (ht : ¬ ∃ d ∈ tables, d.isMod = false ∧ d.name = t) :
    a.SameAt t {} := by
  obtain ⟨b, hb, same⟩ := Linking.addTables_about (t := t) (.refl _) ha
  rw [about_eq_nil linked ht] at hb
  cases hb
  refine ⟨same.tables, same.info.trans (Option.eq_none_iff_forall_not_mem.2 fun i hi => ht ?_)⟩
  obtain ⟨d, hd, hde, hdn, -⟩ := (linked.info_iff t i).1 hi
  exact ⟨d, hd, Draft.isMod_of_isEnumerated hde, hdn⟩

include linked ha in
/-- What is known is known of a table. -/
theorem mem_of_info {t : String} {i : TableInfo} (hi : a.info.get? t = some i) :
    ∃ d ∈ tables, d.isMod = false ∧ d.name = t := by
  by_contra ht
  rw [(sameAt_of_no_table linked ha ht).info] at hi
  cases hi

include linked nd ha in
/-- A table of records shows what it and its mods give, in the end as after their own turns. -/
theorem shows_of_mem (sound : ∀ b ∈ tables, b.Sound) (hd : d ∈ tables)
    (hf : d.format = .entities ∨ d.format = .anonymousRows) :
    Shows ⟨units, options, n.entities⟩ d
      (((n.enumerations.get? d.name).map Enumeration.names).getD []) (modsOf tables d.name) a := by
  have hm : d.isMod = false := by rcases hf with hf | hf <;> simp [Draft.isMod, hf]
  obtain ⟨a₁, b, h₁, hb, same⟩ := exists_runOf nd ha hd hm
  have target : ∀ m ∈ modsOf tables d.name, m.target? = some d.name → d.format = .entities ∧
      ∃ e, n.enumerations.get? d.name = some e ∧ e.Inverse ∧ d.rowCount ≤ e.names.length ∧
        e.names = ((n.enumerations.get? d.name).map Enumeration.names).getD [] := by
    intro m hmem ht
    obtain ⟨enumerated, e, he, inv, le⟩ :=
      linked.enumeration_of_target nd (sound d hd) hd hm (List.mem_filter.1 hmem).1 ht
    refine ⟨hf.resolve_right fun anonymous => ?_, e, he, inv, le, by rw [he]; rfl⟩
    rw [anonymous] at enumerated
    cases enumerated
  have start : Shows ⟨units, options, n.entities⟩ d
      (((n.enumerations.get? d.name).map Enumeration.names).getD []) [] a₁ :=
    .start (sound d hd) hf h₁
  have soundMods : ∀ m ∈ modsOf tables d.name, m.Sound := fun m hmem =>
    sound m (List.mem_filter.1 hmem).1
  have isMod : ∀ m ∈ modsOf tables d.name, m.isMod := fun m hmem =>
    Draft.isMod_iff.2 ⟨_, target_of_mem_modsOf m hmem⟩
  have final := start.modifyAll (sound d hd) soundMods isMod target hb
  have twice : modsOf (modsOf tables d.name) d.name = modsOf tables d.name := by simp [modsOf]
  rw [List.nil_append, twice] at final
  exact final.frame same.tables same.info

variable (wf : ∀ d ∈ tables, d.WellFormed)

include linked nd ha wf in
/-- A table of records holds all rows that its enumeration has in the end. -/
theorem holdsRecords_of_mem (hd : d ∈ tables)
    (hf : d.format = .entities ∨ d.format = .anonymousRows) :
    ∃ e k b, n.enumerations.get? d.name = e ∧ a.SameAt d.name b ∧
      HoldsRecords ⟨units, options, n.entities⟩ d ((e.map Enumeration.names).getD []) k b ∧
      (d.rowNames ≠ [] → ∃ e', e = some e' ∧ k = e'.names.length) := by
  have hm : d.isMod = false := by rcases hf with hf | hf <;> simp [Draft.isMod, hf]
  obtain ⟨a₁, b, h₁, hb, same⟩ := exists_runOf nd ha hd hm
  by_cases named : d.rowNames = []
  · rw [linked.modsOf_eq_nil nd hd hm fun e => e.2 named] at hb
    cases hb
    exact ⟨_, d.rowCount, a₁, rfl, same, .start (wf d hd) hf (fun e => absurd named e) h₁,
      fun e => absurd named e⟩
  · have hde : d.format = .entities :=
      hf.resolve_right fun anonymous => named ((wf d hd).rows_anonymous anonymous)
    have enumerated : d.format.isEnumerated := by rw [hde]; rfl
    obtain ⟨e, he, inv, le⟩ := linked.table d hd enumerated named
    have length := (wf d hd).rows_counted.resolve_left named
    have start : HoldsRecords ⟨units, options, n.entities⟩ d e.names d.rowCount a₁ :=
      .start (wf d hd) hf (fun _ => le) h₁
    have mods : ∀ m ∈ modsOf tables d.name, m.WellFormed ∧ m.target? = some d.name :=
      fun m hm => ⟨wf m (List.mem_filter.1 hm).1, target_of_mem_modsOf m hm⟩
    refine ⟨some e, _, b, he, same, start.modifyAll mods hde named he (length ▸ le.length_le) hb,
      fun _ => ⟨e, rfl, ?_⟩⟩
    split
    · next none => rw [linked.names_eq nd hd enumerated named none he, length]
    · rfl

include linked nd ha wf in
/-- An enumeration has no fields, and all its rows are counted. -/
theorem holdsRowNames_of_mem (hd : d ∈ tables) (hf : d.format = .enumeration)
    (rows : d.rowCount ≠ 0) : ∃ e b, n.enumerations.get? d.name = some e ∧ a.SameAt d.name b ∧
      HoldsRowNames d e.names.length b := by
  have enumerated : d.format.isEnumerated := by rw [hf]; rfl
  have named := (wf d hd).rows_needed (by rw [hf]; rfl) rows
  obtain ⟨a₁, b, h₁, hb, same⟩ := exists_runOf nd ha hd (Draft.isMod_of_isEnumerated enumerated)
  obtain ⟨e, he, inv, le⟩ := linked.table d hd enumerated named
  have start : HoldsRowNames d d.rowCount a₁ :=
    .start hf (linked.info_of_mem hd enumerated) rfl h₁
  have final := start.extendAll target_of_mem_modsOf he hb
  refine ⟨e, b, he, same, ?_⟩
  split at final
  · next none =>
    rwa [linked.names_eq nd hd enumerated named none he,
      (wf d hd).rows_counted.resolve_left named]
  · exact final

include linked nd ha in
theorem grid_of_mem {g : Grid} (hd : d ∈ tables) (hg : d.grid? = some g) :
    ∃ v, a.tables.get? d.name = some (.grid v) ∧
      Linking.grid ⟨units, options, n.entities⟩ n.enumerations d g = .ok v := by
  have hc := Draft.content_of_grid? hg
  have hf : d.format = .grid := by rw [Draft.format, hc]
  have hm : d.isMod = false := by simp [Draft.isMod, hf]
  obtain ⟨a₁, b, h₁, hb, same⟩ := exists_runOf nd ha hd hm
  rw [linked.modsOf_eq_nil nd hd hm fun e => by rw [hf] at e; cases e.1] at hb
  cases hb
  have h₁ := Linking.addTable_eq_ok h₁
  rw [hc] at h₁
  obtain ⟨v, hv⟩ := h₁
  obtain ⟨grids, -⟩ := Linking.addGrid_eq_ok hv
  obtain ⟨_, resolved, hv⟩ := bind_eq_ok.1 hv
  cases hv
  exact ⟨v, by rw [same.tables, grids, OrderedMap.get?_insert, if_pos rfl], resolved⟩

include linked nd ha in
/-- The turn of a mod comes when its target is listed with its format. -/
theorem exists_turn_of_mod {b m : Draft} (hb : b ∈ tables) (enumerated : b.format.isEnumerated)
    (hm : m ∈ tables) (ht : m.target? = some b.name) :
    ∃ a₁ a₂ i, a₁.info.get? b.name = some i ∧ i.format = b.format ∧
      Linking.addMod ⟨units, options, n.entities⟩ n.enumerations a₁ m b.name = .ok a₂ := by
  have hbm := Draft.isMod_of_isEnumerated enumerated
  obtain ⟨a₀, b', h₀, hmods, -⟩ := exists_runOf nd ha hb hbm
  -- the mods of the target before this one
  obtain ⟨pre, post, split⟩ := List.append_of_mem
    (show m ∈ modsOf tables b.name from List.mem_filter.2 ⟨hm, by simpa using ht⟩)
  have target : ∀ m ∈ pre, m.target? = some b.name := fun m hmem =>
    target_of_mem_modsOf m (split ▸ List.mem_append_left _ hmem)
  rw [split] at hmods
  obtain ⟨a₁, hpre, hmods⟩ := Linking.addTables_append_eq_ok.1 hmods
  obtain ⟨a₂, hmod, -⟩ := Linking.addTables_cons_eq_ok.1 hmods
  obtain ⟨i, hi, hif⟩ := addTables_format target
    (addTable_format hbm (fun _ => linked.info_of_mem hb enumerated) h₀) hpre
  exact ⟨a₁, a₂, i, hi, hif, Linking.result_addTable_of_target ht ▸ hmod⟩

end Runs

/-- **The shape of a store.** When a run succeeds the containers of the store belong together: the
formats are those of the tables that are no mods; the columns of a table are as long as it has rows,
of the types of their fields and, where they are tracked, with digits for every FLOAT; row names,
enumerations and the axes of grids have the lengths of each other. -/
theorem link_shaped {units : Units.Converter} {options : LinkOptions} {tables : List Draft}
    {predefined : Predefined} {s : Store} (parsed : ∀ d ∈ tables, d.Parsed)
    (h : (link units options tables predefined).result = .ok s) :
    s.Shaped tables ∧ s.tracksPrecision = options.enablePrecisions := by
  obtain ⟨nd, n, a, hn, ha, rfl⟩ := link_eq_ok_iff.1 h
  have linked := linkNames_linked nd hn
  have wf : ∀ d ∈ tables, d.WellFormed := fun d hd => (parsed d hd).wellFormed
  refine ⟨⟨fun t f => ?_, fun d hd hf => ?_, fun d hd hf hr => ?_, fun d hd g hg => ?_⟩, rfl⟩
  · rw [Store.formats, OrderedMap.get?_mapValues, Option.map_eq_some_iff]
    constructor
    · rintro ⟨i, hi, rfl⟩
      obtain ⟨d, hd, hm, rfl⟩ := mem_of_info linked ha hi
      obtain ⟨i', hi', hf⟩ := format_of_mem linked nd ha hd hm
      rw [hi] at hi'
      cases hi'
      exact ⟨d, hd, hm, rfl, hf.symm⟩
    · rintro ⟨d, hd, hm, rfl, rfl⟩
      exact format_of_mem linked nd ha hd hm
  · obtain ⟨e, k, b, he, same, holds, all⟩ := holdsRecords_of_mem linked nd ha wf hd hf
    exact holds.shapedRecords same.tables same.info rfl he all
  · obtain ⟨e, b, he, same, holds⟩ := holdsRowNames_of_mem linked nd ha wf hd hf hr
    obtain ⟨affix, hi⟩ := holds.info
    refine ⟨same.tables.trans holds.tables, e, he, ?_⟩
    rw [Store.rowCounts, OrderedMap.get?_filterMapValues, same.info, hi]
    rfl
  · obtain ⟨v, table, resolved⟩ := grid_of_mem linked nd ha hd hg
    obtain ⟨r, c, hr, hc, shaped⟩ := grid_shaped resolved
    refine ⟨v, r, c, table, ?_, hr, hc, shaped.length, shaped.row⟩
    rw [Store.gridAxes, OrderedMap.get?_filterMapValues, table]
    rfl

/-- A table with a mod that adds a field and a row, an enumeration and a grid, with digits. -/
theorem zoo_shaped : ∃ s,
    (link (.only [("g", .real 0.001), ("kg", .real 1.0)] []) { enablePrecisions := true } Draft.zoo
      ∅).result = .ok s ∧
    s.rowCounts.toList = [("Animal", 3), ("Meal", 2)] ∧
    (s.precisions.get? "Animal").map (fun fields => fields.get? "weight") = some (some [2, 1, 1]) ∧
    s.Shaped Draft.zoo := by
  have run : ((link (.only [("g", .real 0.001), ("kg", .real 1.0)] [])
      { enablePrecisions := true } Draft.zoo ∅).result.toOption.map fun s =>
        (s.rowCounts.toList, (s.precisions.get? "Animal").map fun fields => fields.get? "weight")) =
      some ([("Animal", 3), ("Meal", 2)], some (some [2, 1, 1])) := by
    decide +kernel
  obtain ⟨s, h, hs⟩ := toOption_map_eq_some.1 run
  rw [Prod.mk.injEq] at hs
  exact ⟨s, h, hs.1, hs.2, (link_shaped (fun d => Draft.parsed_of_mem_readAll) h).1⟩

end TypedTables
