import TypedTables.Proofs.StoreShape
/-!
# Readable stores

For one answer a reader looks at several containers of a store: at the tables for fields and cells,
at the counts of rows for what is in range, at the enumeration of a table for the rows of its names,
and at the space of all names. `Store.Readable` says what they promise each other when a run has
succeeded. An enumeration that has the name of a table need not be that of the table, for it may be
predefined; where it is not, it tells the names of all rows.

Results:
* `Draft.Parsed.rowNames_ne`: no row that is read has an empty name.
* `holdsTable_of_mem`: what a run holds of a table, by the format of the table.
* `link_readable`: the store of a run that succeeds is readable.
-/
namespace TypedTables

/-! ## Names of rows -/

theorem readRows_ne {columns : List Column} {affix : String} {seen : List String}
    {rows : List Row} {content : List (String × List Raw)} {p p' : StringPool}
    (h : readRows columns true affix seen rows p = .ok (content, p')) :
    ∀ r ∈ content, r.1 ≠ "" := by
  induction rows generalizing seen content p p' with
  | nil =>
    rw [← (interning_pure_eq_ok.1 h).1]
    simp
  | cons row rows ih =>
    unfold readRows at h
    dsimp only at h
    rw [if_pos rfl] at h
    split at h
    · cases h
    next given =>
    split at h
    · cases h
    obtain ⟨cells, p₁, -, h⟩ := interning_bind_eq_ok.1 h
    obtain ⟨others, p₂, ho, h⟩ := interning_bind_eq_ok.1 h
    rw [← (interning_pure_eq_ok.1 h).1]
    refine List.forall_mem_cons.2 ⟨fun blank => ?_, ih ho⟩
    rw [String.append_eq_empty_iff] at blank
    exact given (by simpa using blank.2)

/-- **Names of rows.** A row that is read has no name or one that is not empty. -/
theorem Draft.Parsed.rowNames_ne {d : Draft} (h : d.Parsed) (records : d.grid? = none) :
    "" ∉ d.rowNames := by
  obtain ⟨lines, name, source, h⟩ := h
  obtain ⟨o, ho, hd⟩ := parse_eq_some_iff.1 h
  unfold ofOutline at hd
  obtain ⟨_, -, hd⟩ := bind_eq_ok.1 hd
  dsimp only at hd
  split at hd
  · obtain ⟨⟨records, pool⟩, hr, hd⟩ := bind_eq_ok.1 hd
    obtain ⟨first, names, rest, header, body, columns, p₁, named, content, -, -, -, -, hrows,
      rfl⟩ := readRecords_eq_ok hr
    cases hd
    cases named with
    | false => simp
    | true =>
      intro hm
      obtain ⟨r, hr, blank⟩ := List.mem_map.1 hm
      exact readRows_ne hrows r hr blank
  · obtain ⟨⟨⟨rowNames, g⟩, pool⟩, -, hd⟩ := bind_eq_ok.1 hd
    cases hd
    cases records

/-! ## Tables -/

/-- What the assembly holds of a table, by the format of the table. A table whose rows have names
holds those that its enumeration has in the end. -/
inductive HoldsTable (tracked : Bool) (n : Names) (d : Draft) (a : Assembly) : Prop
  | records {sheet : Sheet} {k : Nat} (format : d.format = .entities ∨ d.format = .anonymousRows)
    (tables : a.tables.get? d.name = some (.sheet sheet))
    (rows : (a.info.get? d.name).bind TableInfo.rowCount = some k) (shaped : sheet.Shaped tracked k)
    (named : d.rowNames ≠ [] → ∃ e, n.enumerations.get? d.name = some e ∧ e.names.length = k ∧
      sheet.get? nameField = some (rowNameField e.names))
  | enumeration {k : Nat} (format : d.format = .enumeration) (tables : a.tables.get? d.name = none)
    (rows : (a.info.get? d.name).bind TableInfo.rowCount = some k)
    (named : d.rowNames ≠ [] → ∃ e, n.enumerations.get? d.name = some e ∧ e.names.length = k)
  | titles (format : d.format = .wikiLookup) (tables : a.tables.get? d.name = none)
    (rows : (a.info.get? d.name).bind TableInfo.rowCount = none)
  | grid {v : ValueGrid} (format : d.format = .grid)
    (tables : a.tables.get? d.name = some (.grid v))
    (rows : (a.info.get? d.name).bind TableInfo.rowCount = none)

namespace HoldsTable

variable {tracked : Bool} {n : Names} {d : Draft} {a : Assembly}

theorem sheet {s : Sheet} (h : HoldsTable tracked n d a)
    (hs : a.tables.get? d.name = some (.sheet s)) :
    ∃ k, (a.info.get? d.name).bind TableInfo.rowCount = some k ∧ s.Shaped tracked k := by
  cases h with
  | records _ tables rows shaped =>
    cases tables.symm.trans hs
    exact ⟨_, rows, shaped⟩
  | enumeration _ tables => cases tables.symm.trans hs
  | titles _ tables => cases tables.symm.trans hs
  | grid _ tables => cases tables.symm.trans hs

theorem grid_iff (h : HoldsTable tracked n d a) :
    d.format = .grid ↔ ∃ g, a.tables.get? d.name = some (.grid g) := by
  cases h with
  | records format tables => rcases format with format | format <;> simp [format, tables]
  | enumeration format tables => simp [format, tables]
  | titles format tables => simp [format, tables]
  | grid format tables => simp [format, tables]

theorem sheet_of_format (h : HoldsTable tracked n d a)
    (hf : d.format = .entities ∨ d.format = .anonymousRows) :
    ∃ s, a.tables.get? d.name = some (.sheet s) := by
  cases h with
  | records _ tables => exact ⟨_, tables⟩
  | enumeration format => simp [format] at hf
  | titles format => simp [format] at hf
  | grid format => simp [format] at hf

theorem uncounted {g : ValueGrid} (h : HoldsTable tracked n d a)
    (hg : a.tables.get? d.name = some (.grid g)) :
    (a.info.get? d.name).bind TableInfo.rowCount = none := by
  cases h with
  | records _ tables => cases tables.symm.trans hg
  | enumeration _ tables => cases tables.symm.trans hg
  | titles _ tables => cases tables.symm.trans hg
  | grid _ _ rows => exact rows

/-- Row names are those of the enumeration, and all rows have one. -/
theorem names {k : Nat} (h : HoldsTable tracked n d a)
    (hk : (a.info.get? d.name).bind TableInfo.rowCount = some k) (named : d.rowNames ≠ []) :
    ∃ e, n.enumerations.get? d.name = some e ∧ e.names.length = k ∧
      ∀ s, a.tables.get? d.name = some (.sheet s) →
        s.get? nameField = some (rowNameField e.names) := by
  cases h with
  | records _ tables rows _ given =>
    obtain ⟨e, he, length, column⟩ := given named
    cases rows.symm.trans hk
    refine ⟨e, he, length, fun s hs => ?_⟩
    cases tables.symm.trans hs
    exact column
  | enumeration _ tables rows given =>
    obtain ⟨e, he, length⟩ := given named
    cases rows.symm.trans hk
    exact ⟨e, he, length, fun s hs => by cases tables.symm.trans hs⟩
  | titles _ _ rows => cases rows.symm.trans hk
  | grid _ _ rows => cases rows.symm.trans hk

end HoldsTable

section Runs

variable {units : Units.Converter} {options : LinkOptions} {tables : List Draft}
  {predefined : Predefined} {n : Names} {a : Assembly} {d : Draft}
  (linked : Linked predefined.toList tables n)
  (nd : ((tables.filter (!·.isMod)).map Draft.name).Nodup)
  (ha : (Linking.addTables ⟨units, options, n.entities⟩ n.enumerations { info := n.info }
    (modsLast tables)).result = .ok a)
  (wf : ∀ d ∈ tables, d.WellFormed)

include linked nd ha wf in
theorem holdsTable_of_records (hd : d ∈ tables)
    (hf : d.format = .entities ∨ d.format = .anonymousRows) :
    HoldsTable options.enablePrecisions n d a := by
  obtain ⟨e, k, b, he, same, holds, all⟩ := holdsRecords_of_mem linked nd ha wf hd hf
  obtain ⟨affix, hi⟩ := holds.info
  obtain ⟨sheet, hs, shaped, rowNames⟩ := holds.sheet
  refine .records hf (same.tables.trans hs) (by rw [same.info, hi]; rfl) shaped fun named => ?_
  obtain ⟨e', rfl, rfl⟩ := all named
  have names := rowNames named
  rw [Option.map_some, Option.getD_some, List.take_length] at names
  exact ⟨e', he, rfl, names⟩

include linked nd ha wf in
theorem holdsTable_of_enumeration (hd : d ∈ tables) (hf : d.format = .enumeration) :
    HoldsTable options.enablePrecisions n d a := by
  by_cases named : d.rowNames = []
  · -- without names there are no mods, so the table is as it was linked
    have enumerated : d.format.isEnumerated := by rw [hf]; rfl
    have notMod := Draft.isMod_of_isEnumerated enumerated
    obtain ⟨a₁, b, h₁, hb, same⟩ := exists_runOf nd ha hd notMod
    rw [linked.modsOf_eq_nil nd hd notMod fun e => e.2 named] at hb
    cases hb
    have holds := HoldsRowNames.start hf (linked.info_of_mem hd enumerated) rfl h₁
    obtain ⟨affix, hi⟩ := holds.info
    exact .enumeration hf (same.tables.trans holds.tables) (by rw [same.info, hi]; rfl)
      fun e => absurd named e
  · obtain ⟨e, b, he, same, holds⟩ :=
      holdsRowNames_of_mem linked nd ha wf hd hf ((wf d hd).rowCount_ne_zero named)
    obtain ⟨affix, hi⟩ := holds.info
    exact .enumeration hf (same.tables.trans holds.tables) (by rw [same.info, hi]; rfl)
      fun _ => ⟨e, he, rfl⟩

include linked nd ha wf in
/-- **What a run holds of a table.** Every table that is no mod is there, as its format has it. -/
theorem holdsTable_of_mem (hd : d ∈ tables) (hm : d.isMod = false) :
    HoldsTable options.enablePrecisions n d a := by
  obtain ⟨a₁, b, h₁, hb, same⟩ := exists_runOf nd ha hd hm
  have own := Linking.addTable_eq_ok h₁
  -- only a table with an enumeration has mods, so the others are as their own turns leave them
  have alone : d.format.isEnumerated = false → a.SameAt d.name a₁ := by
    intro plain
    rw [linked.modsOf_eq_nil nd hd hm fun e => by rw [plain] at e; cases e.1] at hb
    cases hb
    exact same
  cases hc : d.content with
  | grid g =>
    have hf : d.format = .grid := by rw [Draft.format, hc]
    rw [hc] at own
    obtain ⟨v, own⟩ := own
    obtain ⟨grids, info⟩ := Linking.addGrid_eq_ok own
    have same := alone (by rw [hf]; rfl)
    refine .grid (v := v) hf (by rw [same.tables, grids, OrderedMap.get?_insert, if_pos rfl]) ?_
    rw [same.info, info, OrderedMap.get?_insert, if_pos rfl]
    rfl
  | records kind columns =>
    have hf : d.format = kind.format := by rw [Draft.format, hc]
    cases kind with
    | entities => exact holdsTable_of_records linked nd ha wf hd (.inl hf)
    | anonymous => exact holdsTable_of_records linked nd ha wf hd (.inr hf)
    | enumeration => exact holdsTable_of_enumeration linked nd ha wf hd hf
    | mod target =>
      rw [Draft.isMod, hf] at hm
      cases hm
    | wikiLookup =>
      rw [hc] at own
      obtain ⟨untouched, info⟩ := Linking.addWikiLookup_eq_ok own
      have same := alone (by rw [hf]; rfl)
      refine .titles hf (by rw [same.tables, untouched]; rfl) ?_
      rw [same.info, info, OrderedMap.get?_insert, if_pos rfl]
      rfl

end Runs

/-! ## Stores -/

/-- The enumeration of a table tells the names of its rows, and all who are asked for a name or a
row tell the same. -/
structure Store.NamesRows (s : Store) (t : String) (k : Nat) (e : Enumeration) : Prop where
  inverse : e.Inverse
  length : e.names.length = k
  nonempty : "" ∉ e.names
  entities : ∀ name row, e.rows.get? name = some row → s.entities.get? name = some ⟨t, row⟩
  column : ∀ sheet, s.tables.get? t = some (.sheet sheet) →
    sheet.get? nameField = some (rowNameField e.names)

/-- What the containers of a store promise a reader. -/
structure Store.Readable (s : Store) (tables : List Draft) (predefined : Predefined) : Prop where
  table : ∀ t k, s.rowCount? t = some k → ∃ d ∈ tables, d.isMod = false ∧ d.name = t
  /-- fields have a value for each row, and digits for each where they are tracked -/
  sheet : ∀ t sheet, s.tables.get? t = some (.sheet sheet) → ∃ k, s.rowCount? t = some k ∧
    ∀ field f, sheet.get? field = some f → f.values.length = k ∧
      ∀ digits, f.precisions = some digits → digits.length = k
  contents : ∀ t, s.formats.get? t = some .entities ∨ s.formats.get? t = some .anonymousRows →
    ∃ sheet, s.tables.get? t = some (.sheet sheet)
  /-- grids and no other tables have the cells and the format of grids -/
  grid : ∀ t, s.formats.get? t = some .grid ↔ ∃ g, s.tables.get? t = some (.grid g)
  uncounted : ∀ t g, s.tables.get? t = some (.grid g) → s.rowCount? t = none
  /-- an enumeration that is not predefined is that of a table -/
  named : ∀ t k, s.rowCount? t = some k → t ∉ predefined.keys →
    ∀ e, s.enumerations.get? t = some e → s.NamesRows t k e
  named_iff : ∀ t k, s.rowCount? t = some k → t ∉ predefined.keys →
    ((∃ e, s.enumerations.get? t = some e) ↔
      ∃ d ∈ tables, d.isMod = false ∧ d.name = t ∧ d.rowNames ≠ [])

section Stores

variable {tables : List Draft} {predefined : Predefined} {n : Names} {d : Draft}
  (linked : Linked predefined.toList tables n)

include linked in
/-- An enumeration is that of a table, if it is not predefined. -/
theorem Linked.table_of_enumeration {t : String} (apart : t ∉ predefined.keys) {e : Enumeration}
    (he : n.enumerations.get? t = some e) :
    ∃ d ∈ tables, d.format.isEnumerated ∧ d.rowNames ≠ [] ∧ d.name = t := by
  rcases linked.origin t e he with ⟨members, hm⟩ | table
  · exact absurd ((predefined.mem_keys_iff t).2
      ⟨members, (predefined.get?_eq_some_iff t members).2 hm⟩) apart
  · exact table

include linked in
/-- The names of a table are those of rows that are read, so none of them is empty. -/
theorem Linked.names_ne (parsed : ∀ d ∈ tables, d.Parsed) (hd : d ∈ tables)
    (hde : d.format.isEnumerated) {e : Enumeration} (he : n.enumerations.get? d.name = some e) :
    "" ∉ e.names := by
  intro blank
  have owns := linked.coherent.owns_iff.2
    ⟨e, he, (linked.inverse_of_table hd hde he).mem_keys.2 blank⟩
  have given : ∀ b ∈ tables, b.grid? = none → "" ∉ b.rowNames :=
    fun b hb => (parsed b hb).rowNames_ne
  generalize ho : d.name = o at owns
  cases (linked.owns_iff _ _).1 owns with
  | member hp _ => exact linked.apart d hd hde _ hp ho.symm
  | @row b _ hb hbe hn =>
    refine given b hb (Option.eq_none_iff_forall_not_mem.2 fun g hg => ?_) hn
    rw [Draft.format, Draft.content_of_grid? hg] at hbe
    cases hbe
  | @modRow b _ _ hb ht hn =>
    refine given b hb (Option.eq_none_iff_forall_not_mem.2 fun g hg => ?_) hn
    rw [Draft.target?, Draft.content_of_grid? hg] at ht
    cases ht

end Stores

/-- **Readable stores.** The store of a run that succeeds keeps what it promises to a reader. -/
theorem link_readable {units : Units.Converter} {options : LinkOptions} {tables : List Draft}
    {predefined : Predefined} {s : Store} (parsed : ∀ d ∈ tables, d.Parsed)
    (h : (link units options tables predefined).result = .ok s) : s.Readable tables predefined := by
  have formats := (link_shaped parsed h).1.formats
  obtain ⟨nd, n, a, hn, ha, rfl⟩ := link_eq_ok_iff.1 h
  have linked := linkNames_linked nd hn
  have holds : ∀ d ∈ tables, d.isMod = false → HoldsTable options.enablePrecisions n d a :=
    fun d hd hm => holdsTable_of_mem linked nd ha (fun d hd => (parsed d hd).wellFormed) hd hm
  have table : ∀ t, a.tables.get? t ≠ none ∨ (a.info.get? t).bind TableInfo.rowCount ≠ none →
      ∃ d ∈ tables, d.isMod = false ∧ d.name = t := by
    intro t held
    by_contra unread
    have same := sameAt_of_no_table linked ha unread
    rw [same.tables, same.info] at held
    exact held.elim (absurd rfl) (absurd rfl)
  exact {
    table := fun t k hk => table t (.inr fun no => by cases hk.symm.trans no)
    sheet := fun t sheet hs => by
      obtain ⟨d, hd, hm, rfl⟩ := table t (.inl (by simp [hs]))
      obtain ⟨k, rows, shaped⟩ := (holds d hd hm).sheet hs
      exact ⟨k, rows, fun field f hf => ⟨(shaped field f hf).length, fun digits hds =>
        ((shaped field f hf).digits digits hds).1⟩⟩
    contents := fun t hf => by
      simp only [formats] at hf
      rcases hf with ⟨d, hd, hm, rfl, format⟩ | ⟨d, hd, hm, rfl, format⟩
      · exact (holds d hd hm).sheet_of_format (.inl format)
      · exact (holds d hd hm).sheet_of_format (.inr format)
    grid := fun t => by
      constructor
      · intro hf
        obtain ⟨d, hd, hm, rfl, format⟩ := (formats t .grid).1 hf
        exact (holds d hd hm).grid_iff.1 format
      · rintro ⟨g, hg⟩
        obtain ⟨d, hd, hm, rfl⟩ := table t (.inl (by simp [hg]))
        exact (formats _ _).2 ⟨d, hd, hm, rfl, (holds d hd hm).grid_iff.2 ⟨g, hg⟩⟩
    uncounted := fun t g hg => by
      obtain ⟨d, hd, hm, rfl⟩ := table t (.inl (by simp [hg]))
      exact (holds d hd hm).uncounted hg
    named := fun t k hk apart e he => by
      obtain ⟨d, hd, hde, named, rfl⟩ := linked.table_of_enumeration apart he
      obtain ⟨e', he', length, column⟩ :=
        (holds d hd (Draft.isMod_of_isEnumerated hde)).names hk named
      cases he'.symm.trans he
      exact ⟨linked.inverse_of_table hd hde he, length, linked.names_ne parsed hd hde he,
        fun name row hr => (linked.coherent name d.name row).2 ⟨e, he, hr⟩, column⟩
    named_iff := fun t k hk apart => by
      constructor
      · rintro ⟨e, he⟩
        obtain ⟨d, hd, hde, named, rfl⟩ := linked.table_of_enumeration apart he
        exact ⟨d, hd, Draft.isMod_of_isEnumerated hde, rfl, named⟩
      · rintro ⟨d, hd, hm, rfl, named⟩
        obtain ⟨e, he, -⟩ := (holds d hd hm).names hk named
        exact ⟨e, he⟩ }

end TypedTables
