import TypedTables.Proofs.Getters
/-!
# Reading by name

The name of a row is kept in several places: in the list of names of the table, in the map from
names to rows, in the space of all names and in the field of names. A reader that goes by the name
finds what one that goes by the row finds, whichever of them it uses.

Results:
* `Opens.dictionary`: what a projection of a row holds.
* `findRow_names`: a scan of the field of names finds the row.
* `rowName_of_unnamed`, `rowName_of_slot`, `rowName_of_no_slot`: the name of a row.
* `link_rowNames`: reading by name is reading by row.
-/
namespace TypedTables

theorem Value.same_text (x y : String) : (Value.text x).same (.text y) = (x == y) := by
  simp [Value.same, Value.sameScalar, Value.integer?]

namespace Access

/-- Whatever is read of a row is read alike by its name, and all who know the name know the row. -/
structure ReadsByName (a : Access) (t : String) (row : Nat) (name : String) : Prop where
  hasRowName : a.hasRowName t name
  entity : a.row name = row
  rows : ∃ rows, a.enumerationRows t = .ok rows ∧ rows.get? name = some row
  getter : ∀ g field, ∃ v, a.getWith g t field { name := some name } = .ok v ∧
    a.getWith g t field { row := some row } = .ok v
  precision : ∀ field, ∃ digits, a.precision t field { name := some name } = .ok digits ∧
    a.precision t field { row := some row } = .ok digits
  dictionary : ∀ fields, ∃ m, a.dictionary t { name := some name } fields = .ok m ∧
    a.dictionary t { row := some row } fields = .ok m
  findRow : (a.store.formats.get? t = some .entities ∨
    a.store.formats.get? t = some .anonymousRows) → a.findRow t nameField (.text name) = .ok row

/-- What a row of a table is called: rows of tables with row names have one that is not empty, and
can be read by it. A projection of the row holds what is read field by field. -/
structure CallsRow (a : Access) (tables : List Draft) (t : String) (row : Nat) (name : String) :
    Prop where
  rowName : a.rowName t row = .ok name
  named_iff : name ≠ "" ↔ ∃ d ∈ tables, d.isMod = false ∧ d.name = t ∧ d.rowNames ≠ []
  reads : name ≠ "" → a.ReadsByName t row name
  dictionary : ∀ fields, ∃ m, a.dictionary t { row := some row } fields = .ok m ∧
    ∀ field v, m.get? field = some v ↔ (∀ wanted ∈ fields, field ∈ wanted) ∧
      a.hasField t field ∧ a.getValue t field { row := some row } = .ok v

variable {a : Access} {t : String} {sheet : Sheet} {n i : Nat}

/-! ## A row that is found -/

namespace Opens

variable (h : a.Opens t sheet n) {r : RowRef} (hr : a.rowIndex t r = .ok i) (lt : i < n)
include h lt

theorem valueAt_eq {field : String} {f : Field} (hf : sheet.get? field = some f) :
    valueAt f i = .ok (f.values.getD i .null) := by
  rw [valueAt, List.getD_eq_getElem?_getD, List.getElem?_eq_getElem (h.values field f hf ▸ lt)]
  rfl

include hr

theorem getValue_iff (field : String) (v : Value) :
    a.hasField t field ∧ a.getValue t field r = .ok v ↔
      ∃ f, sheet.get? field = some f ∧ f.values.getD i .null = v := by
  rw [h.hasField_eq, getValue, h.get_eq, hr]
  cases hf : sheet.get? field with
  | none => simp
  | some f =>
    show (some f).isSome ∧ valueAt f i = .ok v ↔ _
    rw [h.valueAt_eq lt hf]
    simp

theorem exists_precision (field : String) : ∃ digits, a.precision t field r = .ok digits := by
  simp only [precision, hr, h.fields, bind, Except.bind]
  cases hp : (sheet.get? field).bind Field.precisions with
  | none => exact ⟨-1, rfl⟩
  | some digits =>
    obtain ⟨f, hf, hd⟩ := Option.bind_eq_some_iff.1 hp
    dsimp only
    rw [List.getElem?_eq_getElem (h.digits field f hf digits hd ▸ lt)]
    exact ⟨_, rfl⟩

/-- A projection holds the values of the wanted fields. -/
theorem dictionary (fields : Option (List String)) : ∃ m, a.dictionary t r fields = .ok m ∧
    ∀ field v, m.get? field = some v ↔ (∀ wanted ∈ fields, field ∈ wanted) ∧
      a.hasField t field ∧ a.getValue t field r = .ok v := by
  let wanted := (fields.getD sheet.keys).filterMap fun k => (sheet.get? k).map (k, ·)
  let cell (k : String) := (sheet.get? k).map fun f => f.values.getD i .null
  let cells := wanted.map fun p => (p.1, p.2.values.getD i .null)
  have mem : ∀ k f, (k, f) ∈ wanted ↔ k ∈ fields.getD sheet.keys ∧ sheet.get? k = some f := by
    intro k f
    simp [wanted, and_comm]
  have values : (wanted.mapM fun p => (p.1, ·) <$> valueAt p.2 i) = .ok cells := by
    refine mapM_eq_ok.2 (List.forall₂_map_right_iff.2 (List.forall₂_same.2 fun p hp => ?_))
    rw [h.valueAt_eq lt ((mem p.1 p.2).1 hp).2]
    rfl
  refine ⟨.ofList cells, ?_, fun field v => ?_⟩
  · unfold Access.dictionary
    rw [h.records, hr]
    show (wanted.mapM fun p => (p.1, ·) <$> valueAt p.2 i) >>= _ = _
    rw [values]
    rfl
  · have agree : ∀ p ∈ cells, cell p.1 = some p.2 := by
      intro p hp
      obtain ⟨q, hq, rfl⟩ := List.mem_map.1 hp
      exact congrArg (Option.map _) ((mem q.1 q.2).1 hq).2
    have listed : ∀ f, sheet.get? field = some f →
        (field ∈ fields.getD sheet.keys ↔ ∀ wanted ∈ fields, field ∈ wanted) := by
      intro f hf
      cases fields with
      | none => simpa using (sheet.mem_keys_iff field).2 ⟨f, hf⟩
      | some l => simp
    rw [OrderedMap.get?_ofList_of_agree agree, h.getValue_iff hr lt, List.mem_map]
    constructor
    · rintro ⟨⟨k, f⟩, hk, e⟩
      cases e
      obtain ⟨hk, hf⟩ := (mem k f).1 hk
      exact ⟨(listed f hf).1 hk, f, hf, rfl⟩
    · rintro ⟨all, f, hf, rfl⟩
      exact ⟨(field, f), (mem field f).2 ⟨(listed f hf).2 all, hf⟩, rfl⟩

/-- All that is read of a row is the same, however the caller names the row. -/
theorem reads_same {r' : RowRef} (hr' : a.rowIndex t r' = .ok i) :
    (∀ g field, ∃ v, a.getWith g t field r' = .ok v ∧ a.getWith g t field r = .ok v) ∧
    (∀ field, ∃ digits, a.precision t field r' = .ok digits ∧ a.precision t field r = .ok digits) ∧
    ∀ fields, ∃ m, a.dictionary t r' fields = .ok m ∧ a.dictionary t r fields = .ok m := by
  refine ⟨fun g field => ?_, fun field => ?_, fun fields => ?_⟩
  · obtain ⟨v, hv⟩ := (h.returns hr lt g field).exists_ok
    refine ⟨v, ?_, hv⟩
    rw [← hv, getWith_eq, h.get_eq, h.get_eq, hr, hr']
  · obtain ⟨digits, hd⟩ := h.exists_precision hr lt field
    refine ⟨digits, ?_, hd⟩
    rw [← hd, Access.precision, Access.precision, hr, hr']
  · obtain ⟨m, hm, -⟩ := h.dictionary hr lt fields
    refine ⟨m, ?_, hm⟩
    rw [← hm, Access.dictionary, Access.dictionary, hr, hr']

end Opens

/-! ## Names of rows -/

theorem findIdx?_names {names : List String} (nd : names.Nodup) {name : String}
    (hi : names[i]? = some name) :
    (names.map Value.text).findIdx? (·.same (.text name)) = some i := by
  obtain ⟨lt, rfl⟩ := List.getElem?_eq_some_iff.1 hi
  rw [List.findIdx?_map, List.findIdx?_eq_some_iff_getElem]
  refine ⟨lt, by simp [Value.same_text], fun j hj => ?_⟩
  simp only [Function.comp_apply, Value.same_text, beq_iff_eq]
  exact fun same => Nat.ne_of_lt hj ((nd.getElem_inj_iff).1 same)

/-- A scan of the field of names finds the row. -/
theorem findRow_names {names : List String} (h : a.records t = .ok sheet)
    (column : sheet.get? nameField = some (rowNameField names)) (nd : names.Nodup) {name : String}
    (hi : names[i]? = some name) : a.findRow t nameField (.text name) = .ok i := by
  have field : a.column t nameField = .ok (rowNameField names) := by
    simp only [Access.column, h, bind, Except.bind, column]
    rfl
  have found : (rowNameField names).values.findIdx? (·.same (.text name)) = some i :=
    findIdx?_names nd hi
  simp only [findRow, field, bind, Except.bind, found]
  rfl

theorem rowName_of_unnamed (hn : a.rowCount t = .ok n) (lt : i < n)
    (no : ∀ e, a.store.enumerations.get? t = some e → e.names = []) : a.rowName t i = .ok "" := by
  simp only [rowName, hn, checkRow_nat lt, bind, Except.bind]
  cases he : a.store.enumerations.get? t with
  | none => rfl
  | some e =>
    rw [Option.map_some, no e he]
    rfl

section Named

variable {e : Enumeration} (hn : a.rowCount t = .ok n) (lt : i < n)
  (he : a.store.enumerations.get? t = some e)
include hn lt he

/-- An enumeration tells the names of the rows that it reaches. -/
theorem rowName_of_slot {name : String} (hi : e.names[i]? = some name) :
    a.rowName t i = .ok name := by
  -- with names there is only the last of the three cases
  have named := List.ne_nil_of_mem (List.mem_of_getElem? hi)
  simp only [rowName, hn, checkRow_nat lt, bind, Except.bind, he, Option.map_some, hi]
  rfl

/-- If it has names but does not reach so far, there is none to tell. -/
theorem rowName_of_no_slot (named : e.names ≠ []) (hi : e.names[i]? = none) :
    a.rowName t i = .error .broken := by
  simp only [rowName, hn, checkRow_nat lt, bind, Except.bind, he, Option.map_some, hi]

end Named

section Readable

variable {tables : List Draft} {predefined : Predefined}
  (readable : a.store.Readable tables predefined)
include readable

/-- Where the rows of a table have names, each of them can be read by its name. -/
theorem readsByName (hn : a.store.rowCount? t = some n) (lt : i < n) {e : Enumeration}
    (he : a.store.enumerations.get? t = some e) (rows : a.store.NamesRows t n e) {name : String}
    (hi : e.names[i]? = some name) : a.ReadsByName t i name := by
  obtain ⟨sheet, opens⟩ := readable.opens hn
  have row : e.rows.get? name = some i := (rows.inverse.row_iff name i).2 hi
  have byRow : a.rowIndex t { row := some i } = .ok i :=
    (rowIndex_row opens.rowCount).trans (checkRow_nat lt)
  have byName : a.rowIndex t { name := some name } = .ok i :=
    (rowIndex_name opens.rowCount he row).trans (checkRow_nat lt)
  obtain ⟨getter, precision, dictionary⟩ := opens.reads_same byRow lt byName
  refine ⟨hasRowName_iff.2 ⟨e, i, he, row⟩, ?_, ⟨e.rows, by rw [enumerationRows, he], row⟩, getter,
    precision, dictionary, fun format => ?_⟩
  · rw [Access.row, rows.entities name i row]
  · obtain ⟨s, hs⟩ := readable.contents t format
    exact findRow_names (by rw [records, hs]) (rows.column s hs) rows.inverse.nodup hi

/-- Every row has a name, be it the empty one. -/
theorem callsRow (hn : a.store.rowCount? t = some n) (apart : t ∉ predefined.keys) (lt : i < n) :
    ∃ name, a.CallsRow tables t i name := by
  obtain ⟨sheet, opens⟩ := readable.opens hn
  have named_iff := readable.named_iff t n hn apart
  have dictionary := opens.dictionary
    ((rowIndex_row opens.rowCount).trans (checkRow_nat lt)) lt
  cases he : a.store.enumerations.get? t with
  | none =>
    refine ⟨"", rowName_of_unnamed opens.rowCount lt (by simp [he]), ?_, absurd rfl, dictionary⟩
    rw [← named_iff, he]
    simp
  | some e =>
    have rows := readable.named t n hn apart e he
    obtain ⟨name, hi⟩ : ∃ name, e.names[i]? = some name :=
      ⟨_, List.getElem?_eq_getElem (rows.length ▸ lt)⟩
    have mem := List.mem_of_getElem? hi
    exact ⟨name, rowName_of_slot opens.rowCount lt he hi,
      ⟨fun _ => named_iff.1 ⟨e, he⟩, fun _ blank => rows.nonempty (blank ▸ mem)⟩,
      fun _ => readsByName readable hn lt he rows hi, dictionary⟩

end Readable

end Access

/-- **Reading by name.** Where no predefined enumeration has the name of a table, every row has a
name, which is empty only if the rows of the table have none; and whatever is read of the row is
read alike by its name. -/
theorem link_rowNames {units : Units.Converter} {options : LinkOptions} {tables : List Draft}
    {predefined : Predefined} {s : Store} (parsed : ∀ d ∈ tables, d.Parsed)
    (apart : ∀ d ∈ tables, d.isMod = false → d.name ∉ predefined.keys)
    (h : (link units options tables predefined).result = .ok s) (missing : MissingValues)
    {t : String} {n row : Nat} (hn : s.rowCounts.get? t = some n) (lt : row < n) :
    ∃ name, Access.CallsRow ⟨s, missing⟩ tables t row name := by
  have readable : (Access.mk s missing).store.Readable tables predefined := link_readable parsed h
  rw [Store.rowCounts, OrderedMap.get?_filterMapValues] at hn
  obtain ⟨d, hd, hm, rfl⟩ := readable.table t n hn
  exact Access.callsRow readable hn (apart d hd hm) lt

/-- The animal of the last row, which a mod adds. -/
theorem zoo_rowNames : ∃ s,
    (link (.only [("g", .real 0.001), ("kg", .real 1.0)] []) {} Draft.zoo .sizes).result = .ok s ∧
    s.rowCounts.get? "Animal" = some 3 ∧ Access.rowName ⟨s, {}⟩ "Animal" 2 = .ok "cow" ∧
    Access.ReadsByName ⟨s, {}⟩ "Animal" 2 "cow" := by
  have run : ((link (.only [("g", .real 0.001), ("kg", .real 1.0)] []) {} Draft.zoo
      .sizes).result.toOption.map fun s =>
        (s.rowCounts.get? "Animal", (Access.rowName ⟨s, {}⟩ "Animal" 2).toOption)) =
      some (some 3, some "cow") := by
    decide +kernel
  have apart : ∀ d ∈ Draft.zoo, d.isMod = false → d.name ∉ Predefined.sizes.keys := by
    decide +kernel
  obtain ⟨s, h, hs⟩ := toOption_map_eq_some.1 run
  rw [Prod.mk.injEq] at hs
  obtain ⟨count, called⟩ := hs
  obtain ⟨name, calls⟩ := link_rowNames (fun d => Draft.parsed_of_mem_readAll) apart h {} count
    (show 2 < 3 by decide)
  have rowName : Access.rowName ⟨s, {}⟩ "Animal" 2 = .ok name := calls.rowName
  rw [rowName] at called
  obtain rfl : name = "cow" := Option.some.inj called
  exact ⟨s, h, count, rowName, calls.reads (by decide)⟩

end TypedTables
