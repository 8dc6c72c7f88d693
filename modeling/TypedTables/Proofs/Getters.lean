import TypedTables.Dataset.Query
import TypedTables.Proofs.ReadableStore
/-!
# Getters

A getter opens a table, finds the row that the caller names and takes the value of a field there.
The getters differ only in what they answer for a field that the table does not have. What they
answer can be told before from the predicates for tables, fields and names: `Access.Decides` says
so for every way to call a getter, and leaves none out.

Results:
* `Store.Readable.opens`, `Store.Readable.hasRecords_iff`: which tables can be opened, and what is
  found there.
* `rowIndex_row`, `rowIndex_name`, `rowIndex_ambiguous`: the row that a caller names.
* `Opens.returns`: what a getter answers from a row.
* `link_gettersDecided`: the predicates decide all getters.
-/
namespace TypedTables

namespace Access

/-- The getters of cells. -/
inductive Getter where
  | bool | int | float | string | stringName | array | value

/-- Read with a getter. -/
def getWith (a : Access) : Getter → String → String → RowRef → Except LookupError Value
  | .bool => a.getBool
  | .int => a.getInt
  | .float => a.getFloat
  | .string => a.getString
  | .stringName => a.getStringName
  | .array => a.getArray
  | .value => a.getValue

/-- What a getter answers for a field that the table does not have. -/
def missingFor (a : Access) : Getter → Value
  | .bool => a.missing.bool
  | .int => a.missing.int
  | .float => a.missing.float
  | .string => a.missing.string
  | .stringName => a.missing.string
  | .array => a.missing.array
  | .value => .null

theorem getWith_eq (a : Access) (g : Getter) : a.getWith g = a.get (a.missingFor g) := by
  cases g <;> rfl

/-- The table is there and is no grid, so it has rows. -/
def HasRecords (a : Access) (t : String) : Prop :=
  a.hasTable t ∧ a.store.formats.get? t ≠ some .grid

/-- What a getter answers from a row: the stored value, or the one for fields that the table does
not have. -/
structure Returns (a : Access) (g : Getter) (t field : String) (i : Nat)
    (answer : Except LookupError Value) : Prop where
  absent : a.hasField t field = false → answer = .ok (a.missingFor g)
  stored : a.hasField t field = true → ∃ sheet f v, a.store.tables.get? t = some (.sheet sheet) ∧
    sheet.get? field = some f ∧ f.values[i]? = some v ∧ answer = .ok v

/-- The predicates tell what a getter answers: first whether the table has rows, then whether the
caller names a row in one way, then whether there is such a row, and last whether the table has the
field. -/
structure Decides (a : Access) (g : Getter) (t field : String) (r : RowRef) : Prop where
  noRecords : ¬ a.HasRecords t → a.getWith g t field r = .error (.noRecords t)
  ambiguous : a.HasRecords t → r.row.isSome = r.name.isSome →
    a.getWith g t field r = .error .ambiguousRow
  row : a.HasRecords t → ∀ row, r = { row := some row } → ∃ n, a.rowCount t = .ok n ∧
    (¬ (0 ≤ row ∧ row < n) → a.getWith g t field r = .error (.rowOutOfRange row t)) ∧
    (0 ≤ row ∧ row < n → a.Returns g t field row.toNat (a.getWith g t field r))
  name : a.HasRecords t → ∀ name, r = { name := some name } →
    (a.hasRowName t name = false → a.getWith g t field r = .error (.noEntity name t)) ∧
    (a.hasRowName t name = true → ∃ rows n i, a.enumerationRows t = .ok rows ∧
      rows.get? name = some i ∧ a.rowCount t = .ok n ∧ i < n ∧
      a.Returns g t field i (a.getWith g t field r))
  errors : ∀ e, a.getWith g t field r = .error e → e = .noRecords t ∨ e = .ambiguousRow ∨
    (∃ row, r.row = some row ∧ e = .rowOutOfRange row t) ∨
    ∃ name, r.name = some name ∧ e = .noEntity name t

variable {a : Access} {t field name : String} {n i : Nat}

/-! ## Rows -/

theorem checkRow_of_lt {row : Int} (h : 0 ≤ row ∧ row < n) : checkRow t n row = .ok row.toNat :=
  if_pos h

theorem checkRow_of_not {row : Int} (h : ¬ (0 ≤ row ∧ row < n)) :
    checkRow t n row = .error (.rowOutOfRange row t) :=
  if_neg h

theorem checkRow_nat (h : i < n) : checkRow t n i = .ok i :=
  checkRow_of_lt ⟨Int.natCast_nonneg i, Int.ofNat_lt.2 h⟩

theorem rowCount_of_rowCount? (h : a.store.rowCount? t = some n) : a.rowCount t = .ok n := by
  rw [rowCount, h]

theorem hasRowName_iff : a.hasRowName t name = true ↔
    ∃ e i, a.store.enumerations.get? t = some e ∧ e.rows.get? name = some i := by
  unfold hasRowName Store.rowsOf? OrderedMap.contains
  cases a.store.enumerations.get? t with
  | none => simp
  | some e => simp [Option.isSome_iff_exists]

theorem rowIndex_row {row : Int} (h : a.rowCount t = .ok n) :
    a.rowIndex t { row := some row } = checkRow t n row := by
  show a.rowCount t >>= (fun count => checkRow t count row) = _
  rw [h]
  rfl

theorem rowIndex_name {e : Enumeration} (h : a.rowCount t = .ok n)
    (he : a.store.enumerations.get? t = some e) (hi : e.rows.get? name = some i) :
    a.rowIndex t { name := some name } = checkRow t n i := by
  unfold rowIndex Store.rowsOf?
  simp only [h, he, Option.map_some, Option.bind_some, hi]
  rfl

theorem rowIndex_of_not (h : a.rowCount t = .ok n) (no : a.hasRowName t name = false) :
    a.rowIndex t { name := some name } = .error (.noEntity name t) := by
  have unlisted : ((a.store.rowsOf? t).bind fun rows => rows.get? name) = none := by
    unfold hasRowName at no
    cases hr : a.store.rowsOf? t with
    | none => rfl
    | some rows =>
      rw [hr, Option.any_some] at no
      exact Option.not_isSome_iff_eq_none.1 (by simpa [OrderedMap.contains] using no)
  unfold rowIndex
  simp only [h, unlisted]
  rfl

theorem rowIndex_ambiguous {r : RowRef} (h : r.row.isSome = r.name.isSome) :
    a.rowIndex t r = .error .ambiguousRow := by
  obtain ⟨row, name⟩ := r
  cases row <;> cases name <;> first | rfl | cases h

/-! ## Tables -/

/-- What is found when a table is opened. One without contents has no fields. -/
structure Opens (a : Access) (t : String) (sheet : Sheet) (n : Nat) : Prop where
  records : a.records t = .ok sheet
  rowCount : a.rowCount t = .ok n
  fields : ∀ field, ((a.store.sheet? t).bind fun s => s.get? field) = sheet.get? field
  values : ∀ field f, sheet.get? field = some f → f.values.length = n
  digits : ∀ field f, sheet.get? field = some f → ∀ digits, f.precisions = some digits →
    digits.length = n

end Access

namespace Store.Readable

open Access

variable {a : Access} {t : String} {n : Nat} {tables : List Draft} {predefined : Predefined}
  (readable : a.store.Readable tables predefined)
include readable

/-- A table with rows can be opened. -/
theorem opens (hn : a.store.rowCount? t = some n) : ∃ sheet, a.Opens t sheet n := by
  have count := rowCount_of_rowCount? hn
  cases hc : a.store.tables.get? t with
  | none =>
    have absent : ∀ field, (∅ : Sheet).get? field = none := fun _ => rfl
    refine ⟨∅, ?_, count, fun field => ?_, fun field f hf => ?_, fun field f hf => ?_⟩
    · simp only [records, hc, hn, Option.isSome_some, if_true]
    · simp only [Store.sheet?, hc, Option.bind_none, absent]
    · cases (absent field).symm.trans hf
    · cases (absent field).symm.trans hf
  | some c =>
    cases c with
    | sheet s =>
      obtain ⟨k, hk, shaped⟩ := readable.sheet t s hc
      cases hk.symm.trans hn
      refine ⟨s, ?_, count, fun field => ?_, fun field f hf => (shaped field f hf).1,
        fun field f hf => (shaped field f hf).2⟩
      · simp only [records, hc]
      · simp only [Store.sheet?, hc, Option.bind_some]
    | grid g => cases (readable.uncounted t g hc).symm.trans hn

theorem hasRecords_iff : a.HasRecords t ↔ ∃ n, a.store.rowCount? t = some n := by
  unfold HasRecords hasTable OrderedMap.contains
  rw [ne_eq, readable.grid]
  cases hc : a.store.tables.get? t with
  | none => simp [Option.isSome_iff_exists]
  | some c =>
    cases c with
    | sheet s =>
      obtain ⟨k, hk, -⟩ := readable.sheet t s hc
      simp [hk]
    | grid g => simp [readable.uncounted t g hc]

theorem records_eq_error (h : ¬ a.HasRecords t) : a.records t = .error (.noRecords t) := by
  rw [readable.hasRecords_iff] at h
  unfold records
  split
  · next s hs =>
    obtain ⟨k, hk, -⟩ := readable.sheet t s hs
    exact absurd ⟨k, hk⟩ h
  · rfl
  · rw [if_neg fun counted => h (Option.isSome_iff_exists.1 counted)]

/-- The name of a row is that of one that the table has. -/
theorem row_lt (hn : a.store.rowCount? t = some n) (apart : t ∉ predefined.keys) {e : Enumeration}
    (he : a.store.enumerations.get? t = some e) {name : String} {i : Nat}
    (hi : e.rows.get? name = some i) : i < n := by
  have rows := readable.named t n hn apart e he
  rw [rows.inverse.row_iff] at hi
  rw [← rows.length]
  exact (List.getElem?_eq_some_iff.1 hi).1

end Store.Readable

namespace Access

variable {a : Access} {t : String} {sheet : Sheet} {n : Nat}

namespace Opens

variable (h : a.Opens t sheet n)
include h

theorem hasField_eq (field : String) : a.hasField t field = (sheet.get? field).isSome := by
  rw [← h.fields field, hasField]
  cases a.store.sheet? t <;> rfl

/-- A field that is found is stored. -/
theorem stored {field : String} {f : Field} (hf : sheet.get? field = some f) :
    ∃ s, a.store.tables.get? t = some (.sheet s) ∧ s.get? field = some f := by
  rw [← h.fields field, Option.bind_eq_some_iff] at hf
  obtain ⟨s, hs, hf⟩ := hf
  unfold Store.sheet? at hs
  split at hs
  · next s' hs' =>
    cases hs
    exact ⟨s, hs', hf⟩
  · cases hs

theorem get_eq (missing : Value) (field : String) (r : RowRef) :
    a.get missing t field r = a.rowIndex t r >>= fun i =>
      match sheet.get? field with
      | none => pure missing
      | some f => valueAt f i := by
  unfold get
  rw [h.records]
  rfl

/-- A getter that cannot find the row fails as the search did. -/
theorem getWith_error {r : RowRef} {e : LookupError} (hr : a.rowIndex t r = .error e) (g : Getter)
    (field : String) : a.getWith g t field r = .error e := by
  rw [getWith_eq, h.get_eq, hr]
  rfl

/-- From a row that the table has, every getter answers. -/
theorem returns {r : RowRef} {i : Nat} (hr : a.rowIndex t r = .ok i) (lt : i < n) (g : Getter)
    (field : String) : a.Returns g t field i (a.getWith g t field r) := by
  rw [getWith_eq, h.get_eq, hr]
  refine ⟨fun no => ?_, fun has => ?_⟩
  · rw [h.hasField_eq, Option.isSome_eq_false_iff, Option.isNone_iff_eq_none] at no
    rw [no]
    rfl
  · rw [h.hasField_eq] at has
    obtain ⟨f, hf⟩ := Option.isSome_iff_exists.1 has
    obtain ⟨s, hs, hsf⟩ := h.stored hf
    have value := List.getElem?_eq_getElem (h.values field f hf ▸ lt)
    refine ⟨s, f, _, hs, hsf, value, ?_⟩
    rw [hf]
    show valueAt f i = _
    rw [valueAt, value]

theorem getWith_ambiguous (g : Getter) (field : String) {r : RowRef}
    (same : r.row.isSome = r.name.isSome) : a.getWith g t field r = .error .ambiguousRow :=
  h.getWith_error (rowIndex_ambiguous same) g field

theorem getWith_outside (g : Getter) (field : String) {row : Int} (out : ¬ (0 ≤ row ∧ row < n)) :
    a.getWith g t field { row := some row } = .error (.rowOutOfRange row t) :=
  h.getWith_error ((rowIndex_row h.rowCount).trans (checkRow_of_not out)) g field

theorem returns_row (g : Getter) (field : String) {row : Int} (lt : 0 ≤ row ∧ row < n) :
    a.Returns g t field row.toNat (a.getWith g t field { row := some row }) :=
  h.returns ((rowIndex_row h.rowCount).trans (checkRow_of_lt lt)) (by omega) g field

theorem getWith_unknown (g : Getter) (field : String) {name : String}
    (no : a.hasRowName t name = false) :
    a.getWith g t field { name := some name } = .error (.noEntity name t) :=
  h.getWith_error (rowIndex_of_not h.rowCount no) g field

theorem returns_name (g : Getter) (field : String) {e : Enumeration} {name : String} {i : Nat}
    (he : a.store.enumerations.get? t = some e) (hi : e.rows.get? name = some i) (lt : i < n) :
    a.Returns g t field i (a.getWith g t field { name := some name }) :=
  h.returns ((rowIndex_name h.rowCount he hi).trans (checkRow_nat lt)) lt g field

end Opens

theorem Returns.exists_ok {g : Getter} {field : String} {i : Nat}
    {answer : Except LookupError Value} (h : a.Returns g t field i answer) :
    ∃ v, answer = .ok v := by
  cases hf : a.hasField t field with
  | false => exact ⟨_, h.absent hf⟩
  | true =>
    obtain ⟨-, -, v, -, -, -, hv⟩ := h.stored hf
    exact ⟨v, hv⟩

section Readable

variable {tables : List Draft} {predefined : Predefined}
  (readable : a.store.Readable tables predefined)
include readable

theorem decides_of_not (no : ¬ a.HasRecords t) (g : Getter) (field : String) (r : RowRef) :
    a.Decides g t field r := by
  have fails : a.getWith g t field r = .error (.noRecords t) := by
    rw [getWith_eq, get, readable.records_eq_error no]
    rfl
  refine ⟨fun _ => fails, fun yes => absurd yes no, fun yes => absurd yes no,
    fun yes => absurd yes no, fun e he => ?_⟩
  cases fails.symm.trans he
  exact .inl rfl

theorem decides_of_rowCount (hn : a.store.rowCount? t = some n) (apart : t ∉ predefined.keys)
    (g : Getter) (field : String) (r : RowRef) : a.Decides g t field r := by
  obtain ⟨sheet, opens⟩ := readable.opens hn
  have known : ∀ name, a.hasRowName t name = true → ∃ rows i, a.enumerationRows t = .ok rows ∧
      rows.get? name = some i ∧ i < n ∧
      a.Returns g t field i (a.getWith g t field { name := some name }) := by
    intro name has
    obtain ⟨e, i, he, hi⟩ := hasRowName_iff.1 has
    have lt := readable.row_lt hn apart he hi
    exact ⟨e.rows, i, by rw [enumerationRows, he], hi, lt, opens.returns_name g field he hi lt⟩
  refine ⟨fun no => absurd (readable.hasRecords_iff.2 ⟨n, hn⟩) no,
    fun _ => opens.getWith_ambiguous g field, fun _ row hr => ?_, fun _ name hr => ?_,
    fun e he => ?_⟩
  · subst hr
    exact ⟨n, opens.rowCount, opens.getWith_outside g field, opens.returns_row g field⟩
  · subst hr
    refine ⟨opens.getWith_unknown g field, fun has => ?_⟩
    obtain ⟨rows, i, hrows, hi, lt, returns⟩ := known name has
    exact ⟨rows, n, i, hrows, hi, opens.rowCount, lt, returns⟩
  · match r with
    | ⟨none, none⟩ | ⟨some _, some _⟩ =>
      cases (opens.getWith_ambiguous g field rfl).symm.trans he
      exact .inr (.inl rfl)
    | ⟨some row, none⟩ =>
      by_cases lt : 0 ≤ row ∧ row < n
      · obtain ⟨v, hv⟩ := (opens.returns_row g field lt).exists_ok
        cases hv.symm.trans he
      · cases (opens.getWith_outside g field lt).symm.trans he
        exact .inr (.inr (.inl ⟨row, rfl, rfl⟩))
    | ⟨none, some name⟩ =>
      cases has : a.hasRowName t name with
      | true =>
        obtain ⟨_, i, -, -, -, returns⟩ := known name has
        obtain ⟨v, hv⟩ := returns.exists_ok
        cases hv.symm.trans he
      | false =>
        cases (opens.getWith_unknown g field has).symm.trans he
        exact .inr (.inr (.inr ⟨name, rfl, rfl⟩))

end Readable

end Access

/-- Sizes, defined apart from all tables. -/
def Predefined.sizes : Predefined := .ofList [("Size", .ofList [("small", 0), ("large", 2)])]

/-- **Getters.** Where no predefined enumeration has the name of a table, the predicates decide what
every getter answers, whatever it is asked for. -/
theorem link_gettersDecided {units : Units.Converter} {options : LinkOptions} {tables : List Draft}
    {predefined : Predefined} {s : Store} (parsed : ∀ d ∈ tables, d.Parsed)
    (apart : ∀ d ∈ tables, d.isMod = false → d.name ∉ predefined.keys)
    (h : (link units options tables predefined).result = .ok s) (missing : MissingValues)
    (g : Access.Getter) (t field : String) (r : RowRef) :
    Access.Decides ⟨s, missing⟩ g t field r := by
  have readable : (Access.mk s missing).store.Readable tables predefined := link_readable parsed h
  by_cases records : Access.HasRecords ⟨s, missing⟩ t
  · obtain ⟨n, hn⟩ := readable.hasRecords_iff.1 records
    obtain ⟨d, hd, hm, rfl⟩ := readable.table t n hn
    exact Access.decides_of_rowCount readable hn (apart d hd hm) g field r
  · exact Access.decides_of_not readable records g field r

/-- A getter at the name of an animal that a mod adds, for a field that there is and for one that
there is not. -/
theorem zoo_gettersDecided : ∃ s,
    (link (.only [("g", .real 0.001), ("kg", .real 1.0)] []) {} Draft.zoo .sizes).result = .ok s ∧
    Access.hasRowName ⟨s, {}⟩ "Animal" "cow" ∧
    Access.hasField ⟨s, {}⟩ "Animal" "tame" ∧
    (∃ v, Access.getBool ⟨s, {}⟩ "Animal" "tame" { name := some "cow" } = .ok v) ∧
    Access.getInt ⟨s, {}⟩ "Animal" "age" { name := some "cow" } = .ok (.int (-1)) := by
  have run : ((link (.only [("g", .real 0.001), ("kg", .real 1.0)] []) {} Draft.zoo
      .sizes).result.toOption.map fun s => (Access.hasTable ⟨s, {}⟩ "Animal",
        s.formats.get? "Animal", Access.hasRowName ⟨s, {}⟩ "Animal" "cow",
        Access.hasField ⟨s, {}⟩ "Animal" "tame", Access.hasField ⟨s, {}⟩ "Animal" "age")) =
      some (true, some .entities, true, true, false) := by
    decide +kernel
  have apart : ∀ d ∈ Draft.zoo, d.isMod = false → d.name ∉ Predefined.sizes.keys := by
    decide +kernel
  obtain ⟨s, h, hs⟩ := toOption_map_eq_some.1 run
  simp only [Prod.mk.injEq] at hs
  obtain ⟨table, format, name, tame, age⟩ := hs
  have records : Access.HasRecords ⟨s, {}⟩ "Animal" := ⟨table, by rw [format]; decide⟩
  have decides := fun g field => link_gettersDecided (fun d => Draft.parsed_of_mem_readAll)
    apart h {} g "Animal" field { name := some "cow" }
  obtain ⟨_, _, _, -, -, -, -, tameThere⟩ :=
    ((decides .bool "tame").name records "cow" rfl).2 name
  obtain ⟨_, _, _, -, -, -, -, ageThere⟩ := ((decides .int "age").name records "cow" rfl).2 name
  exact ⟨s, h, name, tame, tameThere.exists_ok, ageThere.absent age⟩

end TypedTables
