import TypedTables.Proofs.NameSpace
import TypedTables.Proofs.RowNames
/-!
# Rows without names

The rows of an anonymous table have no names. But a reader looks for names in the enumeration that
has the name of the table, and nothing keeps a predefined enumeration from having the name of an
anonymous table, since such a table registers none of its own. `Access.Nameless` is what a reader
of an anonymous table expects; `Access.Borrows` is what it gets when there is such an enumeration:
the members are taken for names of rows, at their indexes, whatever rows the table has.

Results:
* `link_enumerationOf_anonymous`: the enumeration of an anonymous table is the predefined one.
* `nameless`, `borrows`: reading with and without members.
* `link_namelessRows`: the rows of an anonymous table are nameless just if no predefined enumeration
  with members has its name.
-/
namespace TypedTables

/-! ## Slots of predefined names -/

namespace Enumeration.Indexed

variable {e : Enumeration} {members : OrderedMap String Int} (h : e.Indexed members)
include h

/-- The slots reach to the greatest index. -/
theorem lt_length_iff (row : Nat) :
    row < e.names.length ↔ ∃ i ∈ members.values, (row : Int) ≤ i := by
  have length := h.length
  cases hm : members.values.max? with
  | none =>
    rw [hm] at length
    rw [List.max?_eq_none_iff.1 hm]
    simp only [Option.map_none, Option.getD_none] at length
    simp only [List.not_mem_nil, false_and, exists_false, iff_false]
    omega
  | some m =>
    obtain ⟨mem, le⟩ := List.max?_eq_some_iff.1 hm
    rw [hm] at length
    simp only [Option.map_some, Option.getD_some] at length
    constructor
    · intro lt
      exact ⟨m, mem, by omega⟩
    · rintro ⟨i, hi, below⟩
      have := le i hi
      omega

theorem slot_unused {row : Nat} (hi : (row : Int) ∉ members.values)
    (reached : ∃ i ∈ members.values, (row : Int) < i) : e.names[row]? = some "" := by
  obtain ⟨i, mem, below⟩ := reached
  have slot := List.getElem?_eq_getElem ((h.lt_length_iff row).2 ⟨i, mem, by omega⟩)
  rw [slot, h.unused row _ slot hi]

theorem slot_beyond {row : Nat} (above : ∀ i ∈ members.values, i < (row : Int)) :
    e.names[row]? = none := by
  refine List.getElem?_eq_none (Nat.le_of_not_lt fun reached => ?_)
  obtain ⟨i, hi, le⟩ := (h.lt_length_iff row).1 reached
  exact absurd (above i hi) (by omega)

section Nonneg

variable (nonneg : ∀ i ∈ members.values, 0 ≤ i)
include nonneg

theorem mem_keys_iff (name : String) : name ∈ e.rows.keys ↔ name ∈ members.keys := by
  rw [OrderedMap.mem_keys_iff, OrderedMap.mem_keys_iff]
  constructor
  · rintro ⟨i, hi⟩
    exact ⟨i, (h.rows name i).1 hi⟩
  · rintro ⟨i, hi⟩
    obtain ⟨k, rfl⟩ := Int.eq_ofNat_of_zero_le (nonneg i ((members.mem_values_iff i).2 ⟨name, hi⟩))
    exact ⟨k, (h.rows name k).2 hi⟩

theorem names_ne_nil_iff : e.names ≠ [] ↔ members.keys ≠ [] := by
  rw [← List.length_pos_iff, h.lt_length_iff]
  constructor
  · rintro ⟨i, hi, -⟩
    obtain ⟨name, hn⟩ := (members.mem_values_iff i).1 hi
    exact List.ne_nil_of_mem ((members.mem_keys_iff name).2 ⟨i, hn⟩)
  · intro named
    obtain ⟨name, hname⟩ := List.exists_mem_of_ne_nil _ named
    obtain ⟨i, hi⟩ := (members.mem_keys_iff name).1 hname
    have mem := (members.mem_values_iff i).2 ⟨name, hi⟩
    exact ⟨i, mem, nonneg i mem⟩

end Nonneg

end Enumeration.Indexed

/-! ## Reading -/

namespace Access

/-- Rows have the empty name, and nothing is found by a name. -/
structure Nameless (a : Access) (t : String) (n : Nat) : Prop where
  rowName : ∀ row : Nat, row < n → a.rowName t row = .ok ""
  hasRowName : ∀ name, a.hasRowName t name = false
  getter : ∀ g field name, a.getWith g t field { name := some name } = .error (.noEntity name t)
  precision : ∀ field name, a.precision t field { name := some name } = .error (.noEntity name t)
  dictionary : ∀ name fields,
    a.dictionary t { name := some name } fields = .error (.noEntity name t)

/-- Members of an enumeration are taken for names of rows. A row that is no index of a member has
the empty name, unless it is after all of them: then its name cannot be told. -/
structure Borrows (a : Access) (t : String) (n : Nat) (members : OrderedMap String Int) : Prop where
  hasRowName_iff : ∀ name, a.hasRowName t name ↔ name ∈ members.keys
  used : ∀ row : Nat, row < n → (row : Int) ∈ members.values →
    ∃ name, members.get? name = some (row : Int) ∧ a.rowName t row = .ok name
  unused : ∀ row : Nat, row < n → (row : Int) ∉ members.values →
    (∃ i ∈ members.values, (row : Int) < i) → a.rowName t row = .ok ""
  beyond : ∀ row : Nat, row < n → members.keys ≠ [] → (∀ i ∈ members.values, i < (row : Int)) →
    a.rowName t row = .error .broken
  known : ∀ (name : String) (row : Nat), members.get? name = some (row : Int) → row < n →
    ∀ g field, ∃ v, a.getWith g t field { name := some name } = .ok v ∧
      a.getWith g t field { row := some row } = .ok v
  outside : ∀ (name : String) (row : Nat), members.get? name = some (row : Int) → n ≤ row →
    ∀ g field, a.getWith g t field { name := some name } = .error (.rowOutOfRange row t)
  unknown : ∀ name ∉ members.keys, ∀ g field,
    a.getWith g t field { name := some name } = .error (.noEntity name t)

variable {a : Access} {t : String} {sheet : Sheet} {n : Nat}

section Opens

variable (h : a.Opens t sheet n)
include h

/-- Without names there is nothing to find by one. -/
theorem nameless (no : ∀ e, a.store.enumerations.get? t = some e →
    e.names = [] ∧ e.rows.keys = []) : a.Nameless t n := by
  have hasRowName : ∀ name, a.hasRowName t name = false := by
    intro name
    rw [← Bool.not_eq_true, Access.hasRowName_iff]
    rintro ⟨e, i, he, hi⟩
    have listed := (e.rows.mem_keys_iff name).2 ⟨i, hi⟩
    rw [(no e he).2] at listed
    cases listed
  have rowIndex := fun name => rowIndex_of_not h.rowCount (hasRowName name)
  exact {
    rowName := fun row lt => rowName_of_unnamed h.rowCount lt fun e he => (no e he).1
    hasRowName
    getter := fun g field name => h.getWith_unknown g field (hasRowName name)
    precision := fun field name => by
      rw [Access.precision, rowIndex]
      rfl
    dictionary := fun name fields => by
      rw [Access.dictionary, h.records, rowIndex]
      rfl }

/-- With members, these are taken for names of rows. -/
theorem borrows {e : Enumeration} (he : a.store.enumerations.get? t = some e)
    {members : OrderedMap String Int} (indexed : e.Indexed members)
    (nonneg : ∀ i ∈ members.values, 0 ≤ i) : a.Borrows t n members := by
  have hasRowName_iff : ∀ name, a.hasRowName t name ↔ name ∈ members.keys := by
    intro name
    rw [← indexed.mem_keys_iff nonneg, OrderedMap.mem_keys_iff, Access.hasRowName_iff, he]
    simp
  have rowIndex : ∀ (name : String) (row : Nat), members.get? name = some (row : Int) →
      a.rowIndex t { name := some name } = checkRow t n row := fun name row hi =>
    rowIndex_name h.rowCount he ((indexed.rows name row).2 hi)
  exact {
    hasRowName_iff
    used := fun row lt hi => by
      obtain ⟨name, hi⟩ := (members.mem_values_iff _).1 hi
      obtain ⟨name', slot, hi'⟩ := indexed.used name row hi
      exact ⟨name', hi', rowName_of_slot h.rowCount lt he slot⟩
    unused := fun row lt hi reached =>
      rowName_of_slot h.rowCount lt he (indexed.slot_unused hi reached)
    beyond := fun row lt named above =>
      rowName_of_no_slot h.rowCount lt he ((indexed.names_ne_nil_iff nonneg).2 named)
        (indexed.slot_beyond above)
    known := fun name row hi lt g field => by
      have byName := (rowIndex name row hi).trans (checkRow_nat lt)
      have byRow := (rowIndex_row h.rowCount).trans (checkRow_nat lt)
      exact (h.reads_same byRow lt byName).1 g field
    outside := fun name row hi le g field =>
      h.getWith_error ((rowIndex name row hi).trans (checkRow_of_not (by omega))) g field
    unknown := fun name no g field => h.getWith_unknown g field (by
      rwa [← Bool.not_eq_true, hasRowName_iff]) }

end Opens

end Access

section Stores

variable {units : Units.Converter} {options : LinkOptions} {tables : List Draft}
  {predefined : Predefined} {s : Store}
  (h : (link units options tables predefined).result = .ok s)
include h

/-- A predefined enumeration is stored with its members, and none of them has a negative index. -/
theorem link_predefined {o : String} {members : OrderedMap String Int}
    (hm : predefined.get? o = some members) : ∃ e, s.enumerations.get? o = some e ∧
      e.Indexed members ∧ ∀ i ∈ members.values, 0 ≤ i := by
  obtain ⟨e, he, indexed⟩ := (link_oneSpace h).indexed o members hm
  obtain ⟨nd, n, a, hn, -, rfl⟩ := link_eq_ok_iff.1 h
  obtain ⟨nonneg, -⟩ := (linkNames_linked nd hn).member _ ((predefined.get?_eq_some_iff o _).1 hm)
  refine ⟨e, he, indexed, fun i hi => ?_⟩
  obtain ⟨name, hname⟩ := (members.mem_values_iff i).1 hi
  exact nonneg _ ((members.get?_eq_some_iff name i).1 hname)

/-- An anonymous table has no enumeration of its own: one that has its name is predefined. -/
theorem link_enumerationOf_anonymous (parsed : ∀ d ∈ tables, d.Parsed) {t : String}
    (ht : s.formats.get? t = some .anonymousRows) {e : Enumeration}
    (he : s.enumerations.get? t = some e) : ∃ members, predefined.get? t = some members := by
  rw [← OrderedMap.mem_keys_iff, (link_oneSpace h).owner t e he]
  rintro ⟨d, hd, hde, hdn⟩
  have format := ((link_shaped parsed h).1.formats t d.format).2
    ⟨d, hd, Draft.isMod_of_isEnumerated hde, hdn, rfl⟩
  rw [ht, Option.some.injEq] at format
  rw [← format] at hde
  cases hde

end Stores

/-- Heights of the tide, one a row. -/
def Draft.tides : List Draft := readAll [
  ("Tide", ["@DB_ANONYMOUS_ROWS", "\theight", "Type\tINT", "\t3", "\t5"])]

/-- **Rows without names.** The rows of an anonymous table are nameless just if no predefined
enumeration with members has the name of the table; one that has lends its members. -/
theorem link_namelessRows {units : Units.Converter} {options : LinkOptions} {tables : List Draft}
    {predefined : Predefined} {s : Store} (parsed : ∀ d ∈ tables, d.Parsed)
    (h : (link units options tables predefined).result = .ok s) (missing : MissingValues)
    {t : String} (ht : s.formats.get? t = some .anonymousRows) :
    ∃ n, s.rowCounts.get? t = some n ∧
      (Access.Nameless ⟨s, missing⟩ t n ↔
        ∀ members, predefined.get? t = some members → members.keys = []) ∧
      ∀ members, predefined.get? t = some members →
        Access.Borrows ⟨s, missing⟩ t n members := by
  have readable : (Access.mk s missing).store.Readable tables predefined := link_readable parsed h
  obtain ⟨sheet, hs⟩ := readable.contents t (.inr ht)
  obtain ⟨n, hn, -⟩ := readable.sheet t sheet hs
  obtain ⟨sheet, opens⟩ := readable.opens hn
  have borrows : ∀ members, predefined.get? t = some members →
      Access.Borrows ⟨s, missing⟩ t n members := by
    intro members hm
    obtain ⟨e, he, indexed, nonneg⟩ := link_predefined h hm
    exact Access.borrows opens he indexed nonneg
  refine ⟨n, ?_, ⟨fun nameless members hm => ?_, fun empty => ?_⟩, borrows⟩
  · rw [Store.rowCounts, OrderedMap.get?_filterMapValues]
    exact hn
  · refine List.eq_nil_iff_forall_not_mem.2 fun name hname => ?_
    have has := ((borrows members hm).hasRowName_iff name).2 hname
    rw [nameless.hasRowName] at has
    cases has
  · refine Access.nameless opens fun e he => ?_
    obtain ⟨members, hm⟩ := link_enumerationOf_anonymous h parsed ht he
    obtain ⟨e', he', indexed, nonneg⟩ := link_predefined h hm
    cases he.symm.trans he'
    have unnamed := empty members hm
    refine ⟨?_, List.eq_nil_iff_forall_not_mem.2 fun name hname => ?_⟩
    · by_contra named
      exact (indexed.names_ne_nil_iff nonneg).1 named unnamed
    · rw [indexed.mem_keys_iff nonneg, unnamed] at hname
      cases hname

/-- With a predefined enumeration of the same name the first row is called by a member, and the
name of the second cannot be told. -/
theorem tides_borrow : ∃ s,
    (link {} {} Draft.tides (.ofList [("Tide", .ofList [("ebb", 0)])])).result = .ok s ∧
    s.formats.get? "Tide" = some .anonymousRows ∧ s.rowCounts.get? "Tide" = some 2 ∧
    Access.rowName ⟨s, {}⟩ "Tide" 0 = .ok "ebb" ∧
    Access.rowName ⟨s, {}⟩ "Tide" 1 = .error .broken ∧
    Access.hasRowName ⟨s, {}⟩ "Tide" "ebb" ∧
    ∃ v, Access.getInt ⟨s, {}⟩ "Tide" "height" { name := some "ebb" } = .ok v := by
  have run : ((link {} {} Draft.tides
      (.ofList [("Tide", .ofList [("ebb", 0)])])).result.toOption.map fun s =>
        ((s.formats.get? "Tide", s.rowCounts.get? "Tide"),
          (Access.rowName ⟨s, {}⟩ "Tide" 0, Access.rowName ⟨s, {}⟩ "Tide" 1),
          Access.hasRowName ⟨s, {}⟩ "Tide" "ebb",
          (Access.getInt ⟨s, {}⟩ "Tide" "height" { name := some "ebb" }).toOption.isSome)) =
      some ((some .anonymousRows, some 2), (.ok "ebb", .error .broken), true, true) := by
    decide +kernel
  obtain ⟨s, h, hs⟩ := toOption_map_eq_some.1 run
  simp only [Prod.mk.injEq] at hs
  obtain ⟨⟨format, count⟩, ⟨first, second⟩, has, reads⟩ := hs
  refine ⟨s, h, format, count, first, second, has, ?_⟩
  cases hv : Access.getInt ⟨s, {}⟩ "Tide" "height" { name := some "ebb" } with
  | ok v => exact ⟨v, rfl⟩
  | error e => rw [hv] at reads; cases reads

/-- Beside a predefined enumeration of another name the rows are nameless. -/
theorem tides_namelessRows : ∃ s,
    (link {} {} Draft.tides (.ofList [("Phase", .ofList [("ebb", 0)])])).result = .ok s ∧
    s.formats.get? "Tide" = some .anonymousRows ∧ Access.Nameless ⟨s, {}⟩ "Tide" 2 := by
  have run : ((link {} {} Draft.tides
      (.ofList [("Phase", .ofList [("ebb", 0)])])).result.toOption.map fun s =>
        (s.formats.get? "Tide", s.rowCounts.get? "Tide")) =
      some (some .anonymousRows, some 2) := by
    decide +kernel
  obtain ⟨s, h, hs⟩ := toOption_map_eq_some.1 run
  rw [Prod.mk.injEq] at hs
  obtain ⟨format, count⟩ := hs
  obtain ⟨n, hn, iff, -⟩ := link_namelessRows (fun d => Draft.parsed_of_mem_readAll) h {} format
  cases count.symm.trans hn
  exact ⟨s, h, format, iff.2 fun members hm => nomatch hm⟩

end TypedTables
