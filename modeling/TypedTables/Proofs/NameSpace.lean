import TypedTables.Proofs.Linked
import TypedTables.Proofs.SoundDraft
/-!
# One space of names

All names of a store are in one space, seen in four ways: the row of a name, its owner, the rows
of the names of an owner, and the names of an owner by their rows. `Store.OneSpace` says that the
four agree.

Results:
* `mem_of_namesByIndex`, `namesByIndex_of_mem`, `length_namesByIndex`: the names of a predefined
  enumeration by their indexes, which may leave gaps.
* `link_oneSpace`: in the store of a run that succeeds all names are in one space.
-/
namespace TypedTables

/-! ## Predefined members -/

theorem mem_of_foldl_set {l : List (String × Nat)} {names : List String} {i : Nat} {x : String}
    (h : (l.foldl (fun names p => names.set p.2 p.1) names)[i]? = some x) :
    (x, i) ∈ l ∨ (∀ p ∈ l, p.2 ≠ i) ∧ names[i]? = some x := by
  induction l generalizing names with
  | nil => exact .inr ⟨by simp, h⟩
  | cons p l ih =>
    rcases ih h with hm | ⟨hl, hi⟩
    · exact .inl (List.mem_cons_of_mem _ hm)
    · by_cases hp : p.2 = i
      · subst hp
        rw [List.getElem?_set_self'] at hi
        have : x = p.1 := by
          cases hn : names[p.2]? with
          | none => simp [hn] at hi
          | some y => simpa [hn, eq_comm] using hi
        subst this
        exact .inl List.mem_cons_self
      · rw [List.getElem?_set_ne hp] at hi
        exact .inr ⟨List.forall_mem_cons.2 ⟨hp, hl⟩, hi⟩

theorem length_foldl_set (l : List (String × Nat)) (names : List String) :
    (l.foldl (fun names p => names.set p.2 p.1) names).length = names.length := by
  induction l generalizing names with
  | nil => rfl
  | cons p l ih => rw [List.foldl_cons, ih, List.length_set]

theorem foldl_max_spec (l : List (String × Nat)) (n : Nat) :
    n ≤ l.foldl (fun n p => max n (p.2 + 1)) n ∧
    (∀ p ∈ l, p.2 < l.foldl (fun n p => max n (p.2 + 1)) n) ∧
    (l.foldl (fun n p => max n (p.2 + 1)) n = n ∨
      ∃ p ∈ l, l.foldl (fun n p => max n (p.2 + 1)) n = p.2 + 1) := by
  induction l generalizing n with
  | nil => simp
  | cons p l ih =>
    obtain ⟨le, lt, top⟩ := ih (max n (p.2 + 1))
    rw [List.foldl_cons]
    refine ⟨by omega, ?_, ?_⟩
    · intro q hq
      rcases List.mem_cons.1 hq with rfl | hq
      · omega
      · exact lt q hq
    · rcases top with top | ⟨q, hq, hqt⟩
      · rw [top]
        rcases Nat.le_total n (p.2 + 1) with hle | hle
        · exact .inr ⟨p, List.mem_cons_self, Nat.max_eq_right hle⟩
        · exact .inl (Nat.max_eq_left hle)
      · exact .inr ⟨q, List.mem_cons_of_mem _ hq, hqt⟩

namespace Names

variable {l : List (String × Nat)}

/-- Every slot holds a name with its index, or the empty text if there is none. -/
theorem mem_of_namesByIndex {i : Nat} {x : String} (h : (namesByIndex l)[i]? = some x) :
    (x, i) ∈ l ∨ (∀ p ∈ l, p.2 ≠ i) ∧ x = "" := by
  rcases mem_of_foldl_set h with hm | ⟨hl, hi⟩
  · exact .inl hm
  · exact .inr ⟨hl, (List.mem_replicate.1 (List.mem_iff_getElem?.2 ⟨i, hi⟩)).2⟩

theorem lt_length_namesByIndex {p : String × Nat} (hp : p ∈ l) :
    p.2 < (namesByIndex l).length := by
  unfold namesByIndex
  rw [length_foldl_set, List.length_replicate]
  exact (foldl_max_spec l 0).2.1 p hp

theorem length_namesByIndex :
    (namesByIndex l).length = 0 ∨ ∃ p ∈ l, (namesByIndex l).length = p.2 + 1 := by
  unfold namesByIndex
  rw [length_foldl_set, List.length_replicate]
  exact (foldl_max_spec l 0).2.2

end Names

/-- The enumeration holds these members, each at its index. -/
structure Enumeration.Indexed (e : Enumeration) (members : OrderedMap String Int) : Prop where
  rows : ∀ name (i : Nat), e.rows.get? name = some i ↔ members.get? name = some (i : Int)
  /-- one more than the greatest index -/
  length : (e.names.length : Int) = (members.values.max?.map (· + 1)).getD 0
  used : ∀ name (i : Nat), members.get? name = some (i : Int) →
    ∃ name', e.names[i]? = some name' ∧ members.get? name' = some (i : Int)
  unused : ∀ (i : Nat) name, e.names[i]? = some name → (i : Int) ∉ members.values → name = ""

namespace Predefined

variable {members : OrderedMap String Int} (nonneg : ∀ p ∈ members.toList, 0 ≤ p.2)
include nonneg

theorem rows_enumeration (name : String) (i : Nat) :
    (enumeration members).rows.get? name = some i ↔ members.get? name = some (i : Int) := by
  show (members.mapValues _).get? name = _ ↔ _
  rw [OrderedMap.get?_mapValues]
  cases h : members.get? name with
  | none => simp
  | some j =>
    have := nonneg _ ((members.get?_eq_some_iff name j).1 h)
    simp only [Option.map_some, Option.some.injEq]
    omega

theorem mem_rows_enumeration (name : String) (i : Nat) :
    (name, i) ∈ (enumeration members).rows.toList ↔ members.get? name = some (i : Int) := by
  rw [← OrderedMap.get?_eq_some_iff, rows_enumeration nonneg]

theorem lt_length_enumeration {name : String} {i : Nat} (h : members.get? name = some (i : Int)) :
    i < (enumeration members).names.length :=
  Names.lt_length_namesByIndex ((mem_rows_enumeration nonneg name i).2 h)

/-- The names reach up to the greatest index. -/
theorem length_enumeration : ((enumeration members).names.length : Int) =
    (members.values.max?.map (· + 1)).getD 0 := by
  have top : (enumeration members).names.length = 0 ∨
      ∃ p ∈ (enumeration members).rows.toList,
        (enumeration members).names.length = p.2 + 1 := Names.length_namesByIndex
  cases hm : members.values.max? with
  | none =>
    rw [List.max?_eq_none_iff] at hm
    rcases top with top | ⟨⟨name, i⟩, hp, -⟩
    · simp [top]
    · have := (members.mem_values_iff _).2 ⟨name, (mem_rows_enumeration nonneg name i).1 hp⟩
      rw [hm] at this
      cases this
  | some m =>
    obtain ⟨hm, le⟩ := List.max?_eq_some_iff.1 hm
    obtain ⟨name, hn⟩ := (members.mem_values_iff m).1 hm
    have h0 := nonneg _ ((members.get?_eq_some_iff name m).1 hn)
    have hn' : members.get? name = some (m.toNat : Int) := by
      rw [hn]
      congr
      omega
    have above := lt_length_enumeration nonneg hn'
    rcases top with top | ⟨⟨name', i⟩, hp, top⟩
    · omega
    · have below := le i ((members.mem_values_iff _).2
        ⟨name', (mem_rows_enumeration nonneg name' i).1 hp⟩)
      simp only [Option.map_some, Option.getD_some]
      dsimp only at top
      omega

theorem enumeration_indexed : (enumeration members).Indexed members where
  rows := rows_enumeration nonneg
  length := length_enumeration nonneg
  used name i h := by
    have slot := List.getElem?_eq_getElem (lt_length_enumeration nonneg h)
    rcases Names.mem_of_namesByIndex slot with hm | ⟨none, -⟩
    · exact ⟨_, slot, (mem_rows_enumeration nonneg _ i).1 hm⟩
    · exact absurd rfl (none _ ((mem_rows_enumeration nonneg name i).2 h))
  unused i name hn unused := by
    rcases Names.mem_of_namesByIndex hn with hm | ⟨-, rfl⟩
    · exact absurd ((members.mem_values_iff _).2
        ⟨name, (mem_rows_enumeration nonneg name i).1 hm⟩) unused
    · rfl

end Predefined

/-! ## Stores -/

/-- The names of a store are in one space. -/
structure Store.OneSpace (s : Store) (tables : List Draft) (predefined : Predefined) : Prop where
  /-- every name with a row has an owner -/
  keys : s.entityRows.keys = s.entityOwners.keys
  /-- the owner of a name lists it, with the row that it has -/
  listed : ∀ name o, s.entityOwners.get? name = some o →
    ∃ e, s.enumerations.get? o = some e ∧ name ∈ e.rows.keys ∧
      e.rows.get? name = s.entityRows.get? name
  /-- who lists a name owns it -/
  owned : ∀ o e, s.enumerations.get? o = some e → ∀ name ∈ e.rows.keys,
    s.entityOwners.get? name = some o
  /-- the names are those of all owners -/
  mem_keys : ∀ name, name ∈ s.entityRows.keys ↔
    ∃ o e, s.enumerations.get? o = some e ∧ name ∈ e.rows.keys
  disjoint : ∀ o o' e e', o ≠ o' → s.enumerations.get? o = some e →
    s.enumerations.get? o' = some e' → e.rows.keys.Disjoint e'.rows.keys
  /-- the names of a table and their rows are each other's inverse -/
  table : ∀ d ∈ tables, d.format.isEnumerated → ∀ e, s.enumerations.get? d.name = some e →
    e.Inverse
  /-- predefined names keep their indexes -/
  indexed : ∀ o members, predefined.get? o = some members →
    ∃ e, s.enumerations.get? o = some e ∧ e.Indexed members
  /-- an owner is a table or predefined, and not both -/
  owner : ∀ o e, s.enumerations.get? o = some e →
    (o ∈ predefined.keys ↔ ¬ ∃ d ∈ tables, d.format.isEnumerated ∧ d.name = o)

theorem Linked.oneSpace {predefined : Predefined} {tables : List Draft} {n : Names} {s : Store}
    (h : Linked predefined.toList tables n) (he : s.entities = n.entities)
    (hn : s.enumerations = n.enumerations) : s.OneSpace tables predefined := by
  have row : ∀ name, s.entityRows.get? name = (n.entities.get? name).map Entity.row := by
    intro name
    rw [Store.entityRows, OrderedMap.get?_mapValues, he]
  have owned : ∀ o e, s.enumerations.get? o = some e → ∀ name ∈ e.rows.keys,
      s.entityOwners.get? name = some o := by
    intro o e ho name hm
    rw [Names.entityOwners_eq_some_iff he, h.coherent.owns_iff]
    exact ⟨e, hn ▸ ho, hm⟩
  exact {
    keys := by rw [Store.entityRows, Store.entityOwners, OrderedMap.keys_mapValues,
      OrderedMap.keys_mapValues]
    listed := fun name o ho => by
      obtain ⟨r, hr⟩ := (Names.entityOwners_eq_some_iff he).1 ho
      obtain ⟨e, hoe, hrow⟩ := (h.coherent name o r).1 hr
      refine ⟨e, hn ▸ hoe, (e.rows.mem_keys_iff name).2 ⟨r, hrow⟩, ?_⟩
      rw [row, hr, hrow]
      rfl
    owned := owned
    mem_keys := fun name => by
      rw [OrderedMap.mem_keys_iff]
      constructor
      · rintro ⟨r, hr⟩
        rw [row, Option.map_eq_some_iff] at hr
        obtain ⟨⟨o, r'⟩, hx, -⟩ := hr
        obtain ⟨e, ho, hm⟩ := h.coherent.owns_iff.1 ⟨r', hx⟩
        exact ⟨o, e, hn ▸ ho, hm⟩
      · rintro ⟨o, e, ho, hm⟩
        obtain ⟨r, hr⟩ := (Names.entityOwners_eq_some_iff he).1 (owned o e ho name hm)
        exact ⟨r, by rw [row, hr]; rfl⟩
    disjoint := fun o o' e e' hne ho ho' name hm hm' => by
      have := owned o e ho name hm
      rw [owned o' e' ho' name hm'] at this
      exact hne (Option.some.inj this).symm
    table := fun d hd hde e ho => h.inverse_of_table hd hde (hn ▸ ho)
    indexed := fun o members ho => by
      obtain ⟨nonneg, hoe⟩ := h.member _ ((predefined.get?_eq_some_iff o members).1 ho)
      exact ⟨_, hn ▸ hoe, Predefined.enumeration_indexed nonneg⟩
    owner := fun o e ho => by
      rw [OrderedMap.mem_keys_iff]
      constructor
      · rintro ⟨members, hm⟩ ⟨d, hd, hde, hdo⟩
        exact h.apart d hd hde _ ((predefined.get?_eq_some_iff o members).1 hm) hdo.symm
      · intro no
        rcases h.origin o e (hn ▸ ho) with ⟨members, hm⟩ | ⟨b, hb, hbe, -, hbn⟩
        · exact ⟨members, (predefined.get?_eq_some_iff o members).2 hm⟩
        · exact absurd ⟨b, hb, hbe, hbn⟩ no }

/-- **One space.** In the store of a run that succeeds, the rows and the owners of all names and
the lists of the owners tell the same. -/
theorem link_oneSpace {units : Units.Converter} {options : LinkOptions} {tables : List Draft}
    {predefined : Predefined} {s : Store}
    (h : (link units options tables predefined).result = .ok s) : s.OneSpace tables predefined := by
  obtain ⟨nd, n, a, hn, -, rfl⟩ := link_eq_ok_iff.1 h
  exact (linkNames_linked nd hn).oneSpace rfl rfl

/-- A table that a mod extends, beside a predefined enumeration that leaves a gap. -/
theorem pets_oneSpace :
    ∃ s, (link {} {} Draft.pets (.ofList [("Size", .ofList [("small", 0), ("large", 2)])])).result =
        .ok s ∧
      s.entities.keys = ["small", "large", "cat", "dog", "fox"] ∧
      (s.enumerations.get? "Size").map Enumeration.names = some ["small", "", "large"] ∧
      s.OneSpace Draft.pets (.ofList [("Size", .ofList [("small", 0), ("large", 2)])]) := by
  have run : ((link {} {} Draft.pets
      (.ofList [("Size", .ofList [("small", 0), ("large", 2)])])).result.toOption.map fun s =>
        (s.entities.keys, (s.enumerations.get? "Size").map Enumeration.names)) =
      some (["small", "large", "cat", "dog", "fox"], some ["small", "", "large"]) := by
    decide +kernel
  obtain ⟨s, h, hs⟩ := toOption_map_eq_some.1 run
  rw [Prod.mk.injEq] at hs
  exact ⟨s, h, hs.1, hs.2, link_oneSpace h⟩

/-- A table whose rows have no names is not refused when it has the name of a predefined
enumeration, as a table of entities is. What stands under its name as the list of its row names is
then that enumeration, in which a name occurs more than once. -/
theorem anonymous_beside_predefined :
    ∃ s, (link {} {}
        (Draft.readAll [("t", ["@DB_ANONYMOUS_ROWS", "\tx", "Type\tINT", "\t1"])])
        (.ofList [("t", .ofList [("a", 3)])])).result = .ok s ∧
      s.tables.keys = ["t"] ∧ ∃ e, s.enumerations.get? "t" = some e ∧ ¬ e.names.Nodup := by
  have run : ((link {} {}
      (Draft.readAll [("t", ["@DB_ANONYMOUS_ROWS", "\tx", "Type\tINT", "\t1"])])
      (.ofList [("t", .ofList [("a", 3)])])).result.toOption.map fun s =>
        (s.tables.keys, (s.enumerations.get? "t").map Enumeration.names)) =
      some (["t"], some ["", "", "", "a"]) := by
    decide +kernel
  obtain ⟨s, h, hs⟩ := toOption_map_eq_some.1 run
  rw [Prod.mk.injEq, Option.map_eq_some_iff] at hs
  obtain ⟨keys, e, he, names⟩ := hs
  exact ⟨s, h, keys, e, he, by rw [names]; decide⟩

end TypedTables
