import TypedTables.Dataset.Link
import TypedTables.Proofs.Outcome
/-!
# Registering names

What each step of linking adds to the names of a dataset, and when it is refused. A name is
registered with an owner and a row (`entities`), and every owner lists its names (`enumerations`).
The two views tell the same (`Names.Coherent`): each step keeps that, although within a step the
names of the owner at work are ahead of its enumeration.

Results:
* `addEntities_eq_ok_iff`, `addPredefined_eq_ok_iff`, `addTable_eq_ok_iff`: when a step succeeds,
  and what it leaves behind.
* `extend_spec`, `extend_eq_ok`: the same for the names of a mod, of which the target may have
  some already.
* `Coherent.register`, `Extension.coherent`: both kinds of step keep the two views together.
-/
namespace TypedTables

/-- Every name stands in the row that it is looked up with, and in no other. -/
structure Enumeration.Inverse (e : Enumeration) : Prop where
  nodup : e.names.Nodup
  row_iff : ∀ name i, e.rows.get? name = some i ↔ e.names[i]? = some name

/-- A name at the end of an enumeration. -/
def Enumeration.add (e : Enumeration) (name : String) : Enumeration :=
  ⟨e.rows.insert name e.names.length, e.names ++ [name]⟩

theorem Enumeration.mem_keys_add {e : Enumeration} {name name' : String} :
    name' ∈ (e.add name).rows.keys ↔ name' ∈ e.rows.keys ∨ name' = name := by
  unfold add
  rw [OrderedMap.keys_insert]
  split
  · next h =>
    constructor
    · exact .inl
    · rintro (h' | rfl)
      · exact h'
      · exact h
  · simp

theorem Enumeration.Inverse.mem_keys {e : Enumeration} (h : e.Inverse) {name : String} :
    name ∈ e.rows.keys ↔ name ∈ e.names := by
  rw [OrderedMap.mem_keys_iff, List.mem_iff_getElem?]
  simp only [h.row_iff]

theorem Enumeration.Inverse.add {e : Enumeration} {name : String} (h : e.Inverse)
    (new : name ∉ e.rows.keys) : (e.add name).Inverse where
  nodup := by
    rw [h.mem_keys] at new
    refine List.nodup_append.2 ⟨h.nodup, by simp, fun x hx y hy e => new ?_⟩
    rw [List.mem_singleton.1 hy] at e
    rwa [← e]
  row_iff name' i := by
    have hi := h.row_iff name' i
    unfold Enumeration.add
    rw [OrderedMap.get?_insert]
    by_cases hn : name = name'
    · subst hn
      have no : e.names[i]? ≠ some name := by
        intro hm
        exact new (h.mem_keys.2 (List.mem_iff_getElem?.2 ⟨i, hm⟩))
      rcases Nat.lt_trichotomy i e.names.length with hlt | rfl | hgt
      · rw [List.getElem?_append_left hlt]
        have : e.names.length ≠ i := by omega
        simp [no, this]
      · simp
      · have : e.names.length ≠ i := by omega
        rw [List.getElem?_eq_none (by simp; omega)]
        simp [this]
    · rw [if_neg hn, hi, List.getElem?_append]
      split
      · rfl
      · next hl =>
        rw [List.getElem?_eq_none (by omega)]
        rcases hk : i - e.names.length with _ | k
        · simp [hn]
        · simp

/-- The enumeration of predefined members. -/
def Predefined.enumeration (members : OrderedMap String Int) : Enumeration :=
  let rows := members.mapValues fun _ index => index.toNat
  ⟨rows, Names.namesByIndex rows.toList⟩

namespace Draft

/-- The enumeration of the row names. -/
def enumeration (d : Draft) : Enumeration := ⟨.ofList d.rowNames.zipIdx, d.rowNames⟩

/-- What is known of a table of entities or an enumeration as its names are linked. -/
def info (d : Draft) : TableInfo := ⟨d.format, some d.rowCount, d.entityAffix⟩

theorem keys_zipIdx (d : Draft) : d.rowNames.zipIdx.map Prod.fst = d.rowNames := by
  rw [List.zipIdx_map_fst]

theorem toList_enumeration {d : Draft} (nd : d.rowNames.Nodup) :
    d.enumeration.rows.toList = d.rowNames.zipIdx :=
  OrderedMap.toList_ofList (by rwa [keys_zipIdx])

theorem isNamed_iff (d : Draft) : d.isNamed = true ↔ d.rowNames ≠ [] := by
  simp [isNamed]

theorem enumeration_inverse {d : Draft} (nd : d.rowNames.Nodup) : d.enumeration.Inverse where
  nodup := nd
  row_iff name i := by
    have nd' : (d.rowNames.zipIdx.map Prod.fst).Nodup := by rwa [keys_zipIdx]
    show (OrderedMap.ofList _).get? name = _ ↔ _
    rw [OrderedMap.get?_ofList nd', List.mem_zipIdx_iff_getElem?]
    exact Iff.rfl

end Draft

namespace Names

/-- The name is registered with the owner. -/
def Owns (n : Names) (owner name : String) : Prop :=
  ∃ row, n.entities.get? name = some ⟨owner, row⟩

theorem entityOwners_eq_some_iff {n : Names} {s : Store} (h : s.entities = n.entities)
    {name o : String} : s.entityOwners.get? name = some o ↔ n.Owns o name := by
  rw [Store.entityOwners, OrderedMap.get?_mapValues, h, Owns]
  cases n.entities.get? name with
  | none => simp
  | some x => obtain ⟨o', row⟩ := x; simp

/-- Names and enumerations tell the same. -/
def Coherent (n : Names) : Prop :=
  ∀ name owner row, n.entities.get? name = some ⟨owner, row⟩ ↔
    ∃ e, n.enumerations.get? owner = some e ∧ e.rows.get? name = some row

theorem coherent_empty : ({} : Names).Coherent := by
  intro name owner row
  constructor
  · intro h; cases h
  · rintro ⟨e, h, -⟩; cases h

/-- A name is owned by who lists it. -/
theorem Coherent.owns_iff {n : Names} (h : n.Coherent) {owner name : String} :
    n.Owns owner name ↔ ∃ e, n.enumerations.get? owner = some e ∧ name ∈ e.rows.keys := by
  constructor
  · rintro ⟨row, hr⟩
    obtain ⟨e, he, hn⟩ := (h name owner row).1 hr
    exact ⟨e, he, (e.rows.mem_keys_iff name).2 ⟨row, hn⟩⟩
  · rintro ⟨e, he, hn⟩
    obtain ⟨row, hr⟩ := (e.rows.mem_keys_iff name).1 hn
    exact ⟨row, (h name owner row).2 ⟨e, he, hr⟩⟩

/-- To write what is there changes nothing. -/
theorem Coherent.insert_self {n : Names} (h : n.Coherent) {o : String} {e : Enumeration}
    (he : n.enumerations.get? o = some e) :
    { n with enumerations := n.enumerations.insert o e }.Coherent := by
  intro name owner row
  rw [h name owner row]
  simp only [OrderedMap.get?_insert]
  split
  · next ho => rw [← ho, he]
  · exact Iff.rfl

theorem owns_unique {n : Names} {o o' name : String} (h : n.Owns o name) (h' : n.Owns o' name) :
    o = o' := by
  obtain ⟨r, h⟩ := h
  obtain ⟨r', h'⟩ := h'
  rw [h] at h'
  cases h'
  rfl

/-! ## Entities -/

/-- The names with a list of them added for an owner. -/
def withEntities (n : Names) (owner : String) (l : List (String × Nat)) : Names :=
  { n with entities := n.entities.insertAll (l.map fun p => (p.1, ⟨owner, p.2⟩)) }

theorem addEntities_eq_ok_iff {n n' : Names} {owner : String} {l : List (String × Nat)} :
    n.addEntities owner l = .ok n' ↔
      (l.map Prod.fst).Nodup ∧ (∀ p ∈ l, n.entities.get? p.1 = none) ∧
        n' = n.withEntities owner l := by
  induction l generalizing n with
  | nil => simp [addEntities, withEntities, OrderedMap.insertAll, eq_comm]
  | cons p l ih =>
    obtain ⟨name, row⟩ := p
    unfold addEntities addEntity
    cases hf : n.entities.get? name with
    | some first => simp [bind, Except.bind, hf]
    | none =>
      show addEntities _ owner l = .ok n' ↔ _
      rw [ih]
      have step : ({ n with entities := n.entities.insert name ⟨owner, row⟩ } : Names).withEntities
          owner l = n.withEntities owner ((name, row) :: l) := rfl
      rw [step]
      simp only [List.map_cons, List.nodup_cons, List.forall_mem_cons, hf, OrderedMap.get?_insert]
      constructor
      · rintro ⟨nd, hl, rfl⟩
        refine ⟨⟨fun hm => ?_, nd⟩, ⟨trivial, fun p hp => ?_⟩, rfl⟩
        · obtain ⟨p, hp, rfl⟩ := List.mem_map.1 hm
          have := hl p hp
          simp at this
        · have := hl p hp
          split at this
          · cases this
          · exact this
      · rintro ⟨⟨hn, nd⟩, ⟨-, hl⟩, rfl⟩
        refine ⟨nd, fun p hp => ?_, rfl⟩
        rw [if_neg fun e => hn (List.mem_map.2 ⟨p, hp, e.symm⟩)]
        exact hl p hp

theorem get?_withEntities {n : Names} {owner : String} {l : List (String × Nat)}
    (nd : (l.map Prod.fst).Nodup) (fresh : ∀ p ∈ l, n.entities.get? p.1 = none) (name : String)
    (x : Entity) : (n.withEntities owner l).entities.get? name = some x ↔
      n.entities.get? name = some x ∨ ∃ row, (name, row) ∈ l ∧ x = ⟨owner, row⟩ := by
  have nd' : ((l.map fun p => (p.1, (⟨owner, p.2⟩ : Entity))).map Prod.fst).Nodup := by
    rw [List.map_map]; exact nd
  by_cases hn : name ∈ l.map Prod.fst
  · obtain ⟨⟨name, row⟩, hp, rfl⟩ := List.mem_map.1 hn
    have hr : (n.withEntities owner l).entities.get? name = some ⟨owner, row⟩ :=
      OrderedMap.get?_insertAll_of_mem _ nd' (List.mem_map.2 ⟨(name, row), hp, rfl⟩)
    rw [hr, fresh _ hp]
    constructor
    · intro h; cases h; exact .inr ⟨row, hp, rfl⟩
    · rintro (h | ⟨row', hp', rfl⟩)
      · cases h
      · -- a name that is listed once has one row
        have e := (OrderedMap.find_eq_some_iff nd _ _).2 hp'
        rw [(OrderedMap.find_eq_some_iff nd _ _).2 hp] at e
        cases e
        rfl
  · have hr : (n.withEntities owner l).entities.get? name = n.entities.get? name :=
      OrderedMap.get?_insertAll_of_not_mem _ (by rw [List.map_map]; exact hn)
    rw [hr]
    constructor
    · exact .inl
    · rintro (h | ⟨row, hp, -⟩)
      · exact h
      · exact absurd (List.mem_map.2 ⟨_, hp, rfl⟩) hn

/-! ## Owners -/

/-- The names with an enumeration added for a new owner. -/
def register (n : Names) (owner : String) (e : Enumeration) : Names :=
  { n.withEntities owner e.rows.toList with enumerations := n.enumerations.insert owner e }

theorem get?_register {n : Names} {owner : String} {e : Enumeration}
    (fresh : ∀ p ∈ e.rows.toList, n.entities.get? p.1 = none) (name : String) (x : Entity) :
    (n.register owner e).entities.get? name = some x ↔
      n.entities.get? name = some x ∨ ∃ row, e.rows.get? name = some row ∧ x = ⟨owner, row⟩ := by
  simp only [OrderedMap.get?_eq_some_iff e.rows]
  exact get?_withEntities e.rows.nodup_keys fresh name x

theorem owns_register {n : Names} {owner : String} {e : Enumeration}
    (fresh : ∀ p ∈ e.rows.toList, n.entities.get? p.1 = none) (o name : String) :
    (n.register owner e).Owns o name ↔ n.Owns o name ∨ o = owner ∧ name ∈ e.rows.keys := by
  simp only [Owns, get?_register fresh, OrderedMap.mem_keys_iff, Entity.mk.injEq]
  constructor
  · rintro ⟨row, h | ⟨row', h, rfl, rfl⟩⟩
    · exact .inl ⟨row, h⟩
    · exact .inr ⟨rfl, row, h⟩
  · rintro (⟨row, h⟩ | ⟨rfl, row, h⟩)
    · exact ⟨row, .inl h⟩
    · exact ⟨row, .inr ⟨row, h, rfl, rfl⟩⟩

/-- A new owner brings its names and nothing else. -/
theorem Coherent.register {n : Names} {owner : String} {e : Enumeration} (h : n.Coherent)
    (new : n.enumerations.get? owner = none)
    (fresh : ∀ p ∈ e.rows.toList, n.entities.get? p.1 = none) : (n.register owner e).Coherent := by
  intro name o row
  rw [get?_register fresh]
  show _ ↔ ∃ e', (n.enumerations.insert owner e).get? o = some e' ∧ _
  rw [OrderedMap.get?_insert]
  by_cases ho : owner = o
  · subst ho
    have old : n.entities.get? name ≠ some ⟨owner, row⟩ := by
      intro hr
      obtain ⟨e', he, -⟩ := (h name owner row).1 hr
      rw [new] at he
      cases he
    simp [old]
  · have ho' : ¬ o = owner := fun e => ho e.symm
    rw [if_neg ho, ← h name o row]
    simp [ho']

theorem addMembers_eq_ok_iff {n n' : Names} {owner : String} {l : List (String × Int)} :
    n.addMembers owner l = .ok n' ↔
      (∀ p ∈ l, 0 ≤ p.2) ∧ n.addEntities owner (l.map fun p => (p.1, p.2.toNat)) = .ok n' := by
  induction l generalizing n with
  | nil => simp [addMembers, addEntities]
  | cons p l ih =>
    obtain ⟨name, index⟩ := p
    unfold addMembers
    dsimp only
    by_cases hi : index < 0
    · have : ¬ 0 ≤ index := by omega
      simp [hi, this, bind, Except.bind]
    · have : 0 ≤ index := by omega
      simp only [hi, if_false, List.forall_mem_cons, this, true_and, List.map_cons, addEntities,
        bind_eq_ok, ih]
      constructor
      · rintro ⟨n₁, h₁, hl, h⟩
        exact ⟨hl, n₁, h₁, h⟩
      · rintro ⟨hl, n₁, h₁, h⟩
        exact ⟨n₁, h₁, hl, h⟩

/-- **Predefined enumerations.** They are taken over as they are, unless an index is negative or a
name is not new. -/
theorem addPredefined_eq_ok_iff {n n' : Names} {owner : String} {members : OrderedMap String Int} :
    n.addPredefined owner members = .ok n' ↔
      (∀ p ∈ members.toList, 0 ≤ p.2) ∧
      (∀ p ∈ (Predefined.enumeration members).rows.toList, n.entities.get? p.1 = none) ∧
      n' = n.register owner (Predefined.enumeration members) := by
  have nd := (Predefined.enumeration members).rows.nodup_keys
  unfold addPredefined
  simp only [bind_eq_ok, addMembers_eq_ok_iff]
  constructor
  · rintro ⟨n₁, ⟨hi, h₁⟩, h⟩
    obtain ⟨-, fresh, rfl⟩ := addEntities_eq_ok_iff.1 h₁
    cases h
    exact ⟨hi, fresh, rfl⟩
  · rintro ⟨hi, fresh, rfl⟩
    exact ⟨_, ⟨hi, addEntities_eq_ok_iff.2 ⟨nd, fresh, rfl⟩⟩, rfl⟩

/-- The names with those of a table added. -/
def withTable (n : Names) (d : Draft) : Names :=
  { (if d.isNamed then n.register d.name d.enumeration else n) with
    info := n.info.insert d.name d.info }

theorem withTable_named {n : Names} {d : Draft} (hd : d.isNamed) (nd : d.rowNames.Nodup) :
    n.withTable d = { n.withEntities d.name d.rowNames.zipIdx with
      enumerations := n.enumerations.insert d.name d.enumeration
      info := n.info.insert d.name d.info } := by
  rw [withTable, if_pos hd, register, Draft.toList_enumeration nd]

theorem withTable_unnamed {n : Names} {d : Draft} (hd : ¬ d.isNamed) :
    n.withTable d = { n with info := n.info.insert d.name d.info } := by
  rw [withTable, if_neg hd]

theorem fresh_zipIdx {n : Names} {names : List String} :
    (∀ p ∈ names.zipIdx, n.entities.get? p.1 = none) ↔
      ∀ name ∈ names, n.entities.get? name = none := by
  constructor
  · intro h name hn
    obtain ⟨i, hi⟩ := List.mem_iff_getElem?.1 hn
    exact h (name, i) (List.mem_zipIdx_iff_getElem?.2 hi)
  · intro h p hp
    exact h _ (List.mem_iff_getElem?.2 ⟨p.2, List.mem_zipIdx_iff_getElem?.1 hp⟩)

/-- **Tables.** A table of entities or an enumeration is registered with its row names, unless its
name is that of an enumeration or a row name is not new. -/
theorem addTable_eq_ok_iff {n n' : Names} {d : Draft} :
    n.addTable d = .ok n' ↔
      n.enumerations.get? d.name = none ∧ d.rowNames.Nodup ∧
      (∀ name ∈ d.rowNames, n.entities.get? name = none) ∧ n' = n.withTable d := by
  unfold addTable
  by_cases hc : n.enumerations.contains d.name
  · have : n.enumerations.get? d.name ≠ none := by
      intro h
      rw [OrderedMap.contains, h] at hc
      cases hc
    simp [hc, this, bind, Except.bind]
  · have none : n.enumerations.get? d.name = none := by
      rwa [OrderedMap.contains, Bool.not_eq_true, Option.isSome_eq_false_iff,
        Option.isNone_iff_eq_none] at hc
    dsimp only
    rw [if_neg hc]
    by_cases hd : d.isNamed
    · rw [if_neg (by simp [hd])]
      simp only [bind_eq_ok, addEntities_eq_ok_iff, Draft.keys_zipIdx, fresh_zipIdx]
      constructor
      · rintro ⟨n₁, ⟨nd, fresh, rfl⟩, h⟩
        cases h
        refine ⟨none, nd, fresh, ?_⟩
        rw [withTable_named hd nd]
        rfl
      · rintro ⟨-, nd, fresh, rfl⟩
        refine ⟨_, ⟨nd, fresh, rfl⟩, ?_⟩
        rw [withTable_named hd nd]
        rfl
    · have : d.rowNames = [] := by simpa [Draft.isNamed] using hd
      rw [withTable_unnamed hd]
      simp [hd, this, none, pure, Except.pure, eq_comm, Draft.info]

section Table

variable {n : Names} {d : Draft} (nd : d.rowNames.Nodup)
  (fresh : ∀ name ∈ d.rowNames, n.entities.get? name = none)
include nd fresh

theorem fresh_enumeration : ∀ p ∈ d.enumeration.rows.toList, n.entities.get? p.1 = none := by
  rw [Draft.toList_enumeration nd, fresh_zipIdx]
  exact fresh

theorem coherent_withTable (h : n.Coherent) (new : n.enumerations.get? d.name = none) :
    (n.withTable d).Coherent := by
  unfold withTable
  split
  · exact h.register new (fresh_enumeration nd fresh)
  · exact h

theorem owns_withTable (o name : String) :
    (n.withTable d).Owns o name ↔ n.Owns o name ∨ o = d.name ∧ name ∈ d.rowNames := by
  unfold withTable
  split
  · have keys : name ∈ d.enumeration.rows.keys ↔ name ∈ d.rowNames :=
      (Draft.enumeration_inverse nd).mem_keys
    rw [← keys]
    exact owns_register (fresh_enumeration nd fresh) o name
  · next hd =>
    have nil : d.rowNames = [] := by simpa [Draft.isNamed] using hd
    simp [nil, Owns]

end Table

theorem get?_enumerations_withTable (n : Names) (d : Draft) (o : String) :
    (n.withTable d).enumerations.get? o =
      if d.name = o ∧ d.rowNames ≠ [] then some d.enumeration else n.enumerations.get? o := by
  unfold withTable
  split
  · next hd =>
    rw [Draft.isNamed_iff] at hd
    simp only [hd, ne_eq, not_false_eq_true, and_true]
    exact OrderedMap.get?_insert _ _ _ _
  · next hd =>
    have nil : d.rowNames = [] := by simpa [Draft.isNamed] using hd
    simp [nil]

theorem get?_info_withTable (n : Names) (d : Draft) (t : String) :
    (n.withTable d).info.get? t = if d.name = t then some d.info else n.info.get? t := by
  have hi : (n.withTable d).info = n.info.insert d.name d.info := rfl
  rw [hi, OrderedMap.get?_insert]

/-! ## Names of a mod -/

/-- From a target and its enumeration to what a mod with these row names leaves of both: the names
that the target lacks go to its end. -/
structure Extension (owner : String) (names : List String) (n : Names) (e : Enumeration)
    (n' : Names) (e' : Enumeration) : Prop where
  enumerations : n'.enumerations = n.enumerations
  info : n'.info = n.info
  names_prefix : e.names <+: e'.names
  mem_keys : ∀ name, name ∈ e'.rows.keys ↔ name ∈ e.rows.keys ∨ name ∈ names
  inverse : e.Inverse → e'.Inverse
  coherent : { n with enumerations := n.enumerations.insert owner e }.Coherent →
    { n' with enumerations := n'.enumerations.insert owner e' }.Coherent

theorem Extension.get?_insert {owner : String} {names : List String} {n n' : Names}
    {e e' : Enumeration} (x : Extension owner names n e n' e') (o : String) :
    (n'.enumerations.insert owner e').get? o =
      if owner = o then some e' else n.enumerations.get? o := by
  rw [OrderedMap.get?_insert, x.enumerations]

/-- The names with one more at the end of a target. -/
def addRow (n : Names) (owner : String) (e : Enumeration) (name : String) : Names :=
  { n with entities := n.entities.insert name ⟨owner, e.names.length⟩ }

theorem coherent_addRow {n : Names} {owner name : String} {e : Enumeration}
    (h : { n with enumerations := n.enumerations.insert owner e }.Coherent)
    (fresh : n.entities.get? name = none) :
    { n.addRow owner e name with
      enumerations := n.enumerations.insert owner (e.add name) }.Coherent := by
  intro name' o row
  have h' := h name' o row
  simp only [addRow, OrderedMap.get?_insert] at h' ⊢
  by_cases hn : name = name'
  · subst hn
    rw [fresh] at h'
    by_cases ho : owner = o
    · subst ho
      simp [Enumeration.add, OrderedMap.get?_insert]
    · rw [if_neg ho] at h' ⊢
      rw [← h']
      simp [ho]
  · by_cases ho : owner = o
    · subst ho
      rw [if_neg hn, h']
      simp [Enumeration.add, OrderedMap.get?_insert, hn]
    · rw [if_neg ho] at h' ⊢
      rw [if_neg hn, h']

/-- **The names of a mod.** The target gains those that it lacks, at its end and in their order. -/
theorem extend_spec {n n' : Names} {owner : String} {e e' : Enumeration} {names : List String}
    (h : n.extend owner e names = .ok (n', e')) : Extension owner names n e n' e' := by
  induction names generalizing n e with
  | nil =>
    cases h
    exact ⟨rfl, rfl, List.prefix_rfl, by simp, id, id⟩
  | cons name rest ih =>
    unfold extend at h
    split at h
    · next hc =>
      rw [OrderedMap.contains_iff] at hc
      have x := ih h
      refine { x with mem_keys := fun name' => ?_ }
      rw [x.mem_keys, List.mem_cons]
      constructor
      · rintro (hk | hr)
        · exact .inl hk
        · exact .inr (.inr hr)
      · rintro (hk | rfl | hr)
        · exact .inl hk
        · exact .inl hc
        · exact .inr hr
    · next hc =>
      rw [OrderedMap.contains_iff] at hc
      obtain ⟨n₁, h₁, h⟩ := bind_eq_ok.1 h
      unfold addEntity at h₁
      split at h₁
      · cases h₁
      · next fresh =>
        cases h₁
        have x := ih (n := n.addRow owner e name) (e := e.add name) h
        exact {
          enumerations := x.enumerations
          info := x.info
          names_prefix := (List.prefix_append _ _).trans x.names_prefix
          mem_keys := fun name' => by
            rw [x.mem_keys, Enumeration.mem_keys_add, List.mem_cons, or_assoc]
          inverse := fun he => x.inverse (he.add hc)
          coherent := fun hn => x.coherent (coherent_addRow hn fresh) }

theorem extend_eq_ok {n : Names} {owner : String} {e : Enumeration} {names : List String}
    (h : ∀ name ∈ names, name ∈ e.rows.keys ∨ n.entities.get? name = none) :
    ∃ n' e', n.extend owner e names = .ok (n', e') := by
  induction names generalizing n e with
  | nil => exact ⟨n, e, rfl⟩
  | cons name rest ih =>
    unfold extend
    split
    · exact ih fun name' hn => h name' (List.mem_cons_of_mem _ hn)
    · next hc =>
      rw [OrderedMap.contains_iff] at hc
      have fresh := (h name List.mem_cons_self).resolve_left hc
      have rest_ok : ∀ name' ∈ rest, name' ∈ (e.add name).rows.keys ∨
          (n.addRow owner e name).entities.get? name' = none := by
        intro name' hn
        rw [Enumeration.mem_keys_add]
        by_cases hne : name = name'
        · exact .inl (.inr hne.symm)
        · rcases h name' (List.mem_cons_of_mem _ hn) with hk | hf
          · exact .inl (.inl hk)
          · right
            rw [addRow, OrderedMap.get?_insert, if_neg hne, hf]
      obtain ⟨n', e', h'⟩ := ih rest_ok
      refine ⟨n', e', ?_⟩
      simp only [addEntity, fresh]
      exact h'

/-- **Mods.** The target of a mod is a table of entities or an enumeration with an enumeration of
its own, which gains the names that it lacks. -/
theorem addMod_eq_ok_iff {n n' : Names} {d : Draft} {target : String} {added : Nat} :
    n.addMod d target = .ok (n', added) ↔
      ∃ i e n₁ e', n.info.get? target = some i ∧ i.format.isEnumerated ∧
        n.enumerations.get? target = some e ∧ n.extend target e d.rowNames = .ok (n₁, e') ∧
        n' = { n₁ with enumerations := n₁.enumerations.insert target e' } ∧
        added = e'.names.length - e.names.length := by
  unfold addMod
  dsimp only
  cases hi : n.info.get? target with
  | none => simp [bind, Except.bind]
  | some i =>
    by_cases he : i.format.isEnumerated
    · rw [if_neg (by simp [he])]
      cases hn : n.enumerations.get? target with
      | none => simp
      | some e =>
        simp only [bind_eq_ok, Prod.exists, pure, Except.pure, Except.ok.injEq, Prod.mk.injEq,
          Option.some.injEq]
        constructor
        · rintro ⟨n₁, e', h, rfl, rfl⟩
          exact ⟨i, e, n₁, e', rfl, he, rfl, h, rfl, rfl⟩
        · rintro ⟨_, _, n₁, e', rfl, -, rfl, h, rfl, rfl⟩
          exact ⟨n₁, e', h, rfl, rfl⟩
    · rw [if_pos (by simp [he])]
      simp only [bind_eq_ok, Option.some.injEq]
      constructor
      · rintro ⟨_, h, -⟩
        cases h
      · rintro ⟨_, _, _, _, rfl, he', -⟩
        exact absurd he' he

end Names

end TypedTables
