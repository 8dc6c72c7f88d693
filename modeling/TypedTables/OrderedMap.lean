/-!
# Ordered maps

A map whose keys stand in the order in which they were first written. Writing a
key that is present changes its value and moves nothing; a new key goes to the
end. Every mapping that a table, a store or a registry shows to its reader is one
of these, so the order of a listing never depends on hashing.

Results:
* `keys_insert`: the keys after a write, in order.
* `get?_insert`: what a read finds after a write.
* `ext_get?`: two maps with the same keys in the same order and the same reads
  are equal.
* `get?_eq_some_iff`: a read finds what is listed.
* `get?_mapValues`, `get?_filterMapValues`: what a read finds of changed values.
* `get?_insertAll`, `get?_insertAll_of_mem`, `get?_insertAll_of_not_mem`,
  `get?_insertAll_of_agree`: what a read finds after several writes.
* `get?_ofList_of_perm`: the order of writes under distinct keys is of no account.
-/
namespace TypedTables

universe u v w

/-- Pairs of a key and a value, each key once. -/
@[ext] structure OrderedMap (κ : Type u) (α : Type v) where
  entries : List (κ × α)
  nodup_keys : (entries.map Prod.fst).Nodup
  deriving DecidableEq

namespace OrderedMap

variable {κ : Type u} {α : Type v} {β : Type w}

/-! ## The list of pairs -/

/-- Write `a` under `k`: in place if `k` is present, else at the end. -/
def put [DecidableEq κ] (k : κ) (a : α) : List (κ × α) → List (κ × α)
  | [] => [(k, a)]
  | (k', a') :: rest => if k' = k then (k, a) :: rest else (k', a') :: put k a rest

/-- The value under `k`. -/
def find [DecidableEq κ] (k : κ) : List (κ × α) → Option α
  | [] => none
  | (k', a) :: rest => if k' = k then some a else find k rest

theorem keys_put [DecidableEq κ] (k : κ) (a : α) (l : List (κ × α)) :
    (put k a l).map Prod.fst =
      if k ∈ l.map Prod.fst then l.map Prod.fst else l.map Prod.fst ++ [k] := by
  induction l with
  | nil => simp [put]
  | cons p l ih =>
    obtain ⟨k', a'⟩ := p
    by_cases h : k' = k
    · simp [put, h]
    · have h' : ¬ k = k' := fun e => h e.symm
      by_cases hm : k ∈ l.map Prod.fst
      · simp only [List.map_cons, put, h, if_false, List.mem_cons, h', false_or, hm, if_true, ih]
      · simp only [List.map_cons, put, h, if_false, List.mem_cons, h', false_or, hm, ih,
          List.cons_append]

theorem nodup_keys_put [DecidableEq κ] (k : κ) (a : α) {l : List (κ × α)}
    (h : (l.map Prod.fst).Nodup) : ((put k a l).map Prod.fst).Nodup := by
  rw [keys_put]
  split
  · exact h
  · next hk =>
    rw [List.nodup_append]
    refine ⟨h, by simp, ?_⟩
    intro x hx y hy
    simp only [List.mem_singleton] at hy
    subst hy
    exact fun e => hk (e ▸ hx)

theorem find_put [DecidableEq κ] (k k' : κ) (a : α) (l : List (κ × α)) :
    find k' (put k a l) = if k = k' then some a else find k' l := by
  induction l with
  | nil => simp [put, find]
  | cons p l ih =>
    obtain ⟨k₀, a₀⟩ := p
    by_cases h : k₀ = k
    · subst h
      by_cases hk : k₀ = k' <;> simp [put, find, hk]
    · by_cases hk : k = k'
      · subst hk
        simp [put, find, h, ih]
      · simp only [put, h, if_false, find, ih, hk]

/-! ## Maps -/

/-- The map without keys. -/
def empty : OrderedMap κ α := ⟨[], by simp⟩

instance : EmptyCollection (OrderedMap κ α) := ⟨empty⟩
instance : Inhabited (OrderedMap κ α) := ⟨empty⟩

def keys (m : OrderedMap κ α) : List κ := m.entries.map Prod.fst

def values (m : OrderedMap κ α) : List α := m.entries.map Prod.snd

def toList (m : OrderedMap κ α) : List (κ × α) := m.entries

def size (m : OrderedMap κ α) : Nat := m.entries.length

def isEmpty (m : OrderedMap κ α) : Bool := m.entries.isEmpty

/-- Apply a function to every value. -/
def mapValues (f : κ → α → β) (m : OrderedMap κ α) : OrderedMap κ β where
  entries := m.entries.map fun p => (p.1, f p.1 p.2)
  nodup_keys := by
    have := m.nodup_keys
    rw [List.map_map]
    exact this

theorem keys_filterMap_sublist (f : κ → α → Option β) (l : List (κ × α)) :
    ((l.filterMap fun p => (f p.1 p.2).map (p.1, ·)).map Prod.fst).Sublist (l.map Prod.fst) := by
  induction l with
  | nil => simp
  | cons p l ih =>
    cases h : f p.1 p.2 with
    | none => simpa [h] using ih.cons p.1
    | some b => simpa [h] using ih.cons_cons p.1

/-- Apply a function to every value and drop the keys for which it has no answer. -/
def filterMapValues (f : κ → α → Option β) (m : OrderedMap κ α) : OrderedMap κ β where
  entries := m.entries.filterMap fun p => (f p.1 p.2).map (p.1, ·)
  nodup_keys := (keys_filterMap_sublist f m.entries).nodup m.nodup_keys

@[simp] theorem keys_empty : (empty : OrderedMap κ α).keys = [] := rfl

variable [DecidableEq κ]

def get? (m : OrderedMap κ α) (k : κ) : Option α := find k m.entries

def getD (m : OrderedMap κ α) (k : κ) (a : α) : α := (m.get? k).getD a

def contains (m : OrderedMap κ α) (k : κ) : Bool := (m.get? k).isSome

/-- Write `a` under `k`; a new key goes to the end. -/
def insert (m : OrderedMap κ α) (k : κ) (a : α) : OrderedMap κ α :=
  ⟨put k a m.entries, nodup_keys_put k a m.nodup_keys⟩

/-- Write the pairs one after the other: of two with one key the later value stands
at the earlier one's place. -/
def insertAll (m : OrderedMap κ α) (l : List (κ × α)) : OrderedMap κ α :=
  l.foldl (fun m p => m.insert p.1 p.2) m

def ofList (l : List (κ × α)) : OrderedMap κ α := empty.insertAll l

/-! ## Reads and writes -/

@[simp] theorem get?_empty (k : κ) : (empty : OrderedMap κ α).get? k = none := rfl

theorem keys_insert (m : OrderedMap κ α) (k : κ) (a : α) :
    (m.insert k a).keys = if k ∈ m.keys then m.keys else m.keys ++ [k] :=
  keys_put k a m.entries

theorem get?_insert (m : OrderedMap κ α) (k k' : κ) (a : α) :
    (m.insert k a).get? k' = if k = k' then some a else m.get? k' :=
  find_put k k' a m.entries

theorem find_isSome_iff (k : κ) (l : List (κ × α)) :
    (find k l).isSome ↔ k ∈ l.map Prod.fst := by
  induction l with
  | nil => simp [find]
  | cons p l ih =>
    obtain ⟨k', a⟩ := p
    by_cases h : k' = k
    · simp [find, h]
    · have h' : ¬ k = k' := fun e => h e.symm
      simp only [find, h, if_false, ih, List.map_cons, List.mem_cons, h', false_or]

theorem contains_iff (m : OrderedMap κ α) (k : κ) : m.contains k ↔ k ∈ m.keys :=
  find_isSome_iff k m.entries

theorem ext_find {l l' : List (κ × α)} (hk : l.map Prod.fst = l'.map Prod.fst)
    (nd : (l.map Prod.fst).Nodup) (h : ∀ k, find k l = find k l') : l = l' := by
  induction l generalizing l' with
  | nil => simpa using hk.symm
  | cons p l ih =>
    obtain ⟨k, a⟩ := p
    cases l' with
    | nil => simp at hk
    | cons p' l' =>
      obtain ⟨k', a'⟩ := p'
      simp only [List.map_cons, List.cons.injEq] at hk
      obtain ⟨rfl, hk⟩ := hk
      have ha := h k
      simp only [find, if_true, Option.some.injEq] at ha
      subst ha
      simp only [List.map_cons, List.nodup_cons] at nd
      congr 1
      refine ih hk nd.2 fun x => ?_
      by_cases hx : k = x
      · subst hx
        have h₁ : ¬ (find k l).isSome := fun e => nd.1 ((find_isSome_iff k l).1 e)
        have h₂ : ¬ (find k l').isSome := fun e => nd.1 (hk ▸ (find_isSome_iff k l').1 e)
        rw [Option.not_isSome_iff_eq_none] at h₁ h₂
        rw [h₁, h₂]
      · have := h x
        simpa [find, hx] using this

theorem ext_get? {m m' : OrderedMap κ α} (hk : m.keys = m'.keys)
    (h : ∀ k, m.get? k = m'.get? k) : m = m' :=
  OrderedMap.ext (ext_find hk m.nodup_keys h)

/-! ## Members -/

theorem find_eq_some_iff {l : List (κ × α)} (nd : (l.map Prod.fst).Nodup) (k : κ) (a : α) :
    find k l = some a ↔ (k, a) ∈ l := by
  induction l with
  | nil => simp [find]
  | cons p l ih =>
    obtain ⟨k', a'⟩ := p
    simp only [List.map_cons, List.nodup_cons] at nd
    by_cases h : k' = k
    · subst h
      have hn : (k', a) ∉ l := fun hm => nd.1 (List.mem_map_of_mem hm)
      simp [find, hn, eq_comm]
    · have h' : ¬ k = k' := fun e => h e.symm
      simp [find, h, h', ih nd.2]

theorem get?_eq_some_iff (m : OrderedMap κ α) (k : κ) (a : α) :
    m.get? k = some a ↔ (k, a) ∈ m.toList :=
  find_eq_some_iff m.nodup_keys k a

theorem mem_keys_iff (m : OrderedMap κ α) (k : κ) : k ∈ m.keys ↔ ∃ a, m.get? k = some a := by
  rw [← contains_iff, contains, Option.isSome_iff_exists]

theorem get?_eq_none_iff (m : OrderedMap κ α) (k : κ) : m.get? k = none ↔ k ∉ m.keys := by
  rw [← contains_iff, contains, Option.not_isSome_iff_eq_none]

theorem mem_values_iff (m : OrderedMap κ α) (a : α) : a ∈ m.values ↔ ∃ k, m.get? k = some a := by
  simp only [get?_eq_some_iff]
  unfold values toList
  rw [List.mem_map]
  constructor
  · rintro ⟨⟨k, a⟩, h, rfl⟩
    exact ⟨k, h⟩
  · rintro ⟨k, h⟩
    exact ⟨_, h, rfl⟩

theorem get?_mapValues (f : κ → α → β) (m : OrderedMap κ α) (k : κ) :
    (m.mapValues f).get? k = (m.get? k).map (f k) := by
  obtain ⟨l, nd⟩ := m
  show find k (l.map fun p => (p.1, f p.1 p.2)) = (find k l).map (f k)
  clear nd
  induction l with
  | nil => rfl
  | cons p l ih =>
    obtain ⟨k', a⟩ := p
    by_cases h : k' = k
    · subst h
      simp [find]
    · simp [find, h, ih]

theorem get?_filterMapValues (f : κ → α → Option β) (m : OrderedMap κ α) (k : κ) :
    (m.filterMapValues f).get? k = (m.get? k).bind (f k) := by
  obtain ⟨l, nd⟩ := m
  show find k (l.filterMap fun p => (f p.1 p.2).map (p.1, ·)) = (find k l).bind (f k)
  induction l with
  | nil => rfl
  | cons p l ih =>
    obtain ⟨k', a⟩ := p
    rw [List.map_cons, List.nodup_cons] at nd
    have rest := ih nd.2
    by_cases h : k' = k
    · subst h
      have none : find k' l = none := by
        rw [← Option.not_isSome_iff_eq_none, find_isSome_iff]
        exact nd.1
      rw [none] at rest
      cases hf : f k' a <;> simp [find, hf, rest]
    · cases hf : f k' a <;> simp [find, hf, h, rest]

omit [DecidableEq κ] in
@[simp] theorem keys_mapValues (f : κ → α → β) (m : OrderedMap κ α) :
    (m.mapValues f).keys = m.keys := by
  simp [keys, mapValues]

/-! ## Several writes -/

theorem insert_of_get? {m : OrderedMap κ α} {k : κ} {a : α} (h : m.get? k = some a) :
    m.insert k a = m := by
  refine ext_get? ?_ fun k' => ?_
  · rw [keys_insert, if_pos ((m.mem_keys_iff k).2 ⟨a, h⟩)]
  · rw [get?_insert]
    split
    · next same => rw [← same, h]
    · rfl

theorem insert_insert (m : OrderedMap κ α) (k : κ) (a : α) :
    (m.insert k a).insert k a = m.insert k a :=
  insert_of_get? (by rw [get?_insert, if_pos rfl])

theorem mem_keys_insertAll (m : OrderedMap κ α) (l : List (κ × α)) {k : κ} (h : k ∈ m.keys) :
    k ∈ (m.insertAll l).keys := by
  induction l generalizing m with
  | nil => exact h
  | cons p l ih =>
    refine ih _ ?_
    rw [keys_insert]
    split
    · exact h
    · exact List.mem_append_left _ h

/-- What is written counts, and what was there counts where nothing is written. -/
theorem get?_insertAll (m : OrderedMap κ α) (l : List (κ × α)) (k : κ) :
    (m.insertAll l).get? k = ((ofList l).get? k).or (m.get? k) := by
  induction l generalizing m with
  | nil => rfl
  | cons p l ih =>
    have after (m : OrderedMap κ α) : (m.insertAll (p :: l)).get? k =
        ((ofList l).get? k).or (if p.1 = k then some p.2 else m.get? k) := by
      rw [← get?_insert]
      exact ih (m.insert p.1 p.2)
    rw [ofList, after, after, Option.or_assoc, get?_empty]
    split <;> rfl

theorem get?_ofList_cons (p : κ × α) (l : List (κ × α)) (k : κ) :
    (ofList (p :: l)).get? k = ((ofList l).get? k).or (if p.1 = k then some p.2 else none) := by
  rw [← get?_empty k, ← get?_insert, ← get?_insertAll]
  rfl

theorem get?_insertAll_of_not_mem (m : OrderedMap κ α) {l : List (κ × α)} {k : κ}
    (h : k ∉ l.map Prod.fst) : (m.insertAll l).get? k = m.get? k := by
  induction l generalizing m with
  | nil => rfl
  | cons p l ih =>
    simp only [List.map_cons, List.mem_cons, not_or] at h
    show ((m.insert p.1 p.2).insertAll l).get? k = _
    rw [ih _ h.2, get?_insert, if_neg (Ne.symm h.1)]

theorem get?_insertAll_of_mem (m : OrderedMap κ α) {l : List (κ × α)} {k : κ} {a : α}
    (nd : (l.map Prod.fst).Nodup) (h : (k, a) ∈ l) : (m.insertAll l).get? k = some a := by
  induction l generalizing m with
  | nil => cases h
  | cons p l ih =>
    simp only [List.map_cons, List.nodup_cons] at nd
    show ((m.insert p.1 p.2).insertAll l).get? k = _
    rcases List.mem_cons.1 h with rfl | h
    · rw [get?_insertAll_of_not_mem _ nd.1, get?_insert, if_pos rfl]
    · exact ih _ nd.2 h

/-- Of several writes under one key it is of no matter which is last, if they write the same. -/
theorem get?_insertAll_of_agree (m : OrderedMap κ α) {f : κ → Option α} {l : List (κ × α)}
    (agree : ∀ p ∈ l, f p.1 = some p.2) {k : κ} (h : k ∈ l.map Prod.fst) :
    (m.insertAll l).get? k = f k := by
  induction l generalizing m with
  | nil => cases h
  | cons p l ih =>
    rw [List.forall_mem_cons] at agree
    show ((m.insert p.1 p.2).insertAll l).get? k = _
    by_cases hl : k ∈ l.map Prod.fst
    · exact ih _ agree.2 hl
    · rw [List.map_cons] at h
      cases (List.mem_cons.1 h).resolve_right hl
      rw [get?_insertAll_of_not_mem _ hl, get?_insert, if_pos rfl, agree.1]

theorem put_of_not_mem {k : κ} (a : α) {l : List (κ × α)} (h : k ∉ l.map Prod.fst) :
    put k a l = l ++ [(k, a)] := by
  induction l with
  | nil => rfl
  | cons p l ih =>
    obtain ⟨k', a'⟩ := p
    simp only [List.map_cons, List.mem_cons, not_or] at h
    simp only [put, if_neg (Ne.symm h.1), ih h.2, List.cons_append]

theorem toList_insertAll (m : OrderedMap κ α) {l : List (κ × α)}
    (nd : ((m.toList ++ l).map Prod.fst).Nodup) : (m.insertAll l).toList = m.toList ++ l := by
  induction l generalizing m with
  | nil => simp [insertAll]
  | cons p l ih =>
    have hp : p.1 ∉ m.entries.map Prod.fst := by
      rw [List.map_append, List.nodup_append] at nd
      exact fun h => nd.2.2 _ h _ (List.mem_map_of_mem List.mem_cons_self) rfl
    have step : (m.insert p.1 p.2).toList = m.toList ++ [p] := put_of_not_mem p.2 hp
    show ((m.insert p.1 p.2).insertAll l).toList = _
    rw [ih, step, List.append_assoc, List.singleton_append]
    rw [step, List.append_assoc]
    exact nd

theorem toList_ofList {l : List (κ × α)} (nd : (l.map Prod.fst).Nodup) : (ofList l).toList = l :=
  toList_insertAll empty nd

theorem get?_ofList {l : List (κ × α)} (nd : (l.map Prod.fst).Nodup) (k : κ) (a : α) :
    (ofList l).get? k = some a ↔ (k, a) ∈ l := by
  rw [get?_eq_some_iff, toList_ofList nd]

theorem ofList_toList (m : OrderedMap κ α) : ofList m.toList = m :=
  OrderedMap.ext (toList_ofList m.nodup_keys)

theorem get?_ofList_of_perm {l l' : List (κ × α)} (h : l.Perm l') (nd : (l.map Prod.fst).Nodup)
    (k : κ) : (ofList l).get? k = (ofList l').get? k := by
  have nd' : (l'.map Prod.fst).Nodup := (h.map Prod.fst).nodup_iff.1 nd
  ext a
  rw [get?_ofList nd, get?_ofList nd', h.mem_iff]

theorem get?_ofList_of_agree {f : κ → Option α} {l : List (κ × α)}
    (agree : ∀ p ∈ l, f p.1 = some p.2) (k : κ) (a : α) :
    (ofList l).get? k = some a ↔ (k, a) ∈ l := by
  by_cases h : k ∈ l.map Prod.fst
  · obtain ⟨⟨k, a'⟩, hp, rfl⟩ := List.mem_map.1 h
    rw [ofList, get?_insertAll_of_agree _ agree h, agree _ hp, Option.some.injEq]
    constructor
    · rintro rfl
      exact hp
    · intro ha
      exact Option.some.inj ((agree _ hp).symm.trans (agree _ ha))
  · rw [ofList, get?_insertAll_of_not_mem _ h]
    exact ⟨nofun, fun ha => absurd (List.mem_map_of_mem (f := Prod.fst) ha) h⟩

end OrderedMap

end TypedTables
