import TypedTables.OrderedMap
/-!
# String pools

The texts of one table, each kept once and named by a number. Number 0 is the empty
text, so a cell that holds 0 holds no text. A pool is a list, which leads from the numbers to the
texts, and a map, which leads back.

Results:
* `get?_numbers`: the map is the inverse of the list.
* `strings_intern`: the texts after one is added.
* `lookup_intern`: the number of a text leads back to it.
* `intern_lookup`: a text that is in the pool has its number already.
* `lookup_intern_of_lookup`, `strings_prefix_intern`: a number never changes its text.
-/
namespace TypedTables

/-- Distinct texts, the empty one first and the others in the order of their arrival, and the
number of each. mirrors `StringInterner` -/
structure StringPool where
  /-- the texts other than the empty one -/
  added : List String
  /-- the number of each text, that of the empty one included -/
  numbers : OrderedMap String Nat
  numbered : numbers.toList = ("" :: added).zipIdx
  deriving DecidableEq

namespace StringPool

/-- The pool that holds only the empty text. -/
def empty : StringPool := ⟨[], .ofList [("", 0)], rfl⟩

instance : Inhabited StringPool := ⟨empty⟩

/-- All texts by their numbers. mirrors `StringInterner.strings` -/
def strings (p : StringPool) : List String := "" :: p.added

def size (p : StringPool) : Nat := p.strings.length

def contains (p : StringPool) (t : String) : Bool := p.numbers.contains t

/-- Add a text that is not in the pool. Its number is the first one that is free. -/
def push (p : StringPool) (t : String) (h : p.numbers.get? t = none) : StringPool where
  added := p.added ++ [t]
  numbers := p.numbers.insert t p.size
  numbered := by
    have new : t ∉ p.numbers.entries.map Prod.fst := (p.numbers.get?_eq_none_iff t).1 h
    calc (p.numbers.insert t p.size).toList
      _ = p.numbers.toList ++ [(t, p.size)] := OrderedMap.put_of_not_mem p.size new
      _ = p.strings.zipIdx ++ [(t, p.size)] := by rw [p.numbered, strings]
      _ = (p.strings ++ [t]).zipIdx := by simp [List.zipIdx_append, size]

/-- The number of a text, which is added if it is new. mirrors `StringInterner.intern` -/
def intern (p : StringPool) (t : String) : Nat × StringPool :=
  match h : p.numbers.get? t with
  | some n => (n, p)
  | none => (p.size, p.push t h)

/-- The text with a number. mirrors `StringInterner.lookup` -/
def lookup (p : StringPool) (i : Int) : Option String :=
  match i with
  | .ofNat n => p.strings[n]?
  | .negSucc _ => none

/-! ## The map and the list -/

theorem keys_numbers (p : StringPool) : p.numbers.keys = p.strings := by
  show p.numbers.toList.map Prod.fst = p.strings
  rw [p.numbered, List.zipIdx_map_fst, strings]

/-- No text has two numbers. -/
theorem nodup (p : StringPool) : p.strings.Nodup := by
  rw [← p.keys_numbers]
  exact p.numbers.nodup_keys

/-- The map is the inverse of the list. -/
theorem get?_numbers (p : StringPool) (t : String) (n : Nat) :
    p.numbers.get? t = some n ↔ p.strings[n]? = some t := by
  rw [OrderedMap.get?_eq_some_iff, p.numbered, List.mk_mem_zipIdx_iff_getElem?, strings]

theorem contains_iff (p : StringPool) (t : String) : p.contains t ↔ t ∈ p.strings := by
  rw [contains, OrderedMap.contains_iff, p.keys_numbers]

/-! ## Adding texts -/

theorem strings_push (p : StringPool) (t : String) (h : p.numbers.get? t = none) :
    (p.push t h).strings = p.strings ++ [t] := rfl

theorem intern_of_mem {p : StringPool} {t : String} (h : t ∈ p.strings) :
    p.intern t = (p.strings.idxOf t, p) := by
  have place : p.strings[p.strings.idxOf t]? = some t := by
    rw [List.getElem?_eq_getElem (List.idxOf_lt_length_of_mem h), List.getElem_idxOf]
  have known := (p.get?_numbers t _).2 place
  unfold intern
  split
  · next n found => rw [Option.some.inj (found.symm.trans known)]
  · next new => cases new.symm.trans known

theorem intern_of_not_mem {p : StringPool} {t : String} (h : t ∉ p.strings) :
    (p.intern t).1 = p.size ∧ (p.intern t).2.strings = p.strings ++ [t] := by
  have new : p.numbers.get? t = none := by
    rw [OrderedMap.get?_eq_none_iff, p.keys_numbers]
    exact h
  unfold intern
  split
  · next n found => cases new.symm.trans found
  · next new => exact ⟨rfl, p.strings_push t new⟩

/-- The texts after one is added. -/
theorem strings_intern (p : StringPool) (t : String) :
    (p.intern t).2.strings = if t ∈ p.strings then p.strings else p.strings ++ [t] := by
  split
  · next known => rw [intern_of_mem known]
  · next new => exact (intern_of_not_mem new).2

theorem lookup_intern (p : StringPool) (t : String) :
    (p.intern t).2.lookup (p.intern t).1 = some t := by
  show (p.intern t).2.strings[(p.intern t).1]? = some t
  by_cases h : t ∈ p.strings
  · rw [intern_of_mem h, List.getElem?_eq_getElem (List.idxOf_lt_length_of_mem h),
      List.getElem_idxOf]
  · obtain ⟨number, strings⟩ := intern_of_not_mem h
    rw [number, strings, size, List.getElem?_concat_length]

theorem intern_lookup (p : StringPool) (n : Nat) (t : String) (h : p.lookup n = some t) :
    p.intern t = (n, p) := by
  have ht : p.strings[n]? = some t := h
  rw [intern_of_mem (List.mem_of_getElem? ht)]
  obtain ⟨hn, rfl⟩ := List.getElem?_eq_some_iff.1 ht
  rw [p.nodup.idxOf_getElem]

/-- The texts of a pool keep their places. -/
theorem strings_prefix_intern (p : StringPool) (t : String) :
    p.strings <+: (p.intern t).2.strings := by
  rw [strings_intern]
  split
  · exact List.prefix_rfl
  · exact List.prefix_append p.strings [t]

theorem lookup_intern_of_lookup (p : StringPool) (t u : String) (i : Int)
    (h : p.lookup i = some u) : (p.intern t).2.lookup i = some u := by
  cases i with
  | negSucc => cases h
  | ofNat n =>
    obtain ⟨hn, -⟩ := List.getElem?_eq_some_iff.1 h
    obtain ⟨more, longer⟩ := p.strings_prefix_intern t
    show (p.intern t).2.strings[n]? = some u
    rw [← longer, List.getElem?_append_left hn]
    exact h

end StringPool

end TypedTables
