import Mathlib.Data.Finset.Card
import Mathlib.Data.List.Induction
import TypedTables.Table.StringPool
/-!
# Interned texts

A pool is filled by texts that are interned one after the other, and only interning makes another
pool. Its list and its map grow at the same time, and stay inverse to each other, so numbers and
texts are one to one. What a run of any length leaves is known without the run: the texts in the
order in which they first appear, after the empty one.

Results:
* `strings_internAll`: the texts of a pool after any texts are interned.
* `lookup_internAll_of_lookup`: a number keeps its text, whatever is interned later.
* `lookup_eq_some_iff`, `lookup_eq_none_iff`: which numbers lead to a text, and which to none.
* `internAll_oneToOne`: numbers and texts are one to one.
-/
namespace TypedTables

/-- Of a list with one more element, the first appearances are those of the list, and the element
if it is new. -/
theorem eraseDups_concat {α : Type} [DecidableEq α] (l : List α) (a : α) :
    (l ++ [a]).eraseDups = if a ∈ l then l.eraseDups else l.eraseDups ++ [a] := by
  rw [List.eraseDups_append]
  by_cases h : a ∈ l
  · have nothing : [a].removeAll l = [] := by simp [List.removeAll, h]
    rw [nothing, if_pos h, List.eraseDups_nil, List.append_nil]
  · have all : [a].removeAll l = [a] := by simp [List.removeAll, h]
    rw [all, if_neg h, List.eraseDups_cons, List.filter_nil, List.eraseDups_nil]

namespace StringPool

/-- The pool after texts are interned one after the other. -/
def internAll (p : StringPool) (texts : List String) : StringPool :=
  texts.foldl (fun p t => (p.intern t).2) p

theorem internAll_snoc (p : StringPool) (texts : List String) (t : String) :
    p.internAll (texts ++ [t]) = ((p.internAll texts).intern t).2 := by
  rw [internAll, List.foldl_append]
  rfl

/-! ## Texts -/

/-- **Texts.** A pool holds the texts that were interned, each once, in the order in which they
first appear. The empty text comes first, even if it was never interned. -/
theorem strings_internAll (texts : List String) :
    (empty.internAll texts).strings = ("" :: texts).eraseDups := by
  induction texts using List.reverseRecOn with
  | nil => rfl
  | append_singleton texts t ih =>
    rw [internAll_snoc, strings_intern, ih, ← List.cons_append, eraseDups_concat]
    simp only [List.mem_eraseDups]

/-- The number of distinct texts, where the empty one counts in any case. -/
theorem size_internAll (texts : List String) :
    (empty.internAll texts).size = 1 + (texts.toFinset.erase "").card := by
  have same : (empty.internAll texts).strings.toFinset = insert "" (texts.toFinset.erase "") := by
    ext t
    rw [strings_internAll, List.mem_toFinset, List.mem_eraseDups, List.mem_cons, Finset.mem_insert,
      Finset.mem_erase, List.mem_toFinset]
    tauto
  rw [size, ← List.toFinset_card_of_nodup (nodup _), same,
    Finset.card_insert_of_notMem (Finset.notMem_erase "" _), Nat.add_comm]

/-! ## Numbers -/

/-- The number that a text gets is its place, or the first free one if the text is new. -/
theorem intern_fst (p : StringPool) (t : String) : (p.intern t).1 = p.strings.idxOf t := by
  by_cases h : t ∈ p.strings
  · rw [intern_of_mem h]
  · rw [(intern_of_not_mem h).1, List.idxOf_eq_length h, size]

/-- A number keeps its text, whatever is interned later. -/
theorem lookup_internAll_of_lookup {p : StringPool} {i : Int} {t : String}
    (h : p.lookup i = some t) (later : List String) : (p.internAll later).lookup i = some t := by
  induction later using List.reverseRecOn with
  | nil => exact h
  | append_singleton later u ih =>
    rw [internAll_snoc]
    exact lookup_intern_of_lookup _ u t i ih

/-- The numbers that lead to a text are those that the text has, and then it is in the pool. -/
theorem lookup_eq_some_iff (p : StringPool) (i : Int) (t : String) :
    p.lookup i = some t ↔ 0 ≤ i ∧ p.intern t = (i.toNat, p) := by
  constructor
  · intro h
    cases i with
    | negSucc => cases h
    | ofNat n => exact ⟨Int.natCast_nonneg n, p.intern_lookup n t h⟩
  · rintro ⟨nonneg, known⟩
    have found := p.lookup_intern t
    rw [known] at found
    dsimp only at found
    rwa [Int.toNat_of_nonneg nonneg] at found

/-- The numbers that lead to no text are those below zero and those from the size on. -/
theorem lookup_eq_none_iff (p : StringPool) (i : Int) :
    p.lookup i = none ↔ i < 0 ∨ p.size ≤ i := by
  cases i with
  | negSucc n => exact iff_of_true rfl (.inl (Int.negSucc_lt_zero n))
  | ofNat n =>
    show p.strings[n]? = none ↔ (n : Int) < 0 ∨ (p.size : Int) ≤ n
    rw [List.getElem?_eq_none_iff, size]
    omega

/-- **One to one.** After any texts are interned, a pool holds them once each, in the order in
which they first appear, after the empty one; so its size is one more than the number of other
texts. Its map is the inverse of its list. The next text gets its place in the list, or the end if
it is new, and its number leads back to it at once and after any other texts. A number leads to the
text that has it, which is not added again, and the numbers that lead to none are those outside of
the list. -/
theorem internAll_oneToOne (texts : List String) :
    let p := empty.internAll texts
    p.strings = ("" :: texts).eraseDups ∧ p.strings.Nodup ∧ p.strings[0]? = some "" ∧
    p.size = 1 + (texts.toFinset.erase "").card ∧
    (∀ t n, p.numbers.get? t = some n ↔ p.strings[n]? = some t) ∧
    (∀ t, p.contains t = true ↔ t ∈ p.strings) ∧
    (∀ t later, (p.intern t).1 = p.strings.idxOf t ∧
      ((p.intern t).2.internAll later).lookup (p.intern t).1 = some t) ∧
    (∀ i t, p.lookup i = some t ↔ 0 ≤ i ∧ p.intern t = (i.toNat, p)) ∧
    ∀ i, p.lookup i = none ↔ i < 0 ∨ p.size ≤ i := by
  intro p
  refine ⟨strings_internAll texts, p.nodup, rfl, size_internAll texts, p.get?_numbers,
    p.contains_iff, fun t later => ⟨p.intern_fst t, ?_⟩, p.lookup_eq_some_iff,
    p.lookup_eq_none_iff⟩
  exact lookup_internAll_of_lookup (p.lookup_intern t) later

/-- A text that comes again adds nothing. -/
example : (empty.internAll ["EARTH", "", "MARS", "EARTH"]).strings = ["", "EARTH", "MARS"] := by
  decide

end StringPool

end TypedTables
