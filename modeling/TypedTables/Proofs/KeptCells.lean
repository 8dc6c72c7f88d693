import TypedTables.Proofs.SoundDraft
/-!
# Kept cells

In what form the cells of a table are kept: a BOOL as 0 or 1, a FLOAT as the text of a number, an
INT or a text as the number of a pooled text, an array as the list of its elements. A cell for
which nothing is given is empty, and so is an element of a BOOL or a FLOAT array.

While a table is read its pool of texts grows at the end only, so a cell that fits a pool fits
every later one.

Results:
* `kept_of_normalizeFloat`: the texts in which numbers are kept.
* `interning_mapM_forall`: what the steps of a list leave behind when the pool has grown.
* `readCell_fits`: every cell that is read has the form of its type.
-/
namespace TypedTables

/-! ## Texts of numbers -/

/-- The texts in which FLOAT cells are kept: the infinities, and numbers without a plus sign and
with a small exponent marker, which may be unsure. -/
inductive Decimal.Kept : List Char → Prop
  | infinity : Kept ['?']
  | minusInfinity : Kept ['-', '?']
  | sure {s : List Char} : isNumeral s → s.head? ≠ some '+' → 'E' ∉ s → Kept s
  | unsure {s : List Char} : isNumeral s → s.head? ≠ some '+' → 'E' ∉ s → Kept ('~' :: s)

theorem Decimal.kept_of_normalizeFloat {s t : List Char} (h : normalizeFloat s = some t) :
    Kept t := by
  unfold normalizeFloat at h
  split at h
  · next hs =>
    cases h
    rcases hs with rfl | rfl
    · exact .infinity
    · exact .minusInfinity
  · dsimp only at h
    have small : ∀ l : List Char, 'E' ∉ l.map fun c => if c = 'E' then 'e' else c := by
      intro l hm
      obtain ⟨c, -, hc⟩ := List.mem_map.1 hm
      split at hc
      · cases hc
      · next hne => exact hne hc
    rw [Option.ite_none_right_eq_some, Option.some.injEq] at h
    obtain ⟨⟨plus, numeral⟩, rfl⟩ := h
    -- with and without a plus sign, behind a mark and without one
    revert plus numeral
    split <;> split
    · exact fun plus numeral => .unsure numeral plus (small _)
    · exact fun plus numeral => .sure numeral plus (small _)
    · exact fun plus numeral => .unsure numeral plus (small _)
    · exact fun plus numeral => .sure numeral plus (small _)

/-! ## Forms -/

namespace Raw

/-- A scalar of a type as a pool keeps it. -/
inductive Keeps (pool : StringPool) : BaseType → Raw → Prop
  | flag (b : Bool) : Keeps pool .bool (.code (if b then 1 else 0))
  | number {t : String} : Decimal.Kept t.toList → Keeps pool .float (.text t)
  | pooled {base : BaseType} {n : Nat} : base.isPooled → n < pool.size →
    Keeps pool base (.code n)

/-- An element of an array. Pooled types have the empty text for an element that is not given. -/
def KeepsItem (pool : StringPool) (base : BaseType) (raw : Raw) : Prop :=
  raw = .empty ∧ base.isPooled = false ∨ Keeps pool base raw

/-- A cell of a field as a pool keeps it. -/
inductive Fits (pool : StringPool) (type : FieldType) : Raw → Prop
  | empty : Fits pool type .empty
  | scalar {raw : Raw} : type.isArray = false → Keeps pool type.base raw → Fits pool type raw
  | array {items : List Raw} : type.isArray = true → items ≠ [] →
    (∀ item ∈ items, KeepsItem pool type.base item) → Fits pool type (.list items)

variable {pool pool' : StringPool} (grows : pool.strings <+: pool'.strings)
include grows

theorem Keeps.mono {base : BaseType} {raw : Raw} (h : Keeps pool base raw) :
    Keeps pool' base raw := by
  cases h with
  | flag b => exact .flag b
  | number ht => exact .number ht
  | pooled hb hn => exact .pooled hb (Nat.lt_of_lt_of_le hn grows.length_le)

theorem KeepsItem.mono {base : BaseType} {raw : Raw} (h : KeepsItem pool base raw) :
    KeepsItem pool' base raw :=
  h.imp_right (Keeps.mono grows)

theorem Fits.mono {type : FieldType} {raw : Raw} (h : Fits pool type raw) :
    Fits pool' type raw := by
  cases h with
  | empty => exact .empty
  | scalar hs hk => exact .scalar hs (hk.mono grows)
  | array ha hne hi => exact .array ha hne fun item hm => (hi item hm).mono grows

end Raw

/-! ## A growing pool -/

section Growing

variable {ε α β : Type}

/-- The pool grows at every step of a list, and what a step says of its answer holds at the end. -/
theorem interning_mapM_forall {f : α → Interning ε β} {P : StringPool → α → β → Prop}
    {l : List α} {r : List β} {p p' : StringPool}
    (mono : ∀ {q q' : StringPool} {a b}, q.strings <+: q'.strings → P q a b → P q' a b)
    (step : ∀ a ∈ l, ∀ {q b q'}, p.strings <+: q.strings → f a q = .ok (b, q') →
      q.strings <+: q'.strings ∧ P q' a b)
    (h : l.mapM f p = .ok (r, p')) :
    p.strings <+: p'.strings ∧ List.Forall₂ (P p') l r := by
  induction l generalizing r p with
  | nil =>
    rw [List.mapM_nil, interning_pure_eq_ok] at h
    rw [← h.1, ← h.2]
    exact ⟨List.prefix_rfl, .nil⟩
  | cons a l ih =>
    rw [List.mapM_cons, interning_bind_eq_ok] at h
    obtain ⟨b, p₁, hb, h⟩ := h
    obtain ⟨bs, p₂, hbs, h⟩ := interning_bind_eq_ok.1 h
    obtain ⟨rfl, rfl⟩ := interning_pure_eq_ok.1 h
    obtain ⟨first, hP⟩ := step a List.mem_cons_self List.prefix_rfl hb
    obtain ⟨later, hrest⟩ := ih
      (fun a' ha => fun hq => step a' (List.mem_cons_of_mem _ ha) (first.trans hq)) hbs
    exact ⟨first.trans later, .cons (mono later hP) hrest⟩

end Growing

/-! ## Reading -/

theorem internText_eq_ok {ε : Type} {t : String} {raw : Raw} {p p' : StringPool}
    (h : (internText t : Interning ε Raw) p = .ok (raw, p')) :
    p.strings <+: p'.strings ∧ ∃ n : Nat, raw = .code n ∧ n < p'.size := by
  cases h
  refine ⟨p.strings_prefix_intern t, _, rfl, ?_⟩
  have found : (p.intern t).2.strings[(p.intern t).1]? = some t := p.lookup_intern t
  exact (List.getElem?_eq_some_iff.1 found).1

/-- A text of a pooled type is pooled behind its prefix. -/
theorem readScalar_of_isPooled {base : BaseType} (h : base.isPooled) (affix t : String) :
    readScalar base affix t = if t = "" then pure (.code 0) else internText (affix ++ t) := by
  cases base <;> first | rfl | cases h

/-- Texts that are not pooled are read without a pool. -/
theorem readScalar_unpooled {base : BaseType} (hb : base.isPooled = false) {affix t : String}
    {p p' : StringPool} {raw : Raw} (h : readScalar base affix t p = .ok (raw, p'))
    (q : StringPool) : readScalar base affix t q = .ok (raw, q) := by
  cases base with
  | int => cases hb
  | string => cases hb
  | stringName => cases hb
  | bool =>
    unfold readScalar at h ⊢
    dsimp only at h ⊢
    by_cases empty : t = ""
    · rw [if_pos empty] at h ⊢
      cases h
      rfl
    · rw [if_neg empty] at h ⊢
      cases found : truthValue? t <;> rw [found] at h
      · cases h
      · cases h
        rfl
  | float =>
    unfold readScalar at h ⊢
    dsimp only at h ⊢
    by_cases empty : t = ""
    · rw [if_pos empty] at h ⊢
      cases h
      rfl
    · rw [if_neg empty] at h ⊢
      cases found : Decimal.normalizeFloat t.toList <;> rw [found] at h
      · cases h
      · cases h
        rfl

/-- A scalar has the form of its type; where nothing is given a pooled one is the empty text. -/
theorem readScalar_keeps {base : BaseType} {affix t : String} {raw : Raw} {p p' : StringPool}
    (h : readScalar base affix t p = .ok (raw, p')) :
    p.strings <+: p'.strings ∧ raw.KeepsItem p' base := by
  have pooled : base.isPooled → ((if t = "" then pure (.code 0) else internText (affix ++ t) :
      Interning CellFault Raw) p = .ok (raw, p')) →
      p.strings <+: p'.strings ∧ raw.KeepsItem p' base := by
    intro hb h
    split at h
    · obtain ⟨rfl, rfl⟩ := interning_pure_eq_ok.1 h
      exact ⟨List.prefix_rfl, .inr (.pooled (n := 0) hb (Nat.succ_pos _))⟩
    · obtain ⟨grows, n, rfl, hn⟩ := internText_eq_ok h
      exact ⟨grows, .inr (.pooled hb hn)⟩
  unfold readScalar at h
  cases base with
  | int => exact pooled rfl h
  | string => exact pooled rfl h
  | stringName => exact pooled rfl h
  | bool =>
    dsimp only at h
    by_cases ht : t = ""
    · rw [if_pos ht] at h
      obtain ⟨rfl, rfl⟩ := interning_pure_eq_ok.1 h
      exact ⟨List.prefix_rfl, .inl ⟨rfl, rfl⟩⟩
    · rw [if_neg ht] at h
      cases hb : truthValue? t with
      | none => rw [hb] at h; cases h
      | some b =>
        rw [hb] at h
        obtain ⟨rfl, rfl⟩ := interning_pure_eq_ok.1 h
        exact ⟨List.prefix_rfl, .inr (.flag b)⟩
  | float =>
    dsimp only at h
    by_cases ht : t = ""
    · rw [if_pos ht] at h
      obtain ⟨rfl, rfl⟩ := interning_pure_eq_ok.1 h
      exact ⟨List.prefix_rfl, .inl ⟨rfl, rfl⟩⟩
    · rw [if_neg ht] at h
      cases hs : Decimal.normalizeFloat t.toList with
      | none => rw [hs] at h; cases h
      | some s =>
        rw [hs] at h
        obtain ⟨rfl, rfl⟩ := interning_pure_eq_ok.1 h
        refine ⟨List.prefix_rfl, .inr (.number ?_)⟩
        rw [String.toList_ofList]
        exact Decimal.kept_of_normalizeFloat hs

theorem arrayPieces_ne_nil (t : String) : arrayPieces t ≠ [] := by
  unfold arrayPieces
  simp [Text.splitOn_ne_nil]

/-- **Cells.** A cell has the form of its type if the default that stands for an empty one has. -/
theorem readCell_fits {type : FieldType} {affix t : String} {default raw : Raw}
    {p p' : StringPool} (hd : default.Fits p type)
    (h : readCell type affix default t p = .ok (raw, p')) :
    p.strings <+: p'.strings ∧ raw.Fits p' type := by
  unfold readCell at h
  split at h
  · obtain ⟨rfl, rfl⟩ := interning_pure_eq_ok.1 h
    exact ⟨List.prefix_rfl, hd⟩
  · next ht =>
    split at h
    · next ha =>
      obtain ⟨items, p₁, hi, h⟩ := interning_bind_eq_ok.1 h
      obtain ⟨rfl, rfl⟩ := interning_pure_eq_ok.1 h
      obtain ⟨grows, kept⟩ := interning_mapM_forall
        (P := fun q _ item => item.KeepsItem q type.base) (fun hq => Raw.KeepsItem.mono hq)
        (fun _ _ _ _ _ _ hs => readScalar_keeps hs) hi
      refine ⟨grows, .array ha ?_ fun item hm => ?_⟩
      · rintro rfl
        exact arrayPieces_ne_nil t (List.forall₂_nil_right_iff.1 kept)
      · obtain ⟨_, -, hk⟩ := exists_of_forall₂ kept.flip hm
        exact hk
    · next ha =>
      obtain ⟨grows, kept⟩ := readScalar_keeps h
      refine ⟨grows, .scalar (by simpa using ha) (kept.resolve_left fun he => ?_)⟩
      exact readScalar_ne_empty ht h he.1

end TypedTables
