import TypedTables.Proofs.ForeignDigits
import TypedTables.Proofs.ResolvedCells
/-!
# Numbers as they are kept

The text of a FLOAT cell is brought to one form before it is kept: a plus sign is dropped and the
exponent marker is small. Here the texts that have such a form are given by a pattern, with the form
of each, and the number that a text stands for stays what it was.

One pattern is not the text of a number: a plus sign before a minus sign is dropped too, and what is
left is kept as a negative number.

Results:
* `numberText_small`: a small exponent marker changes nothing about a number.
* `normalizeFloat_eq_some_iff`: the texts that have a kept form, and the form of each.
* `normalizeFloat_keeps`: the kept form is its own, and stands for the number of the text.
-/
namespace TypedTables.Decimal

open TypedTables.Text (digitValue? takeDigits isDigit)

/-! ## Small markers -/

/-- The exponent marker in small. -/
def small (s : List Char) : List Char := s.map fun c => if c = 'E' then 'e' else c

theorem small_append (s t : List Char) : small (s ++ t) = small s ++ small t := List.map_append

theorem small_eq_self {s : List Char} (h : 'E' ∉ s) : small s = s := by
  refine (List.map_congr_left fun c hc => ?_).trans (List.map_id s)
  exact if_neg fun e : c = 'E' => h (e ▸ hc)

theorem not_mem_small (s : List Char) : 'E' ∉ small s := by
  intro h
  obtain ⟨c, -, hc⟩ := List.mem_map.1 h
  split at hc
  · cases hc
  · next ne => exact ne hc

theorem eq_of_small {s t : List Char} (h : small s = t) (ht : 'e' ∉ t) : s = t := by
  rw [← h]
  refine (small_eq_self fun hE => ht ?_).symm
  rw [← h]
  exact List.mem_map.2 ⟨'E', hE, rfl⟩

/-- No marker is in these characters. -/
def Unmarked (s : List Char) : Prop := 'e' ∉ s ∧ 'E' ∉ s

instance (s : List Char) : Decidable (Unmarked s) := by unfold Unmarked; infer_instance

theorem Unmarked.append {s t : List Char} (hs : Unmarked s) (ht : Unmarked t) :
    Unmarked (s ++ t) := by
  simp only [Unmarked, List.mem_append, not_or] at hs ht ⊢
  exact ⟨⟨hs.1, ht.1⟩, hs.2, ht.2⟩

theorem SignText.unmarked {s : List Char} {negative : Bool} (h : SignText s negative) :
    Unmarked s := by
  cases h <;> decide

theorem DigitText.unmarked {s : List Char} {ds : List Nat} (h : DigitText s ds) : Unmarked s := by
  have digit : ∀ c ∈ s, ∃ d, digitValue? c = some d := by
    intro c hc
    have hm : digitValue? c ∈ s.map digitValue? := List.mem_map_of_mem hc
    rw [show s.map digitValue? = ds.map some from h] at hm
    obtain ⟨d, -, hd⟩ := List.mem_map.1 hm
    exact ⟨d, hd.symm⟩
  have other : ∀ {c : Char}, digitValue? c = none → c ∉ s := fun none hm => by
    obtain ⟨d, hd⟩ := digit _ hm
    cases none.symm.trans hd
  exact ⟨other (by decide), other (by decide)⟩

theorem MantissaText.unmarked {s : List Char} {whole fraction : List Nat}
    (h : MantissaText s whole fraction) : Unmarked s := by
  cases h with
  | whole hds => exact hds.unmarked
  | point hds hes => exact hds.unmarked.append (Unmarked.append (s := ['.']) (by decide) hes.unmarked)

theorem exponentText_small {s : List Char} {e : Int} :
    ExponentText (small s) e ↔ ExponentText s e := by
  constructor
  · intro h
    cases s with
    | nil => exact h
    | cons c r =>
      generalize ht : small (c :: r) = t at h
      cases h with
      | none => cases ht
      | some marker hsign hds ne =>
        obtain ⟨hc, hr⟩ := List.cons.inj ht
        dsimp only at hc
        have rest := eq_of_small hr (hsign.unmarked.append hds.unmarked).1
        rw [rest]
        refine .some ?_ hsign hds ne
        by_cases big : c = 'E'
        · exact .inr big
        · rw [if_neg big] at hc
          rwa [hc]
  · intro h
    cases h with
    | none => exact .none
    | @some c sign digits negative ds hc hsign hds ne =>
      have rest : small (sign ++ digits) = sign ++ digits :=
        small_eq_self (hsign.unmarked.append hds.unmarked).2
      show ExponentText ((if c = 'E' then 'e' else c) :: small (sign ++ digits)) _
      rw [rest]
      refine .some ?_ hsign hds ne
      rcases hc with rfl | rfl <;> decide

/-- **Small markers.** The number does not depend on how its exponent marker is written. -/
theorem numberText_small {s : List Char} {n : Numeral} :
    NumberText (small s) n ↔ NumberText s n := by
  constructor
  · intro h
    generalize ht : small s = t at h
    obtain ⟨hsign, hm, he⟩ := h
    obtain ⟨s₁, r, rfl, h₁, hr⟩ := List.map_eq_append_iff.1 ht
    obtain ⟨s₂, s₃, rfl, h₂, h₃⟩ := List.map_eq_append_iff.1 hr
    rw [eq_of_small h₁ hsign.unmarked.1, eq_of_small h₂ hm.unmarked.1]
    rw [← h₃] at he
    exact .mk hsign hm (exponentText_small.1 he)
  · rintro ⟨hsign, hm, he⟩
    rw [small_append, small_append, small_eq_self hsign.unmarked.2, small_eq_self hm.unmarked.2]
    exact .mk hsign hm (exponentText_small.2 he)

/-! ## Kept forms -/

/-- Nothing, or the mark of an uncertain value. -/
inductive Mark : List Char → Prop
  | sure : Mark []
  | unsure : Mark ['~']

/-- What may stand before a number, what is kept of it, and whether that is a minus sign. -/
inductive KeptSign : List Char → List Char → Bool → Prop
  | none : KeptSign [] [] false
  | plus : KeptSign ['+'] [] false
  | minus : KeptSign ['-'] ['-'] true
  /-- two signs, which no number has -/
  | plusMinus : KeptSign ['+', '-'] ['-'] true

/-- A text of a number, what is kept of it, and the number that is kept. -/
inductive KeepsNumber : List Char → List Char → Numeral → Prop
  | mk {sign kept mantissa exponent : List Char} {negative : Bool} {whole fraction : List Nat}
    {e : Int} : KeptSign sign kept negative → MantissaText mantissa whole fraction →
    ExponentText exponent e →
    KeepsNumber (sign ++ (mantissa ++ exponent)) (kept ++ (mantissa ++ small exponent))
      ⟨negative, whole, fraction, e⟩

/-- A text of a FLOAT cell and the form in which it is kept. -/
inductive Normalizes : List Char → List Char → Prop
  | infinity : Normalizes ['?'] ['?']
  | minusInfinity : Normalizes ['-', '?'] ['-', '?']
  | number {mark body kept : List Char} {n : Numeral} : Mark mark → KeepsNumber body kept n →
    Normalizes (mark ++ body) (mark ++ kept)

/-- Drop a plus sign. -/
def dropPlus : List Char → List Char
  | '+' :: r => r
  | r => r

/-- The kept form of a text behind its mark. -/
def keepBody (mark body : List Char) : Option (List Char) :=
  let kept := small (dropPlus body)
  if kept.head? ≠ some '+' ∧ isNumeral kept then some (mark ++ kept) else none

theorem normalizeFloat_unsure (body : List Char) :
    normalizeFloat ('~' :: body) = keepBody ['~'] body := by
  unfold normalizeFloat keepBody dropPlus
  rw [if_neg (by simp)]
  rfl

theorem normalizeFloat_sure {body : List Char} (finite : body ≠ ['?'] ∧ body ≠ ['-', '?'])
    (sure : body.head? ≠ some '~') : normalizeFloat body = keepBody [] body := by
  unfold normalizeFloat keepBody dropPlus
  rw [if_neg (not_or.2 finite)]
  split
  · next h =>
    split at h
    · simp at sure
    · cases h
      rfl

theorem dropPlus_eq_self {s : List Char} (h : s.head? ≠ some '+') : dropPlus s = s := by
  unfold dropPlus
  split
  · exact absurd rfl h
  · rfl

theorem eq_or_eq_of_dropPlus {s t : List Char} (h : dropPlus s = t) : s = t ∨ s = '+' :: t := by
  unfold dropPlus at h
  split at h
  · exact .inr (congrArg _ h)
  · exact .inl h

namespace KeptSign

variable {sign kept : List Char} {negative : Bool} (h : KeptSign sign kept negative)
include h

theorem signText : SignText kept negative := by
  cases h with
  | none | plus => exact .none
  | minus | plusMinus => exact .minus

/-- A plus sign is dropped and none is left. -/
theorem dropPlus_append {r : List Char} (hr : ∀ c ∈ r.head?, c ≠ '+' ∧ c ≠ '-') :
    dropPlus (sign ++ r) = kept ++ r ∧ (kept ++ r).head? ≠ some '+' := by
  have rest : r.head? ≠ some '+' := fun head => (hr _ head).1 rfl
  cases h with
  | none => exact ⟨dropPlus_eq_self rest, rest⟩
  | plus => exact ⟨rfl, rest⟩
  | minus | plusMinus => exact ⟨rfl, by simp⟩

end KeptSign

namespace KeepsNumber

variable {body kept : List Char} {n : Numeral} (h : KeepsNumber body kept n)
include h

/-- What is kept is the text of the number. -/
theorem numberText : NumberText kept n := by
  obtain ⟨hs, hm, he⟩ := h
  exact .mk hs.signText hm (exponentText_small.2 he)

theorem small_dropPlus : small (dropPlus body) = kept := by
  obtain ⟨hs, hm, -⟩ := h
  rw [(hs.dropPlus_append (Numeral.mantissa_head hm _)).1, small_append, small_append,
    small_eq_self hs.signText.unmarked.2, small_eq_self hm.unmarked.2]

theorem head_ne_plus : kept.head? ≠ some '+' := by
  obtain ⟨hs, hm, -⟩ := h
  exact (hs.dropPlus_append (Numeral.mantissa_head hm _)).2

theorem char : ∀ c ∈ body, IsNumberChar c := by
  obtain ⟨hs, hm, he⟩ := h
  rw [List.forall_mem_append, List.forall_mem_append]
  refine ⟨?_, hm.char, he.char⟩
  cases hs <;> simp [IsNumberChar]

end KeepsNumber

/-- The kept form of a text that is a number when a plus sign is dropped. -/
theorem keepsNumber_of_dropPlus {body : List Char} {n : Numeral} (h : NumberText (dropPlus body) n)
    (plus : (small (dropPlus body)).head? ≠ some '+') :
    KeepsNumber body (small (dropPlus body)) n := by
  generalize hb : dropPlus body = b at h plus ⊢
  obtain @⟨sign, mantissa, exponent, negative, whole, fraction, e, hsign, hm, he⟩ := h
  have form : small (sign ++ (mantissa ++ exponent)) = sign ++ (mantissa ++ small exponent) := by
    rw [small_append, small_append, small_eq_self hsign.unmarked.2, small_eq_self hm.unmarked.2]
  rw [form] at plus ⊢
  cases hsign with
  | plus => exact absurd rfl plus
  | none =>
    rcases eq_or_eq_of_dropPlus hb with rfl | rfl
    · exact .mk .none hm he
    · exact .mk .plus hm he
  | minus =>
    rcases eq_or_eq_of_dropPlus hb with rfl | rfl
    · exact .mk .minus hm he
    · exact .mk .plusMinus hm he

theorem keepBody_eq_some_iff {mark body t : List Char} :
    keepBody mark body = some t ↔ ∃ kept n, KeepsNumber body kept n ∧ t = mark ++ kept := by
  unfold keepBody
  dsimp only
  rw [Option.ite_none_right_eq_some, Option.some.injEq]
  constructor
  · rintro ⟨⟨plus, numeral⟩, rfl⟩
    obtain ⟨n, hn⟩ := Option.isSome_iff_exists.1 numeral
    have text := numberText_small.1 (Numeral.parse?_eq_some_iff.1 hn)
    exact ⟨_, n, keepsNumber_of_dropPlus text plus, rfl⟩
  · rintro ⟨kept, n, h, rfl⟩
    rw [h.small_dropPlus]
    exact ⟨⟨h.head_ne_plus,
      Option.isSome_iff_exists.2 ⟨n, Numeral.parse?_eq_some_iff.2 h.numberText⟩⟩, rfl⟩

/-- **Kept forms.** The texts that have a kept form, and the form of each. -/
theorem normalizeFloat_eq_some_iff {s t : List Char} :
    normalizeFloat s = some t ↔ Normalizes s t := by
  constructor
  · intro h
    by_cases finite : s ≠ ['?'] ∧ s ≠ ['-', '?']
    · by_cases mark : s.head? = some '~'
      · obtain ⟨body, rfl⟩ := List.head?_eq_some_iff.1 mark
        rw [normalizeFloat_unsure] at h
        obtain ⟨kept, n, hk, rfl⟩ := keepBody_eq_some_iff.1 h
        exact .number .unsure hk
      · rw [normalizeFloat_sure finite mark] at h
        obtain ⟨kept, n, hk, rfl⟩ := keepBody_eq_some_iff.1 h
        exact .number .sure hk
    · rw [not_and_or, not_not, not_not] at finite
      rcases finite with rfl | rfl
      · cases h
        exact .infinity
      · cases h
        exact .minusInfinity
  · intro h
    cases h with
    | infinity => rfl
    | minusInfinity => rfl
    | number mark hk =>
      cases mark with
      | unsure => exact (normalizeFloat_unsure _).trans (keepBody_eq_some_iff.2 ⟨_, _, hk, rfl⟩)
      | sure =>
        obtain ⟨-, infinite, unsure⟩ := not_isNumberChar
        have other : ∀ {c : Char}, ¬ IsNumberChar c → c ∉ _ := fun hc hm => hc (hk.char _ hm)
        refine (normalizeFloat_sure ⟨?_, ?_⟩ ?_).trans (keepBody_eq_some_iff.2 ⟨_, _, hk, rfl⟩)
        · rintro rfl
          exact other infinite (by simp)
        · rintro rfl
          exact other infinite (by simp)
        · exact fun h => other unsure (List.mem_of_mem_head? h)

/-! ## Values -/

/-- The text behind the mark of an uncertain value. -/
def withoutMark (s : List Char) : List Char := if s.head? = some '~' then s.drop 1 else s

theorem withoutMark_append {mark body : List Char} (h : Mark mark)
    (char : ∀ c ∈ body, IsNumberChar c) : withoutMark (mark ++ body) = body := by
  cases h with
  | unsure => rfl
  | sure => exact if_neg fun h => not_isNumberChar.2.2 (char _ (List.mem_of_mem_head? h))

namespace KeepsNumber

variable {body kept : List Char} {n : Numeral} (h : KeepsNumber body kept n)
include h

/-- What is kept is kept as it is. -/
theorem self : KeepsNumber kept kept n := by
  obtain @⟨sign, kept, mantissa, exponent, negative, whole, fraction, e, hs, hm, he⟩ := h
  have sign : KeptSign kept kept negative := by
    cases hs with
    | none | plus => exact .none
    | minus | plusMinus => exact .minus
  have again := KeepsNumber.mk sign hm (exponentText_small.2 he)
  rwa [small_eq_self (not_mem_small exponent)] at again

/-- The text stands for the number that is kept, unless a plus sign before a minus sign was
dropped. -/
theorem readFloat? : Decimal.readFloat? body =
    if ['+', '-'] <+: body then none else some n.toFloat := by
  have char := h.char
  obtain @⟨sign, kept, mantissa, exponent, negative, whole, fraction, e, hs, hm, he⟩ := h
  have head := Numeral.mantissa_head hm exponent
  have unsigned : ∀ {c : Char} {r : List Char}, c = '+' ∨ c = '-' →
      ¬ (c :: r) <+: mantissa ++ exponent := by
    rintro c r sign ⟨t, ht⟩
    have ne := head c (by rw [← ht]; rfl)
    exact sign.elim ne.1 ne.2
  cases hs with
  | none =>
    refine (readFloat?_of_numberText (.mk .none hm he)).trans (if_neg ?_).symm
    exact unsigned (.inl rfl)
  | plus =>
    refine (readFloat?_of_numberText (.mk .plus hm he)).trans (if_neg ?_).symm
    exact fun h => unsigned (.inr rfl) (List.cons_prefix_cons.1 h).2
  | minus =>
    refine (readFloat?_of_numberText (.mk .minus hm he)).trans (if_neg ?_).symm
    exact fun h => absurd (List.cons_prefix_cons.1 h).1 (by decide)
  | plusMinus =>
    refine Eq.trans ?_ (if_pos (List.prefix_append ..)).symm
    rw [readFloat?_of_char char]
    rfl

end KeepsNumber

/-- **Kept numbers.** Just the texts of the pattern have a kept form. A kept form is its own, and
it stands for the number of the text; the one text for which it does not is no number. -/
theorem normalizeFloat_keeps (s : List Char) :
    (∀ t, normalizeFloat s = some t ↔ Normalizes s t) ∧
    ∀ t, normalizeFloat s = some t → normalizeFloat t = some t ∧
      (t = ['?'] ∨ t = ['-', '?'] ∨ ∃ x, readFloat? (withoutMark t) = some x ∧
        readFloat? (withoutMark s) = if ['+', '-'] <+: withoutMark s then none else some x) := by
  refine ⟨fun t => normalizeFloat_eq_some_iff, fun t h => ?_⟩
  cases normalizeFloat_eq_some_iff.1 h with
  | infinity => exact ⟨rfl, .inl rfl⟩
  | minusInfinity => exact ⟨rfl, .inr (.inl rfl)⟩
  | @number mark body kept n hmark hk =>
    refine ⟨normalizeFloat_eq_some_iff.2 (.number hmark hk.self), .inr (.inr ⟨n.toFloat, ?_, ?_⟩)⟩
    · rw [withoutMark_append hmark hk.numberText.char]
      exact readFloat?_of_numberText hk.numberText
    · rw [withoutMark_append hmark hk.char]
      exact hk.readFloat?

/-- An uncertain number with a plus sign and a large exponent marker. -/
theorem depth_kept :
    normalizeFloat "~+1.50E3".toList = some "~1.50e3".toList ∧
    normalizeFloat "~1.50e3".toList = some "~1.50e3".toList ∧
    ∃ x, readFloat? "1.50e3".toList = some x ∧ readFloat? "+1.50E3".toList = some x := by
  have kept : normalizeFloat "~+1.50E3".toList = some "~1.50e3".toList := by decide +kernel
  obtain ⟨again, infinite | infinite | ⟨x, hx, same⟩⟩ :=
    (normalizeFloat_keeps "~+1.50E3".toList).2 _ kept
  · exact absurd infinite (by decide)
  · exact absurd infinite (by decide)
  · rw [if_neg (by decide)] at same
    exact ⟨kept, again, x, hx, same⟩

/-- Two signs are kept as one, although with them the text is no number. -/
theorem twoSigns_kept :
    normalizeFloat ['+', '-', '5'] = some ['-', '5'] ∧
    (¬ ∃ mark body n, Mark mark ∧ NumberText body n ∧ ['+', '-', '5'] = mark ++ body) ∧
    readFloat? ['+', '-', '5'] = none ∧ (readFloat? ['-', '5']).isSome := by
  refine ⟨by decide +kernel, ?_, by decide +kernel, by decide +kernel⟩
  rintro ⟨mark, body, n, hmark, hn, h⟩
  cases hmark with
  | unsure => cases h
  | sure =>
    cases h
    have number : Numeral.parse? ['+', '-', '5'] = none := by decide +kernel
    cases number.symm.trans (Numeral.parse?_eq_some_iff.2 hn)

end TypedTables.Decimal
