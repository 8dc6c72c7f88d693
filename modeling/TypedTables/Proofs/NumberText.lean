import TypedTables.Decimal.Numeral
/-!
# Number texts

The form of a decimal number as a pattern: an optional sign, digits with at most one point among
them and at least one digit, an optional exponent. `Numeral.parse?` reads from the left; the
pattern says how the whole text is put together.

Results:
* `takeDigits_append`, `takeDigits_eq`: what is read are the digits at the front, all of them.
* `parse?_eq_some_iff`: the reader accepts just the texts of the pattern, with its digits.
* `readInteger?_eq_some_iff`: so does the reader of integers, for an optional sign and digits.
-/
namespace TypedTables.Decimal

open TypedTables.Text (digitValue? takeDigits ofDigits)

/-- An optional sign, and whether it is a minus. -/
inductive SignText : List Char → Bool → Prop
  | none : SignText [] false
  | plus : SignText ['+'] false
  | minus : SignText ['-'] true

/-- Digits and what they stand for. -/
def DigitText (s : List Char) (ds : List Nat) : Prop := s.map digitValue? = ds.map some

/-- Digits with at most one point: those before it and those after it. -/
inductive MantissaText : List Char → List Nat → List Nat → Prop
  | whole {s : List Char} {ds : List Nat} : DigitText s ds → ds ≠ [] → MantissaText s ds []
  | point {s t : List Char} {ds es : List Nat} : DigitText s ds → DigitText t es →
    ds ≠ [] ∨ es ≠ [] → MantissaText (s ++ '.' :: t) ds es

/-- An optional exponent. -/
inductive ExponentText : List Char → Int → Prop
  | none : ExponentText [] 0
  | some {c : Char} {sign s : List Char} {negative : Bool} {ds : List Nat} :
    c = 'e' ∨ c = 'E' → SignText sign negative → DigitText s ds → ds ≠ [] →
    ExponentText (c :: (sign ++ s)) (if negative then -(ofDigits ds : Int) else ofDigits ds)

/-- The text of a number. -/
inductive NumberText : List Char → Numeral → Prop
  | mk {sign mantissa exponent : List Char} {negative : Bool} {whole fraction : List Nat}
    {e : Int} :
    SignText sign negative → MantissaText mantissa whole fraction → ExponentText exponent e →
    NumberText (sign ++ (mantissa ++ exponent)) ⟨negative, whole, fraction, e⟩

/-- The characters of numbers. -/
def IsNumberChar (c : Char) : Prop :=
  (∃ d, digitValue? c = some d) ∨ c = '+' ∨ c = '-' ∨ c = '.' ∨ c = 'e' ∨ c = 'E'

/-! ## Digits -/

/-- The text does not go on with a digit. -/
def NoDigit (s : List Char) : Prop := ∀ c ∈ s.head?, digitValue? c = none

theorem takeDigits_append {s r : List Char} {ds : List Nat} (h : DigitText s ds) (hr : NoDigit r) :
    takeDigits (s ++ r) = (ds, r) := by
  induction s generalizing ds with
  | nil =>
    cases ds with
    | cons d ds => simp [DigitText] at h
    | nil =>
      cases r with
      | nil => rfl
      | cons c r =>
        have hc : digitValue? c = none := hr c (by simp)
        simp [takeDigits, hc]
  | cons c s ih =>
    cases ds with
    | nil => simp [DigitText] at h
    | cons d ds =>
      simp only [DigitText, List.map_cons, List.cons.injEq] at h
      rw [List.cons_append, takeDigits, h.1, ih h.2]

theorem takeDigits_eq {s r : List Char} {ds : List Nat} (h : takeDigits s = (ds, r)) :
    ∃ p, s = p ++ r ∧ DigitText p ds ∧ NoDigit r := by
  induction s generalizing ds with
  | nil =>
    cases h
    exact ⟨[], rfl, rfl, by simp [NoDigit]⟩
  | cons c s ih =>
    unfold takeDigits at h
    split at h
    · next hc =>
      cases h
      exact ⟨[], rfl, rfl, by simpa [NoDigit] using hc⟩
    · next d hd =>
      cases h
      obtain ⟨p, hp, hds, hr⟩ := ih rfl
      exact ⟨c :: p, congrArg (c :: ·) hp, by simpa [DigitText, hd] using hds, hr⟩

theorem noDigit_nil : NoDigit [] := by simp [NoDigit]

theorem noDigit_cons {c : Char} (h : digitValue? c = none) (s : List Char) : NoDigit (c :: s) := by
  simpa [NoDigit] using h

/-- No blank is a digit in any script. -/
theorem not_isBlank_of_digit {c : Char} {d : Nat} (h : digitValue? c = some d) :
    ¬ Text.isBlank c := by
  have apart : ∀ z ∈ Text.digitZeros, ∀ r ∈ Text.blankRanges, z + 9 < r.1 ∨ r.2 < z := by decide
  intro hb
  unfold digitValue? at h
  obtain ⟨z, hz, -⟩ := Option.map_eq_some_iff.1 h
  have hz₁ := List.mem_of_find?_eq_some hz
  have hz₂ := List.find?_some hz
  simp only [Text.isBlank, Text.inRanges, List.any_eq_true, Bool.and_eq_true,
    decide_eq_true_eq] at hb hz₂
  obtain ⟨r, hr, hc⟩ := hb
  have := apart z hz₁ r hr
  omega

theorem ne_of_noDigit {c x : Char} {d : Nat} (h : digitValue? c = some d)
    (hx : digitValue? x = none) : c ≠ x := by
  rintro rfl
  rw [hx] at h
  cases h

/-- What is a digit is none of the other characters of a number. -/
theorem ne_of_digit {c : Char} {d : Nat} (h : digitValue? c = some d) :
    c ≠ '+' ∧ c ≠ '-' ∧ c ≠ '.' ∧ c ≠ 'e' ∧ c ≠ 'E' :=
  ⟨ne_of_noDigit h (by decide), ne_of_noDigit h (by decide), ne_of_noDigit h (by decide),
    ne_of_noDigit h (by decide), ne_of_noDigit h (by decide)⟩

theorem digits_head {s : List Char} {ds : List Nat} (h : DigitText s ds) (hne : ds ≠ [])
    (r : List Char) : ∀ c ∈ (s ++ r).head?, c ≠ '+' ∧ c ≠ '-' := by
  intro c hc
  cases s with
  | nil => cases ds <;> simp_all [DigitText]
  | cons c' s =>
    cases ds with
    | nil => exact absurd rfl hne
    | cons d ds =>
      simp only [DigitText, List.map_cons, List.cons.injEq] at h
      simp only [List.cons_append, List.head?_cons, Option.mem_def, Option.some.injEq] at hc
      rw [← hc]
      exact ⟨(ne_of_digit h.1).1, (ne_of_digit h.1).2.1⟩

/-! ## Characters -/

theorem DigitText.char {s : List Char} {ds : List Nat} (h : DigitText s ds) :
    ∀ c ∈ s, IsNumberChar c := by
  intro c hc
  have : digitValue? c ∈ s.map digitValue? := List.mem_map_of_mem hc
  rw [show s.map digitValue? = ds.map some from h, List.mem_map] at this
  obtain ⟨d, -, hd⟩ := this
  exact .inl ⟨d, hd.symm⟩

theorem SignText.char {s : List Char} {negative : Bool} (h : SignText s negative) :
    ∀ c ∈ s, IsNumberChar c := by
  intro c hc
  cases h with
  | none => cases hc
  | plus | minus =>
    rw [List.mem_singleton.1 hc]
    exact .inr (by decide)

theorem MantissaText.char {s : List Char} {whole fraction : List Nat}
    (h : MantissaText s whole fraction) : ∀ c ∈ s, IsNumberChar c := by
  cases h with
  | whole hds => exact hds.char
  | point hds hes =>
    rw [List.forall_mem_append, List.forall_mem_cons]
    exact ⟨hds.char, .inr (by decide), hes.char⟩

theorem ExponentText.char {s : List Char} {e : Int} (h : ExponentText s e) :
    ∀ c ∈ s, IsNumberChar c := by
  cases h with
  | none => simp
  | some hc hsign hds =>
    rw [List.forall_mem_cons, List.forall_mem_append]
    refine ⟨.inr ?_, hsign.char, hds.char⟩
    rcases hc with rfl | rfl <;> decide

theorem NumberText.char {s : List Char} {n : Numeral} (h : NumberText s n) :
    ∀ c ∈ s, IsNumberChar c := by
  obtain ⟨hsign, hm, he⟩ := h
  rw [List.forall_mem_append, List.forall_mem_append]
  exact ⟨hsign.char, hm.char, he.char⟩

theorem NumberText.ne_nil {s : List Char} {n : Numeral} (h : NumberText s n) : s ≠ [] := by
  obtain ⟨-, hm, -⟩ := h
  cases hm with
  | whole hds hne =>
    intro h
    simp only [List.append_eq_nil_iff] at h
    rw [h.2.1] at hds
    exact hne (by simpa [DigitText] using hds.symm)
  | point => simp

namespace Numeral

theorem takeSign_append {sign r : List Char} {negative : Bool} (h : SignText sign negative)
    (hr : ∀ c ∈ r.head?, c ≠ '+' ∧ c ≠ '-') : takeSign (sign ++ r) = (negative, r) := by
  cases h with
  | plus => rfl
  | minus => rfl
  | none =>
    show takeSign r = _
    unfold takeSign
    split
    · simp at hr
    · simp at hr
    · rfl

theorem takeSign_eq {s r : List Char} {negative : Bool} (h : takeSign s = (negative, r)) :
    ∃ sign, s = sign ++ r ∧ SignText sign negative := by
  unfold takeSign at h
  split at h
  · cases h
    exact ⟨['-'], rfl, .minus⟩
  · cases h
    exact ⟨['+'], rfl, .plus⟩
  · cases h
    exact ⟨[], rfl, .none⟩

theorem exponent?_eq_some_iff {s : List Char} {e : Int} :
    exponent? s = some e ↔ ExponentText s e := by
  constructor
  · intro h
    unfold exponent? at h
    split at h
    · cases h
      exact .none
    · next c r =>
      split at h
      · next hc =>
        rcases ht : takeSign r with ⟨negative, rest⟩
        obtain ⟨sign, rfl, hsign⟩ := takeSign_eq ht
        rw [ht] at h
        dsimp only at h
        split at h
        · cases h
        · next ds hne hds =>
          obtain ⟨p, rfl, hdp, -⟩ := takeDigits_eq hds
          cases h
          rw [List.append_nil]
          exact .some hc hsign hdp hne
        · cases h
      · cases h
  · intro h
    cases h with
    | none => rfl
    | @some c sign s negative ds hc hsign hds hne =>
      have digits : takeDigits s = (ds, []) := by
        have := takeDigits_append hds noDigit_nil
        rwa [List.append_nil] at this
      have head := digits_head hds hne []
      rw [List.append_nil] at head
      unfold exponent?
      dsimp only
      rw [if_pos hc, takeSign_append hsign head]
      dsimp only
      rw [digits]
      cases ds with
      | nil => exact absurd rfl hne
      | cons d ds => rfl

theorem mantissa?_eq_some {s r : List Char} {whole fraction : List Nat}
    (h : mantissa? s = some (whole, fraction, r)) :
    ∃ m, s = m ++ r ∧ MantissaText m whole fraction := by
  unfold mantissa? at h
  split at h
  · next ws r' hw =>
    obtain ⟨p, hp, hdp, -⟩ := takeDigits_eq hw
    split at h
    next fs r'' hf =>
    obtain ⟨q, hq, hdq, -⟩ := takeDigits_eq hf
    split at h
    · cases h
    · next hne =>
      cases h
      refine ⟨p ++ '.' :: q, by rw [hp, hq]; simp, .point hdp hdq ?_⟩
      simpa [List.isEmpty_iff, Decidable.imp_iff_not_or] using hne
  · cases h
  · next ws r' _ hne hw =>
    cases h
    obtain ⟨p, hp, hdp, -⟩ := takeDigits_eq hw
    exact ⟨p, hp, .whole hdp hne⟩

theorem mantissa?_append {m r : List Char} {whole fraction : List Nat} {e : Int}
    (h : MantissaText m whole fraction) (hr : ExponentText r e) :
    mantissa? (m ++ r) = some (whole, fraction, r) := by
  have stop : NoDigit r ∧ ∀ r', r ≠ '.' :: r' := by
    cases hr with
    | none => exact ⟨noDigit_nil, by simp⟩
    | some hc =>
      rcases hc with rfl | rfl
      · exact ⟨noDigit_cons (by decide) _, by simp⟩
      · exact ⟨noDigit_cons (by decide) _, by simp⟩
  unfold mantissa?
  cases h with
  | whole hds hne =>
    rw [takeDigits_append hds stop.1]
    split
    · next heq => exact absurd (Prod.mk.inj heq).2 (stop.2 _)
    · next heq => exact absurd (Prod.mk.inj heq).1 hne
    · next heq =>
      cases heq
      rfl
  | @point s t _ _ hds hes hne =>
    rw [List.append_assoc, List.cons_append,
      takeDigits_append hds (noDigit_cons (by decide) _)]
    have : ¬ (whole.isEmpty && fraction.isEmpty) := by
      simpa [List.isEmpty_iff, Decidable.imp_iff_not_or] using hne
    simp only [takeDigits_append hes stop.1, if_neg this]

/-- A mantissa does not start with a sign. -/
theorem mantissa_head {m : List Char} {whole fraction : List Nat}
    (h : MantissaText m whole fraction)
    (r : List Char) : ∀ c ∈ (m ++ r).head?, c ≠ '+' ∧ c ≠ '-' := by
  cases h with
  | whole hds hne => exact digits_head hds hne r
  | @point s t _ _ hds hes hne =>
    rw [List.append_assoc]
    by_cases hd : whole = []
    · subst hd
      have : s = [] := by simpa [DigitText] using hds
      subst this
      simp
    · exact digits_head hds hd _

/-- **Number texts.** The reader accepts just the texts of the pattern. -/
theorem parse?_eq_some_iff {s : List Char} {n : Numeral} :
    Numeral.parse? s = some n ↔ NumberText s n := by
  constructor
  · intro h
    unfold Numeral.parse? at h
    rcases ht : takeSign s with ⟨negative, rest⟩
    obtain ⟨sign, rfl, hsign⟩ := takeSign_eq ht
    rw [ht] at h
    dsimp only at h
    split at h
    · cases h
    · next whole fraction r hm =>
      obtain ⟨m, rfl, hmt⟩ := mantissa?_eq_some hm
      obtain ⟨e, he, rfl⟩ := Option.map_eq_some_iff.1 h
      exact .mk hsign hmt (exponent?_eq_some_iff.1 he)
  · rintro ⟨hsign, hm, he⟩
    unfold Numeral.parse?
    rw [takeSign_append hsign (mantissa_head hm _)]
    dsimp only
    rw [mantissa?_append hm he]
    dsimp only
    rw [exponent?_eq_some_iff.2 he]
    rfl

end Numeral

/-! ## Integers -/

/-- The text of an integer: an optional sign and at least one digit. -/
inductive IntegerText : List Char → Int → Prop
  | mk {sign s : List Char} {negative : Bool} {ds : List Nat} :
    SignText sign negative → DigitText s ds → ds ≠ [] →
    IntegerText (sign ++ s) (if negative then -(ofDigits ds : Int) else ofDigits ds)

theorem readDigits?_eq_some_iff {s : List Char} {n : Nat} :
    Text.readDigits? s = some n ↔ ∃ ds, DigitText s ds ∧ ds ≠ [] ∧ ofDigits ds = n := by
  unfold Text.readDigits?
  constructor
  · intro h
    split at h
    · cases h
    · next ds hne hds =>
      cases h
      obtain ⟨p, rfl, hdp, -⟩ := takeDigits_eq hds
      rw [List.append_nil]
      exact ⟨ds, hdp, hne, rfl⟩
    · cases h
  · rintro ⟨ds, hds, hne, rfl⟩
    have digits := takeDigits_append hds noDigit_nil
    rw [List.append_nil] at digits
    rw [digits]
    cases ds with
    | nil => exact absurd rfl hne
    | cons d ds => rfl

/-- **Integer texts.** The reader of integers accepts just the texts of the pattern. -/
theorem readInteger?_eq_some_iff {s : List Char} {i : Int} :
    Text.readInteger? s = some i ↔ IntegerText s i := by
  unfold Text.readInteger?
  constructor
  · intro h
    split at h
    · obtain ⟨n, hn, rfl⟩ := Option.map_eq_some_iff.1 h
      obtain ⟨ds, hds, hne, rfl⟩ := readDigits?_eq_some_iff.1 hn
      exact .mk .minus hds hne
    · obtain ⟨n, hn, rfl⟩ := Option.map_eq_some_iff.1 h
      obtain ⟨ds, hds, hne, rfl⟩ := readDigits?_eq_some_iff.1 hn
      exact .mk .plus hds hne
    · obtain ⟨n, hn, rfl⟩ := Option.map_eq_some_iff.1 h
      obtain ⟨ds, hds, hne, rfl⟩ := readDigits?_eq_some_iff.1 hn
      exact .mk .none hds hne
  · rintro ⟨hsign, hds, hne⟩
    have read := readDigits?_eq_some_iff.2 ⟨_, hds, hne, rfl⟩
    cases hsign with
    | minus => exact Option.map_eq_some_iff.2 ⟨_, read, rfl⟩
    | plus => exact Option.map_eq_some_iff.2 ⟨_, read, rfl⟩
    | none =>
      have head := digits_head hds hne []
      rw [List.append_nil] at head
      rw [List.nil_append]
      split
      · simp at head
      · simp at head
      · exact Option.map_eq_some_iff.2 ⟨_, read, rfl⟩

end TypedTables.Decimal
