import Mathlib.Data.List.TakeWhile
import TypedTables.Decimal.Precision
import TypedTables.Proofs.KeptCells
import TypedTables.Proofs.NumberText
/-!
# Digits of other scripts

A number may be written with the decimal digits of any script, but only ASCII digits are counted as
significant. So there are texts that are read as numbers, and kept in FLOAT cells, of which no
significant digits can be given.

Results:
* `countDigits_eq_none_iff`: a stray character before the exponent stops the count without an
  answer, and nothing else does.
* `precision_of_number`: the text of a number is counted as it stands.
* `precision_eq_error_iff`: the kept texts whose digits cannot be counted.
-/
namespace TypedTables.Decimal

/-- The number is not marked as unsure, and before its exponent stands a digit that is not ASCII. -/
def Uncountable (s : List Char) : Prop :=
  s.head? ≠ some '~' ∧ ∃ c ∈ s.takeWhile (· ≠ 'e'), Text.isDigit c ∧ ¬ c.isDigit

instance (s : List Char) : Decidable (Uncountable s) :=
  decidable_of_iff (s.head? ≠ some '~' ∧
    (s.takeWhile (· ≠ 'e')).any fun c => Text.isDigit c && !c.isDigit) (by simp [Uncountable])

/-- The character is no part of a number before its exponent. -/
def IsStray (c : Char) : Prop := ¬ c.isDigit ∧ c ≠ '.' ∧ c ≠ '-' ∧ c ≠ '+'

instance (c : Char) : Decidable (IsStray c) := by unfold IsStray; infer_instance

/-- What stops a count without an answer. -/
theorem countDigits_eq_none_iff (n : DigitCount) (s : List Char) :
    countDigits n s = none ↔ ∃ c ∈ s.takeWhile (fun c => c ≠ 'e' ∧ c ≠ 'E'), IsStray c := by
  induction s generalizing n with
  | nil => simp [countDigits]
  | cons c s ih =>
    unfold countDigits
    by_cases he : c = 'e' ∨ c = 'E'
    · have digit : ¬ c.isDigit ∧ c ≠ '.' := by rcases he with rfl | rfl <;> decide
      rw [if_neg digit.1, if_neg digit.2, if_pos he, List.takeWhile_cons_of_neg (by grind)]
      simp
    · rw [List.takeWhile_cons_of_pos (by grind), List.exists_mem_cons_iff]
      split
      · next digit => simp [ih, IsStray, digit]
      · split
        · next point => simp [ih, IsStray, point]
        · split
          · next sign => rcases sign with rfl | rfl <;> simp [ih, IsStray]
          · next digit point sign =>
            simp only [true_iff]
            exact .inl ⟨digit, point, not_or.1 sign⟩

theorem IsNumberChar.isStray_iff {c : Char} (h : IsNumberChar c) (he : c ≠ 'e') (hE : c ≠ 'E') :
    IsStray c ↔ Text.isDigit c ∧ ¬ c.isDigit := by
  obtain ⟨d, hd⟩ | rfl | rfl | rfl | rfl | rfl := h
  · have digit : Text.isDigit c := by rw [Text.isDigit, hd]; rfl
    obtain ⟨plus, minus, point, -, -⟩ := ne_of_digit hd
    simp [IsStray, plus, minus, point, digit]
  · decide
  · decide
  · decide
  · exact absurd rfl he
  · exact absurd rfl hE

/-- Of the characters of numbers, counting refuses the digits that are not ASCII. -/
theorem countDigits_number_eq_none_iff {s : List Char} (number : ∀ c ∈ s, IsNumberChar c)
    (small : 'E' ∉ s) (n : DigitCount) :
    countDigits n s = none ↔ ∃ c ∈ s.takeWhile (· ≠ 'e'), Text.isDigit c ∧ ¬ c.isDigit := by
  have marker : s.takeWhile (fun c => c ≠ 'e' ∧ c ≠ 'E') = s.takeWhile (· ≠ 'e') := by
    have all : s.takeWhile (· ≠ 'E') = s :=
      List.takeWhile_eq_self_iff.2 fun c hc => by simpa using fun e : c = 'E' => small (e ▸ hc)
    have both := List.takeWhile_takeWhile (· ≠ 'e') (· ≠ 'E') s
    rw [all] at both
    simpa using both.symm
  rw [countDigits_eq_none_iff, marker]
  refine exists_congr fun c => and_congr_right fun hc => ?_
  have mem : c ∈ s := (List.takeWhile_prefix _).subset hc
  have he : c ≠ 'e' := by simpa using List.mem_takeWhile_imp hc
  exact (number c mem).isStray_iff he fun e => small (e ▸ mem)

/-- Blanks and the marks of uncertain and infinite values are no part of a number. -/
theorem not_isNumberChar : ¬ IsNumberChar ' ' ∧ ¬ IsNumberChar '?' ∧ ¬ IsNumberChar '~' := by
  simp [IsNumberChar, show Text.digitValue? ' ' = none by decide,
    show Text.digitValue? '?' = none by decide, show Text.digitValue? '~' = none by decide]

/-- The characters of a kept text, behind the mark of an uncertain value. -/
theorem Kept.cases_number {s : List Char} (h : Kept s) :
    s = ['?'] ∨ s = ['-', '?'] ∨ (∃ r, s = '~' :: r ∧ ' ' ∉ r) ∨
      s ≠ [] ∧ (∀ c ∈ s, IsNumberChar c) ∧ 'E' ∉ s := by
  have number : ∀ {s : List Char}, isNumeral s → s ≠ [] ∧ ∀ c ∈ s, IsNumberChar c := by
    intro s hs
    obtain ⟨n, hn⟩ := Option.isSome_iff_exists.1 hs
    have text := Numeral.parse?_eq_some_iff.1 hn
    exact ⟨text.ne_nil, text.char⟩
  cases h with
  | infinity => exact .inl rfl
  | minusInfinity => exact .inr (.inl rfl)
  | unsure hs => exact .inr (.inr (.inl ⟨_, rfl, fun hm => not_isNumberChar.1 ((number hs).2 _ hm)⟩))
  | sure hs _ small => exact .inr (.inr (.inr ⟨(number hs).1, (number hs).2, small⟩))

/-- The text of a number is counted as it stands, up to a space. -/
theorem precision_of_number {t : String} {s rest : List Char} (ht : t.toList = s ++ rest)
    (ne : s ≠ []) (number : ∀ c ∈ s, IsNumberChar c) (space : ∀ c ∈ rest.head?, c = ' ') :
    precision t = (countDigits {} s).elim (.error ⟨String.ofList s⟩) fun n => .ok n := by
  obtain ⟨blank, infinite, unsure⟩ := not_isNumberChar
  have part : (s ++ rest).takeWhile (· ≠ ' ') = s := by
    have nothing : rest.takeWhile (· ≠ ' ') = [] := by
      cases rest with
      | nil => rfl
      | cons c rest => simp [space c rfl]
    rw [List.takeWhile_append_of_pos, nothing, List.append_nil]
    exact fun c hc => by simpa using fun e : c = ' ' => blank (e ▸ number c hc)
  have other : ∀ {c : Char}, ¬ IsNumberChar c → c ∉ s := fun hc hm => hc (number _ hm)
  have finite : ¬ (s = [] ∨ s = ['?'] ∨ s = ['-', '?']) := by
    rintro (h | h | h)
    · exact ne h
    · exact other infinite (by simp [h])
    · exact other infinite (by simp [h])
  have sure : s.head? ≠ some '~' := fun h => other unsure (List.mem_of_mem_head? h)
  unfold precision
  dsimp only
  rw [ht, part, if_neg finite, if_neg sure]
  cases countDigits {} s <;> rfl

/-- **Digits that cannot be counted.** A kept text has no precision just if it is uncountable, and
then all of it is blamed. -/
theorem precision_eq_error_iff {t : String} (kept : Kept t.toList) {e : MalformedDigits} :
    precision t = .error e ↔ e.text = t ∧ Uncountable t.toList := by
  rcases kept.cases_number with ht | ht | ⟨r, ht, blank⟩ | ⟨ne, number, small⟩
  · simp [precision, ht, Uncountable, show Text.isDigit '?' = false by decide]
  · simp [precision, ht, Uncountable, show Text.isDigit '?' = false by decide,
      show Text.isDigit '-' = false by decide]
  · have whole : t.toList.takeWhile (· ≠ ' ') = t.toList := by
      refine List.takeWhile_eq_self_iff.2 fun c hc => ?_
      have other : c ≠ ' ' := fun e => absurd (e ▸ hc) (by simp [ht, blank])
      simpa using other
    unfold precision
    dsimp only
    rw [whole, ht]
    simp [Uncountable]
  · have sure : t.toList.head? ≠ some '~' := fun h =>
      not_isNumberChar.2.2 (number _ (List.mem_of_mem_head? h))
    have iff : Uncountable t.toList ↔ countDigits {} t.toList = none :=
      (and_iff_right sure).trans (countDigits_number_eq_none_iff number small {}).symm
    rw [iff, precision_of_number (List.append_nil _).symm ne number (by simp)]
    obtain ⟨text⟩ := e
    cases countDigits {} t.toList with
    | some k => simp
    | none => simp [eq_comm]

example : Uncountable "1\u0663.5".toList ∧ ¬ Uncountable "~\u0663".toList ∧
    ¬ Uncountable "1e\u0663".toList := by
  decide

end TypedTables.Decimal
