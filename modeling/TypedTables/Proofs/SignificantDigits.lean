import Mathlib.Data.List.Induction
import TypedTables.Proofs.ForeignDigits
/-!
# Significant digits by position

Which digits of a number are significant, said of the whole number at once: those from the first
digit that is not zero, to the last digit if there is a point, and else to the last one that is not
zero. Counting reads the number once, from the left, and holds zeros back until it is known whether
they count.

Results:
* `foldl_digit_whole`, `foldl_digit_fraction`: what has been counted after the digits before a point
  and after those behind it.
* `precision_of_written`: the count of a written number is that by position.
* `precision_by_position`: the same with what follows from it, and when there is no count.
-/
namespace TypedTables.Decimal

/-! ## Positions -/

/-- The digits before the point and behind it, in ASCII. -/
inductive Mantissa : List Char → Prop
  | whole {ds : List Char} : (∀ c ∈ ds, c.isDigit) → ds ≠ [] → Mantissa ds
  | point {ws fs : List Char} : (∀ c ∈ ws, c.isDigit) → (∀ c ∈ fs, c.isDigit) → ws ++ fs ≠ [] →
    Mantissa (ws ++ '.' :: fs)

/-- The number of significant digits of a mantissa. -/
def significantDigits (m : List Char) : Nat :=
  let digits := m.filter Char.isDigit
  if digits.all (· == '0') then 0
  else if '.' ∈ m then (digits.dropWhile (· == '0')).length
  else (Text.dropAroundWhile (· == '0') digits).length

/-- A text of a number with this mantissa: a sign before it, an exponent behind it, and anything
after a space. -/
inductive Written (m : List Char) : List Char → Prop
  | mk {sign exponent rest : List Char} {negative : Bool} {e : Int} :
    SignText sign negative → ExponentText exponent e → (∀ c ∈ rest.head?, c = ' ') →
    Written m (sign ++ (m ++ (exponent ++ rest)))

/-! ## Counting -/

/-- Digits are counted one after the other. -/
theorem countDigits_append {ds : List Char} (h : ∀ c ∈ ds, c.isDigit) (n : DigitCount)
    (r : List Char) : countDigits n (ds ++ r) = countDigits (ds.foldl DigitCount.digit n) r := by
  induction ds generalizing n with
  | nil => rfl
  | cons c ds ih =>
    rw [List.forall_mem_cons] at h
    rw [List.cons_append, countDigits, if_pos h.1, ih h.2]
    rfl

/-- What the last digit adds to the digits from the first one that is not zero. -/
theorem dropWhile_zeros_concat (ds : List Char) (c : Char) :
    (ds ++ [c]).dropWhile (· == '0') =
      if ds.dropWhile (· == '0') = [] ∧ c = '0' then [] else ds.dropWhile (· == '0') ++ [c] := by
  rw [List.dropWhile_append]
  by_cases hd : ds.dropWhile (· == '0') = []
  · by_cases hc : c = '0' <;> simp [hd, hc]
  · simp [hd]

theorem length_dropEndWhile_add (p : Char → Bool) (s : List Char) :
    (Text.dropEndWhile p s).length + (s.reverse.takeWhile p).length = s.length := by
  rw [Text.dropEndWhile, List.length_reverse, Nat.add_comm, ← List.length_append,
    List.takeWhile_append_dropWhile, List.length_reverse]

/-- Before the point: all digits from the first that is not zero are counted or held, and those held
are the zeros at the end. -/
theorem foldl_digit_whole (ds : List Char) :
    let counted := ds.dropWhile (· == '0')
    ds.foldl DigitCount.digit {} =
      { total := (Text.dropEndWhile (· == '0') counted).length
        held := (counted.reverse.takeWhile (· == '0')).length
        started := !counted.isEmpty } := by
  induction ds using List.reverseRecOn with
  | nil => rfl
  | append_singleton ds c ih =>
    dsimp only at ih ⊢
    rw [List.foldl_append, ih, dropWhile_zeros_concat]
    generalize ds.dropWhile (· == '0') = w
    have split := length_dropEndWhile_add (· == '0') w
    by_cases hc : c = '0'
    · by_cases hw : w = []
      · simp [DigitCount.digit, hc, hw, Text.dropEndWhile]
      · simp [DigitCount.digit, hc, hw, Text.dropEndWhile]
    · simp only [Text.dropEndWhile, List.length_reverse] at split
      simp [DigitCount.digit, hc, Text.dropEndWhile]
      omega

/-- Behind the point: every digit counts, from the first that is not zero in the whole number. -/
theorem foldl_digit_fraction (ds : List Char) (total : Nat) (started : Bool) :
    (ds.foldl DigitCount.digit ⟨total, 0, started, true⟩).total =
      total + (if started then ds else ds.dropWhile (· == '0')).length := by
  induction ds generalizing total started with
  | nil => cases started <;> rfl
  | cons c ds ih =>
    rw [List.foldl_cons]
    cases started with
    | true =>
      have step : DigitCount.digit ⟨total, 0, true, true⟩ c = ⟨total + 1, 0, true, true⟩ := by
        simp [DigitCount.digit]
      rw [step, ih, if_pos rfl, if_pos rfl, List.length_cons]
      omega
    | false =>
      by_cases hc : c = '0'
      · have step : DigitCount.digit ⟨total, 0, false, true⟩ c = ⟨total, 0, false, true⟩ := by
          simp [DigitCount.digit, hc]
        rw [step, ih, hc]
        rfl
      · have step : DigitCount.digit ⟨total, 0, false, true⟩ c = ⟨total + 1, 0, true, true⟩ := by
          simp [DigitCount.digit, hc]
        rw [step, ih, List.dropWhile_cons_of_neg (by simpa using hc)]
        simp only [reduceIte, Bool.false_eq_true, List.length_cons]
        omega

/-- A number is counted up to its exponent. -/
theorem countDigits_exponent {exponent : List Char} {e : Int} (h : ExponentText exponent e)
    (n : DigitCount) : countDigits n exponent = some n.total := by
  cases h with
  | none => rfl
  | some hc =>
    rcases hc with rfl | rfl <;> rfl

theorem dropWhile_of_zeros {ds : List Char} (h : ds.all (· == '0')) :
    ds.dropWhile (· == '0') = [] :=
  List.dropWhile_eq_nil_iff.2 (List.all_eq_true.1 h)

/-- Digits at either side of a point. -/
theorem countDigits_point {ws fs exponent : List Char} {e : Int} (hws : ∀ c ∈ ws, c.isDigit)
    (hfs : ∀ c ∈ fs, c.isDigit) (he : ExponentText exponent e) :
    countDigits {} (ws ++ '.' :: (fs ++ exponent)) =
      some ((ws ++ fs).dropWhile (· == '0')).length := by
  rw [countDigits_append hws, countDigits, if_neg (by decide), if_pos rfl, countDigits_append hfs,
    countDigits_exponent he, foldl_digit_whole, DigitCount.point]
  dsimp only
  rw [foldl_digit_fraction, List.dropWhile_append]
  generalize ws.dropWhile (· == '0') = w
  rw [length_dropEndWhile_add]
  cases w with
  | nil => simp
  | cons c w => simp [Nat.add_right_comm]

/-- The count of a mantissa is that by position. -/
theorem countDigits_mantissa {m exponent : List Char} {e : Int} (hm : Mantissa m)
    (he : ExponentText exponent e) :
    countDigits {} (m ++ exponent) = some (significantDigits m) := by
  have all : ∀ {ds : List Char}, (∀ c ∈ ds, c.isDigit) → ds.filter Char.isDigit = ds := fun h =>
    List.filter_eq_self.2 h
  unfold significantDigits
  dsimp only
  cases hm with
  | whole hds ne =>
    have noPoint : '.' ∉ m := fun h => absurd (hds _ h) (by decide)
    rw [countDigits_append hds, countDigits_exponent he, foldl_digit_whole, all hds,
      if_neg noPoint]
    split
    · next zeros => rw [dropWhile_of_zeros zeros]; rfl
    · rfl
  | @point ws fs hws hfs ne =>
    have digits : (ws ++ '.' :: fs).filter Char.isDigit = ws ++ fs := by
      rw [List.filter_append, List.filter_cons_of_neg (by decide), all hws, all hfs]
    rw [List.append_assoc, List.cons_append, countDigits_point hws hfs he, digits,
      if_pos (show '.' ∈ ws ++ '.' :: fs by simp)]
    split
    · next zeros => rw [dropWhile_of_zeros zeros]; rfl
    · rfl

/-! ## Texts -/

theorem Mantissa.ne_nil {m : List Char} (h : Mantissa m) : m ≠ [] := by
  cases h with
  | whole _ ne => exact ne
  | point => simp

theorem Mantissa.char {m : List Char} (h : Mantissa m) : ∀ c ∈ m, IsNumberChar c := by
  have digit : ∀ {ds : List Char}, (∀ c ∈ ds, c.isDigit) → ∀ c ∈ ds, IsNumberChar c := fun h c hc =>
    .inl (Option.isSome_iff_exists.1 (Text.isDigit_of_isDigit (h c hc)))
  cases h with
  | whole hds => exact digit hds
  | point hws hfs =>
    rw [List.forall_mem_append, List.forall_mem_cons]
    exact ⟨digit hws, .inr (by decide), digit hfs⟩

theorem Mantissa.zeros {m zeros : List Char} (h : Mantissa m) (hz : ∀ c ∈ zeros, c = '0') :
    Mantissa (zeros ++ m) := by
  have digits : ∀ c ∈ zeros, c.isDigit := fun c hc => by rw [hz c hc]; rfl
  cases h with
  | whole hds ne => exact .whole (List.forall_mem_append.2 ⟨digits, hds⟩) (by simp [ne])
  | point hws hfs ne =>
    rw [← List.append_assoc]
    refine .point (List.forall_mem_append.2 ⟨digits, hws⟩) hfs ?_
    rw [List.append_assoc]
    exact fun h => ne (List.append_eq_nil_iff.1 h).2

/-- Signs are not counted. -/
theorem countDigits_sign {sign : List Char} {negative : Bool} (h : SignText sign negative)
    (n : DigitCount) (s : List Char) : countDigits n (sign ++ s) = countDigits n s := by
  cases h <;> rfl

/-- **Significant digits.** The precision of a written number is the number of digits that are
significant by their position. -/
theorem precision_of_written {m : List Char} {s : String} (hm : Mantissa m)
    (h : Written m s.toList) : precision s = .ok (significantDigits m) := by
  generalize hs : s.toList = t at h
  obtain ⟨hsign, he, space⟩ := h
  rw [← List.append_assoc m, ← List.append_assoc] at hs
  have number : ∀ c ∈ _ ++ (m ++ _), IsNumberChar c :=
    List.forall_mem_append.2 ⟨hsign.char, List.forall_mem_append.2 ⟨hm.char, he.char⟩⟩
  rw [precision_of_number hs (by simp [hm.ne_nil]) number space, countDigits_sign hsign,
    countDigits_mantissa hm he]
  rfl

/-- Zeros in front of a mantissa are not significant. -/
theorem significantDigits_zeros {zeros : List Char} (h : ∀ c ∈ zeros, c = '0') (m : List Char) :
    significantDigits (zeros ++ m) = significantDigits m := by
  have digits : zeros.filter Char.isDigit = zeros :=
    List.filter_eq_self.2 fun c hc => by rw [h c hc]; rfl
  have zero : ∀ c ∈ zeros, (c == '0') = true := fun c hc => by simpa using h c hc
  have point : '.' ∉ zeros := fun hm => absurd (h _ hm) (by decide)
  have skipped : ∀ ds, (zeros ++ ds).dropWhile (· == '0') = ds.dropWhile (· == '0') := fun ds =>
    List.dropWhile_append_of_pos zero
  unfold significantDigits Text.dropAroundWhile
  dsimp only
  rw [List.filter_append, digits, List.all_append, List.all_eq_true.2 zero, Bool.true_and, skipped]
  simp only [List.mem_append, point, false_or]

theorem takeWhile_append_space (s r : List Char) :
    (s ++ ' ' :: r).takeWhile (· ≠ ' ') = s.takeWhile (· ≠ ' ') := by
  induction s with
  | nil => simp
  | cons c s ih => rw [List.cons_append, List.takeWhile_cons, List.takeWhile_cons, ih]

/-- Nothing after a space matters. -/
theorem precision_append_space (s r : String) : precision (s ++ " " ++ r) = precision s := by
  have text : (s ++ " " ++ r).toList = s.toList ++ ' ' :: r.toList := by
    simp [String.toList_append]
  unfold precision
  dsimp only
  rw [text, takeWhile_append_space]

/-- A text has no precision just if a stray character stands before its exponent and its first
space, and it is not the text of a missing or an infinite value. -/
theorem exists_precision_eq_error_iff {s : String} (sure : s.toList.head? ≠ some '~') :
    (∃ e, precision s = .error e) ↔
      (∃ c ∈ s.toList.takeWhile (fun c => c ≠ 'e' ∧ c ≠ 'E' ∧ c ≠ ' '), IsStray c) ∧
        s.toList.takeWhile (· ≠ ' ') ∉ [[], ['?'], ['-', '?']] := by
  have stray := countDigits_eq_none_iff {} (s.toList.takeWhile (· ≠ ' '))
  rw [List.takeWhile_takeWhile] at stray
  have before : (∃ c ∈ s.toList.takeWhile (fun c => c ≠ 'e' ∧ c ≠ 'E' ∧ c ≠ ' '), IsStray c) ↔
      countDigits {} (s.toList.takeWhile (· ≠ ' ')) = none := by
    rw [stray]
    simp only [decide_eq_true_eq, and_assoc]
  have sure' : (s.toList.takeWhile (· ≠ ' ')).head? ≠ some '~' := by
    cases h : s.toList with
    | nil => simp
    | cons c r =>
      rw [h] at sure
      by_cases hc : c = ' ' <;> simp_all
  rw [before]
  unfold precision
  dsimp only
  generalize s.toList.takeWhile (· ≠ ' ') = part at sure' ⊢
  by_cases known : part ∈ [[], ['?'], ['-', '?']]
  · rw [if_pos (by simpa using known)]
    simp [known]
  · rw [if_neg (by simpa using known), if_neg sure']
    cases countDigits {} part with
    | none => simpa using known
    | some n => simp

/-- **Precision by position.** The precision of a number is that of its mantissa by position,
whatever its sign and exponent are, how many zeros stand in front and what follows after a space.
There is none just if something else than digits, points and signs stands before the exponent. -/
theorem precision_by_position :
    (∀ (m : List Char) (s : String), Mantissa m → Written m s.toList →
      precision s = .ok (significantDigits m)) ∧
    (∀ (m zeros : List Char) (s s' : String), Mantissa m → (∀ c ∈ zeros, c = '0') →
      Written m s.toList → Written (zeros ++ m) s'.toList → precision s' = precision s) ∧
    (∀ s r : String, precision (s ++ " " ++ r) = precision s) ∧
    ∀ s : String, s.toList.head? ≠ some '~' → ((∃ e, precision s = .error e) ↔
      (∃ c ∈ s.toList.takeWhile (fun c => c ≠ 'e' ∧ c ≠ 'E' ∧ c ≠ ' '), IsStray c) ∧
        s.toList.takeWhile (· ≠ ' ') ∉ [[], ['?'], ['-', '?']]) := by
  refine ⟨fun m s hm h => precision_of_written hm h, ?_, precision_append_space,
    fun s sure => exists_precision_eq_error_iff sure⟩
  intro m zeros s s' hm hz h h'
  rw [precision_of_written hm h, precision_of_written (hm.zeros hz) h', significantDigits_zeros hz]

/-- A height with a sign, zeros in front, an exponent and a unit, and one that cannot be read. -/
theorem height_precision :
    Mantissa ['1', '2', '.', '5', '0'] ∧
    Written ['1', '2', '.', '5', '0'] "12.50".toList ∧
    Written ['0', '0', '1', '2', '.', '5', '0'] "-0012.50e+3 km".toList ∧
    precision "12.50" = .ok 4 ∧
    precision "-0012.50e+3 km" = precision "12.50" ∧
    precision ("12.50" ++ " " ++ "km") = precision "12.50" ∧
    ∃ e, precision "12m e5" = .error e := by
  obtain ⟨position, zeros, space, stray⟩ := precision_by_position
  have mantissa : Mantissa (['1', '2'] ++ '.' :: ['5', '0']) :=
    .point (List.all_eq_true.1 (by decide)) (List.all_eq_true.1 (by decide)) (by decide)
  have plain : Written ['1', '2', '.', '5', '0'] ([] ++ (['1', '2', '.', '5', '0'] ++ ([] ++ []))) :=
    .mk .none .none (by simp)
  have three : DigitText ['3'] [3] := by
    unfold DigitText
    decide
  have exponent := ExponentText.some (.inl rfl) .plus three (by decide)
  have signed : Written ['0', '0', '1', '2', '.', '5', '0']
      (['-'] ++ (['0', '0', '1', '2', '.', '5', '0'] ++ (_ ++ [' ', 'k', 'm']))) :=
    .mk .minus exponent (by simp)
  have count : significantDigits ['1', '2', '.', '5', '0'] = 4 := by decide
  refine ⟨mantissa, plain, signed, ?_, ?_, space _ _, ?_⟩
  · rw [position ['1', '2', '.', '5', '0'] "12.50" mantissa plain, count]
    rfl
  · exact zeros _ ['0', '0'] _ _ mantissa (by simp) plain signed
  · exact (stray _ (by decide)).2 ⟨⟨'m', by decide, by decide⟩, by decide⟩

end TypedTables.Decimal
