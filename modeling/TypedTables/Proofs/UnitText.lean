import Mathlib.Data.List.Chain
import Mathlib.Data.List.TakeWhile
import TypedTables.Proofs.NumberText
import TypedTables.Units.Expression
/-!
# Unit texts

What the reader of unit expressions relies on when it cuts a text. Blanks are reduced first, and
then stay reduced in every part of the text (`Tidy`). The cuts are made outside parentheses, which
a scan finds by counting; on a text whose parentheses match, such a scan comes back to where it was
(`Nested`).

Results:
* `tidy_normalize`, `normalize_eq_self`: normalizing makes a text tidy and leaves tidy ones alone.
* `reduceBlanks_append`: a text is normalized part by part.
* `Tidy.trim`: in a tidy text there is at most one blank to trim at either end.
* `enclosed?_eq_some`, `cutLast?_eq_some`, `cutCaret?_eq_some`: the parts that a cut answers.
* `Nested.append`, `Nested.group`: matching parentheses, from the parts to the whole.
* `Operand.join`, `Operand.group`: the same for texts that can be derived.
-/
namespace TypedTables.Units

open TypedTables.Text (isBlank trim digitValue?)
open TypedTables.Decimal

/-! ## Characters -/

/-- The character has no meaning of its own in an expression. -/
def isPlain (c : Char) : Bool := !isBlank c && !isTight c && c != '(' && c != ')'

/-- The text can be the name of a unit. -/
structure PlainText (s : List Char) : Prop where
  ne_nil : s ≠ []
  plain : ∀ c ∈ s, isPlain c

instance (s : List Char) : Decidable (PlainText s) :=
  decidable_of_iff (s ≠ [] ∧ s.all isPlain)
    ⟨fun h => ⟨h.1, List.all_eq_true.1 h.2⟩, fun h => ⟨h.1, List.all_eq_true.2 h.2⟩⟩

theorem isPlain_iff {c : Char} :
    isPlain c ↔ ¬ isBlank c ∧ ¬ isTight c ∧ c ≠ '(' ∧ c ≠ ')' := by
  simp [isPlain, and_assoc]

theorem not_isBlank_of_isTight {c : Char} (h : isTight c) : ¬ isBlank c := by
  simp only [isTight, Bool.or_eq_true, beq_iff_eq] at h
  rcases h with rfl | rfl <;> decide

theorem isPlain_of_isNumberChar {c : Char} (h : IsNumberChar c) : isPlain c := by
  rcases h with ⟨d, hd⟩ | rfl | rfl | rfl | rfl | rfl
  · have other : ∀ x : Char, digitValue? x = none → c ≠ x := fun _ => ne_of_noDigit hd
    rw [isPlain_iff]
    refine ⟨not_isBlank_of_digit hd, ?_, other _ (by decide), other _ (by decide)⟩
    simp only [isTight, Bool.or_eq_true, beq_iff_eq, not_or]
    exact ⟨other _ (by decide), other _ (by decide)⟩
  all_goals decide

theorem plainText_number {s : List Char} {n : Numeral} (h : NumberText s n) : PlainText s :=
  ⟨h.ne_nil, fun c hc => isPlain_of_isNumberChar (h.char c hc)⟩

/-! ## Blanks -/

/-- Two characters that may be neighbours: a blank is beside no blank and no `/` or `^`. -/
def Apart (a b : Char) : Prop := (isBlank a → ¬ isBlank b ∧ ¬ isTight b) ∧ (isTight a → ¬ isBlank b)

/-- The blanks of the text are single spaces, none of them beside `/` or `^`. -/
structure Tidy (s : List Char) : Prop where
  spaces : ∀ c ∈ s, isBlank c → c = ' '
  apart : s.IsChain Apart

/-- The text neither starts nor ends with a blank. -/
structure Trimmed (s : List Char) : Prop where
  head : ∀ c ∈ s.head?, ¬ isBlank c
  last : ∀ c ∈ s.getLast?, ¬ isBlank c

theorem Tidy.infix {s t : List Char} (h : Tidy s) (ht : t <:+: s) : Tidy t :=
  ⟨fun c hc => h.spaces c (ht.subset hc), h.apart.infix ht⟩

/-- What the reduced rest of a text can start with. -/
def Before.Admits (before : Before) (s : List Char) : Prop :=
  match before with
  | .operator => ∀ c ∈ s.head?, ¬ isBlank c
  | .operand => True
  | .blank => s ≠ [] ∧ ∀ c ∈ s.head?, ¬ isBlank c ∧ ¬ isTight c

theorem tidy_reduceBlanks (before : Before) (s : List Char) : Tidy (reduceBlanks before s) ∧
    (before = .operator → ∀ c ∈ (reduceBlanks before s).head?, ¬ isBlank c) := by
  induction s generalizing before with
  | nil => exact ⟨⟨by simp [reduceBlanks], by simp [reduceBlanks]⟩, by simp [reduceBlanks]⟩
  | cons c s ih =>
    unfold reduceBlanks
    split
    · next ht =>
      have nb := not_isBlank_of_isTight ht
      obtain ⟨⟨spaces, apart⟩, head⟩ := ih .operator
      refine ⟨⟨?_, List.isChain_cons.2 ⟨fun b hb => ?_, apart⟩⟩, fun _ => by simpa using nb⟩
      · exact List.forall_mem_cons.2 ⟨fun h => absurd h nb, spaces⟩
      · exact ⟨fun h => absurd h nb, fun _ => head rfl b hb⟩
    · next ht =>
      split
      · obtain ⟨tidy, head⟩ := ih before.thenBlank
        exact ⟨tidy, fun hb => head (by rw [hb]; rfl)⟩
      · next hb =>
        obtain ⟨⟨spaces, apart⟩, -⟩ := ih .operand
        have tail : Tidy (c :: reduceBlanks .operand s) :=
          ⟨List.forall_mem_cons.2 ⟨fun h => absurd h hb, spaces⟩,
            List.isChain_cons.2 ⟨fun b _ => ⟨fun h => absurd h hb, fun h => absurd h ht⟩, apart⟩⟩
        cases before with
        | operator => exact ⟨tail, fun _ => by simpa [Before.pending] using hb⟩
        | operand => exact ⟨tail, fun h => by cases h⟩
        | blank =>
          refine ⟨⟨?_, List.isChain_cons.2 ⟨fun b hb' => ?_, tail.apart⟩⟩, fun h => by cases h⟩
          · exact List.forall_mem_cons.2 ⟨fun _ => rfl, tail.spaces⟩
          · have : c = b := Option.some.inj hb'
            subst this
            exact ⟨fun _ => ⟨hb, ht⟩, fun _ => hb⟩

theorem tidy_normalize (s : List Char) : Tidy (normalize s) := (tidy_reduceBlanks _ _).1

theorem reduceBlanks_eq {before : Before} {s : List Char} (h : Tidy s) (ha : before.Admits s)
    (last : ∀ c ∈ s.getLast?, ¬ isBlank c) : reduceBlanks before s = before.pending ++ s := by
  induction s generalizing before with
  | nil =>
    cases before with
    | blank => exact absurd rfl ha.1
    | operator | operand => rfl
  | cons c s ih =>
    obtain ⟨head, apart⟩ := List.isChain_cons.1 h.apart
    have rest : Tidy s := ⟨fun b hb => h.spaces b (List.mem_cons_of_mem _ hb), apart⟩
    have last' : ∀ b ∈ s.getLast?, ¬ isBlank b := by
      intro b hb
      refine last b ?_
      rw [List.getLast?_cons]
      rw [Option.mem_def] at hb
      simp [hb]
    unfold reduceBlanks
    split
    · next ht =>
      have admits : Before.operator.Admits s := fun b hb => (head b hb).2 ht
      rw [ih rest admits last']
      cases before with
      | blank => exact absurd ht (ha.2 c (by simp)).2
      | operator | operand => rfl
    · next ht =>
      split
      · next hb =>
        have hc := h.spaces c List.mem_cons_self hb
        have ne : s ≠ [] := by
          rintro rfl
          exact last c (by simp) hb
        cases before with
        | blank => exact absurd hb (ha.2 c (by simp)).1
        | operator => exact absurd hb (ha c (by simp))
        | operand =>
          have admits : Before.blank.Admits s := ⟨ne, fun b hb' => (head b hb').1 hb⟩
          show reduceBlanks .blank s = _
          rw [ih rest admits last', hc]
          rfl
      · have admits : Before.operand.Admits s := trivial
        rw [ih rest admits last']
        rfl

/-! ## Trimming -/

theorem trim_eq_self {s : List Char} (h : Trimmed s) : trim s = s :=
  Text.dropAroundWhile_eq_self h.head h.last

theorem trimmed_trim (s : List Char) : Trimmed (trim s) := by
  unfold trim Text.dropAroundWhile Text.dropEndWhile
  have stop : ∀ t : List Char, ∀ c ∈ (t.dropWhile isBlank).head?, ¬ isBlank c := by
    intro t c hc
    have := List.head?_dropWhile_not isBlank t
    rw [Option.mem_def] at hc
    simpa [hc] using this
  constructor
  · intro c hc
    obtain ⟨r, hr⟩ := List.dropWhile_suffix isBlank (l := (s.dropWhile isBlank).reverse)
    have hs := congrArg List.reverse hr
    rw [List.reverse_append, List.reverse_reverse] at hs
    refine stop s c ?_
    rw [← hs, List.head?_append, Option.mem_def.1 hc]
    rfl
  · intro c hc
    rw [List.getLast?_reverse] at hc
    exact stop _ c hc

theorem normalize_eq_self {s : List Char} (h : Tidy s) (ht : Trimmed s) : normalize s = s := by
  have admits : Before.operand.Admits s := trivial
  unfold normalize
  rw [trim_eq_self ht, reduceBlanks_eq h admits ht.last]
  rfl

/-! ## Blanks, part by part -/

theorem reduceBlanks_blanks (before : Before) {g : List Char} (hg : ∀ c ∈ g, isBlank c) :
    reduceBlanks before g = [] := by
  induction g generalizing before with
  | nil => rfl
  | cons c g ih =>
    rw [List.forall_mem_cons] at hg
    unfold reduceBlanks
    rw [if_neg fun ht => not_isBlank_of_isTight ht hg.1, if_pos hg.1]
    exact ih _ hg.2

theorem reduceBlanks_append_blanks (before : Before) (s : List Char) {g : List Char}
    (hg : ∀ c ∈ g, isBlank c) : reduceBlanks before (s ++ g) = reduceBlanks before s := by
  induction s generalizing before with
  | nil => exact reduceBlanks_blanks before hg
  | cons c s ih =>
    rw [List.cons_append]
    unfold reduceBlanks
    rw [ih, ih, ih]

/-- What has been read of a text leaves nothing behind but a state. -/
theorem exists_reduceBlanks_append (before : Before) (s : List Char) :
    ∃ out after, ∀ r, reduceBlanks before (s ++ r) = out ++ reduceBlanks after r := by
  induction s generalizing before with
  | nil => exact ⟨[], before, fun _ => rfl⟩
  | cons c s ih =>
    by_cases ht : isTight c
    · obtain ⟨out, after, h⟩ := ih .operator
      refine ⟨c :: out, after, fun r => ?_⟩
      rw [List.cons_append, reduceBlanks, if_pos ht, h]
      rfl
    · by_cases hb : isBlank c
      · obtain ⟨out, after, h⟩ := ih before.thenBlank
        refine ⟨out, after, fun r => ?_⟩
        rw [List.cons_append, reduceBlanks, if_neg ht, if_pos hb, h]
      · obtain ⟨out, after, h⟩ := ih .operand
        refine ⟨before.pending ++ c :: out, after, fun r => ?_⟩
        rw [List.cons_append, reduceBlanks, if_neg ht, if_neg hb, h, List.append_assoc]
        rfl

theorem reduceBlanks_cons (before : Before) {c : Char} (hc : ¬ isBlank c ∧ ¬ isTight c)
    (s : List Char) :
    reduceBlanks before (c :: s) = before.pending ++ c :: reduceBlanks .operand s := by
  rw [reduceBlanks, if_neg hc.2, if_neg hc.1]

/-- A text is reduced up to a character that is no blank and no operator apart from what follows. -/
theorem reduceBlanks_append (before : Before) {s : List Char} {c : Char}
    (hc : ¬ isBlank c ∧ ¬ isTight c) (r : List Char) :
    reduceBlanks before (s ++ c :: r) =
      reduceBlanks before (s ++ [c]) ++ reduceBlanks .operand r := by
  obtain ⟨out, after, h⟩ := exists_reduceBlanks_append before s
  rw [h, h, reduceBlanks_cons after hc, reduceBlanks_cons after hc]
  simp [reduceBlanks]

theorem reduceBlanks_dropWhile (s : List Char) :
    reduceBlanks .operator (s.dropWhile isBlank) = reduceBlanks .operator s := by
  induction s with
  | nil => rfl
  | cons c s ih =>
    by_cases hc : isBlank c
    · rw [List.dropWhile_cons_of_pos hc, ih, reduceBlanks.eq_2,
        if_neg fun ht => not_isBlank_of_isTight ht hc, if_pos hc]
      rfl
    · rw [List.dropWhile_cons_of_neg hc]

/-- The ends of a text need no trimming of their own. -/
theorem normalize_eq (s : List Char) : normalize s = reduceBlanks .operator s := by
  have start : ∀ {t : List Char}, (∀ c ∈ t.head?, ¬ isBlank c) →
      reduceBlanks .operand t = reduceBlanks .operator t := by
    rintro (_ | ⟨c, t⟩) head
    · rfl
    · have hb := head c (by simp)
      unfold reduceBlanks
      rw [if_neg hb, if_neg hb]
      rfl
  let t := s.dropWhile isBlank
  let g := (t.reverse.takeWhile isBlank).reverse
  have blanks : ∀ c ∈ g, isBlank c := fun c hc => List.mem_takeWhile_imp (List.mem_reverse.1 hc)
  have parts : trim s ++ g = t := by
    show (t.reverse.dropWhile isBlank).reverse ++ (t.reverse.takeWhile isBlank).reverse = t
    rw [← List.reverse_append, List.takeWhile_append_dropWhile, List.reverse_reverse]
  calc normalize s = reduceBlanks .operator (trim s) := start (trimmed_trim s).head
    _ = reduceBlanks .operator (trim s ++ g) := (reduceBlanks_append_blanks _ _ blanks).symm
    _ = reduceBlanks .operator s := by rw [parts, reduceBlanks_dropWhile]

/-! ## Gaps -/

/-- At most one space. -/
def Gap (s : List Char) : Prop := s = [] ∨ s = [' ']

theorem gap_dropWhile {s : List Char} (spaces : ∀ c ∈ s, isBlank c → c = ' ')
    (apart : s.IsChain fun a b => isBlank a → ¬ isBlank b) :
    ∃ l, Gap l ∧ s = l ++ s.dropWhile isBlank := by
  cases s with
  | nil => exact ⟨[], .inl rfl, rfl⟩
  | cons c s =>
    by_cases hc : isBlank c
    · have head := (List.isChain_cons.1 apart).1
      refine ⟨[c], .inr (by rw [spaces c List.mem_cons_self hc]), ?_⟩
      rw [List.dropWhile_cons_of_pos hc, Text.dropWhile_eq_self fun b hb => head b hb hc]
      rfl
    · exact ⟨[], .inl rfl, (List.dropWhile_cons_of_neg hc).symm⟩

theorem Tidy.trim {s : List Char} (h : Tidy s) :
    ∃ l r, Gap l ∧ Gap r ∧ s = l ++ (trim s ++ r) := by
  obtain ⟨l, hl, hs⟩ := gap_dropWhile h.spaces (h.apart.imp fun _ _ hab ha => (hab.1 ha).1)
  have inner : Tidy (s.dropWhile isBlank) := h.infix (List.dropWhile_suffix _).isInfix
  obtain ⟨r, hr, ht⟩ := gap_dropWhile (s := (s.dropWhile isBlank).reverse)
    (fun c hc => inner.spaces c (List.mem_reverse.1 hc))
    (List.isChain_reverse.2 (inner.apart.imp fun _ _ hab hb ha => (hab.1 ha).1 hb))
  refine ⟨l, r, hl, hr, ?_⟩
  have ht' := congrArg List.reverse ht
  rw [List.reverse_append, List.reverse_reverse] at ht'
  have symm : r.reverse = r := by
    rcases hr with rfl | rfl <;> rfl
  rw [symm] at ht'
  rw [show Text.trim s = ((s.dropWhile isBlank).reverse.dropWhile isBlank).reverse from rfl, ← ht',
    ← hs]

/-! ## Cuts -/

theorem closesAtEnd_eq_true {d : Nat} {s : List Char} (h : closesAtEnd d s = true) :
    ∃ t, s = t ++ [')'] := by
  induction s generalizing d with
  | nil => cases h
  | cons c s ih =>
    have step : ∀ {d'}, closesAtEnd d' s = true → ∃ t, c :: s = t ++ [')'] := by
      intro d' h'
      obtain ⟨t, rfl⟩ := ih h'
      exact ⟨c :: t, rfl⟩
    unfold closesAtEnd at h
    split at h
    · exact step h
    · split at h
      · next hc =>
        split at h
        · rw [List.isEmpty_iff] at h
          exact ⟨[], by rw [h, hc]; rfl⟩
        · exact step h
      · exact step h

theorem enclosed?_eq_some {s t : List Char} (h : enclosed? s = some t) :
    s = '(' :: (t ++ [')']) := by
  unfold enclosed? at h
  split at h
  · cases h
  · split at h
    · next hc =>
      obtain ⟨t', ht⟩ := closesAtEnd_eq_true hc.2
      cases h
      rw [hc.1, ht, List.dropLast_concat]
    · cases h

theorem cutLast?_eq_some {d : Nat} {s l r : List Char} {op : Char}
    (h : cutLast? d s = some (l, op, r)) :
    s = l ++ op :: r ∧ (op = '/' ∨ op = ' ') ∧ cutLast? 0 r = none := by
  induction s generalizing d l with
  | nil => cases h
  | cons c s ih =>
    unfold cutLast? at h
    split at h
    · next l' op' r' hc =>
      cases h
      obtain ⟨hs, hop, hr⟩ := ih hc
      exact ⟨congrArg (c :: ·) hs, hop, hr⟩
    · next hc =>
      split at h
      · next hd =>
        cases h
        obtain ⟨rfl, hop⟩ := hd
        have same : depthAfter 0 op = 0 := by rcases hop with rfl | rfl <;> rfl
        rw [same] at hc
        exact ⟨rfl, hop, hc⟩
      · cases h

theorem cutCaret?_eq_some {d : Nat} {s l r : List Char} (h : cutCaret? d s = some (l, r)) :
    s = l ++ '^' :: r ∧ cutCaret? d l = none := by
  induction s generalizing d l with
  | nil => cases h
  | cons c s ih =>
    unfold cutCaret? at h
    split at h
    · next hc =>
      cases h
      exact ⟨by rw [hc.2]; rfl, rfl⟩
    · next hc =>
      obtain ⟨⟨l', r'⟩, hl, h⟩ := Option.map_eq_some_iff.1 h
      cases h
      obtain ⟨hs, hn⟩ := ih hl
      refine ⟨congrArg (c :: ·) hs, ?_⟩
      unfold cutCaret?
      rw [if_neg hc, hn]
      rfl

theorem cutLast?_of_append {d : Nat} {s t : List Char} (h : cutLast? d (s ++ t) = none) :
    cutLast? d s = none := by
  induction s generalizing d with
  | nil => rfl
  | cons c s ih =>
    rw [List.cons_append] at h
    unfold cutLast? at h ⊢
    split at h
    · cases h
    · next hc =>
      rw [ih hc]
      split at h
      · cases h
      · next hn => exact if_neg hn

/-! ## Parentheses that match -/

theorem cutLast?_append_none {d : Nat} {s t : List Char} (hs : cutLast? d s = none)
    (ht : cutLast? (s.foldl depthAfter d) t = none) : cutLast? d (s ++ t) = none := by
  induction s generalizing d with
  | nil => exact ht
  | cons c s ih =>
    rw [List.cons_append]
    unfold cutLast? at hs ⊢
    split at hs
    · cases hs
    · next hc =>
      rw [ih hc ht]
      split at hs
      · cases hs
      · next hn => exact if_neg hn

theorem cutLast?_append_some {d : Nat} {s t l r : List Char} {op : Char}
    (ht : cutLast? (s.foldl depthAfter d) t = some (l, op, r)) :
    cutLast? d (s ++ t) = some (s ++ l, op, r) := by
  induction s generalizing d with
  | nil => exact ht
  | cons c s ih =>
    rw [List.cons_append]
    unfold cutLast?
    rw [ih ht]
    rfl

theorem cutCaret?_append {d : Nat} {s t : List Char} (hs : cutCaret? d s = none) :
    cutCaret? d (s ++ t) =
      (cutCaret? (s.foldl depthAfter d) t).map fun p => (s ++ p.1, p.2) := by
  induction s generalizing d with
  | nil => cases h : cutCaret? d t <;> simp [h]
  | cons c s ih =>
    rw [List.cons_append, cutCaret?]
    rw [cutCaret?] at hs
    split at hs
    · cases hs
    · next hc =>
      rw [if_neg hc, ih (Option.map_eq_none_iff.1 hs), Option.map_map]
      rfl

/-- The parentheses of the text match: a scan that has counted `d` open ones before the text has
counted as many after it, and within parentheses it makes no cut in the text. -/
structure Nested (s : List Char) : Prop where
  depth : ∀ d, s.foldl depthAfter d = d
  unmatched : ∀ d r, unmatched? d (s ++ r) = unmatched? d r
  closes : ∀ d r, closesAtEnd (d + 1) (s ++ r) = closesAtEnd (d + 1) r
  last : ∀ d, cutLast? (d + 1) s = none
  caret : ∀ d, cutCaret? (d + 1) s = none

namespace Nested

variable {s t : List Char}

theorem nil : Nested [] where
  depth _ := rfl
  unmatched _ _ := rfl
  closes _ _ := rfl
  last _ := rfl
  caret _ := rfl

theorem append (hs : Nested s) (ht : Nested t) : Nested (s ++ t) where
  depth d := by rw [List.foldl_append, hs.depth, ht.depth]
  unmatched d r := by rw [List.append_assoc, hs.unmatched, ht.unmatched]
  closes d r := by rw [List.append_assoc, hs.closes, ht.closes]
  last d := cutLast?_append_none (hs.last d) (by rw [hs.depth]; exact ht.last d)
  caret d := by rw [cutCaret?_append (hs.caret d), hs.depth, ht.caret]; rfl

theorem singleton {c : Char} (ho : c ≠ '(') (hc : c ≠ ')') : Nested [c] where
  depth d := by simp [depthAfter, ho, hc]
  unmatched d r := by simp [unmatched?, ho, hc]
  closes d r := by simp [closesAtEnd, ho, hc]
  last d := by simp [cutLast?]
  caret d := by simp [cutCaret?]

theorem cons {c : Char} (ho : c ≠ '(') (hc : c ≠ ')') (hs : Nested s) : Nested (c :: s) :=
  (singleton ho hc).append hs

theorem plain (h : ∀ c ∈ s, isPlain c) : Nested s := by
  induction s with
  | nil => exact .nil
  | cons c s ih =>
    obtain ⟨-, -, ho, hc⟩ := isPlain_iff.1 (h c List.mem_cons_self)
    exact .cons ho hc (ih fun b hb => h b (List.mem_cons_of_mem _ hb))

/-- A group cannot be cut. -/
theorem cutLast?_group (hs : Nested s) (d : Nat) : cutLast? d ('(' :: (s ++ [')'])) = none := by
  have inner : cutLast? (d + 1) (s ++ [')']) = none :=
    cutLast?_append_none (hs.last d) (by simp [cutLast?])
  simp [cutLast?, depthAfter, inner]

theorem cutCaret?_group (hs : Nested s) (d : Nat) : cutCaret? d ('(' :: (s ++ [')'])) = none := by
  have inner : cutCaret? (d + 1) (s ++ [')']) = none := by
    rw [cutCaret?_append (hs.caret d)]
    simp [cutCaret?]
  simp [cutCaret?, depthAfter, inner]

theorem group (hs : Nested s) : Nested ('(' :: (s ++ [')'])) where
  depth d := by
    simp only [List.foldl_cons, List.foldl_append, List.foldl_nil]
    rw [show depthAfter d '(' = d + 1 from rfl, hs.depth]
    rfl
  unmatched d r := by
    rw [List.cons_append, List.append_assoc]
    simp [unmatched?, hs.unmatched]
  closes d r := by
    rw [List.cons_append, List.append_assoc]
    simp [closesAtEnd, hs.closes]
  last d := hs.cutLast?_group (d + 1)
  caret d := hs.cutCaret?_group (d + 1)

theorem enclosed?_group (hs : Nested s) : enclosed? ('(' :: (s ++ [')'])) = some s := by
  have : closesAtEnd 1 (s ++ [')']) := by
    rw [hs.closes 0]
    rfl
  simp [enclosed?, this]

theorem enclosed?_group_append (hs : Nested s) (ht : t ≠ []) :
    enclosed? ('(' :: (s ++ [')']) ++ t) = none := by
  have : ¬ closesAtEnd 1 ((s ++ [')']) ++ t) := by
    rw [List.append_assoc, hs.closes 0]
    simpa [closesAtEnd] using ht
  simp only [List.cons_append, enclosed?]
  rw [if_neg fun h => this h.2]

end Nested

theorem cutLast?_plain {s : List Char} (h : ∀ c ∈ s, isPlain c) (d : Nat) :
    cutLast? d s = none := by
  induction s generalizing d with
  | nil => rfl
  | cons c s ih =>
    obtain ⟨hb, ht, -, -⟩ := isPlain_iff.1 (h c List.mem_cons_self)
    unfold cutLast?
    rw [ih fun b hb => h b (List.mem_cons_of_mem _ hb)]
    refine if_neg ?_
    rintro ⟨-, rfl | rfl⟩
    · exact ht rfl
    · exact hb rfl

theorem cutCaret?_plain {s : List Char} (h : ∀ c ∈ s, isPlain c) (d : Nat) :
    cutCaret? d s = none := by
  induction s generalizing d with
  | nil => rfl
  | cons c s ih =>
    obtain ⟨-, ht, -, -⟩ := isPlain_iff.1 (h c List.mem_cons_self)
    unfold cutCaret?
    rw [if_neg, ih fun b hb => h b (List.mem_cons_of_mem _ hb)]
    · rfl
    · rintro ⟨-, rfl⟩
      exact ht rfl

theorem enclosed?_plain {s : List Char} (h : ∀ c ∈ s, isPlain c) (hs : s ≠ []) (t : List Char) :
    enclosed? (s ++ t) = none := by
  cases s with
  | nil => exact absurd rfl hs
  | cons c s =>
    have := (isPlain_iff.1 (h c List.mem_cons_self)).2.2.1
    simp [enclosed?, this]

/-! ## Texts of operands -/

/-- What the texts of all operands have in common. Such a text is a part of any longer one: nothing
in it can be taken for a part of what stands beside it. -/
structure Operand (s : List Char) : Prop where
  ne_nil : s ≠ []
  tidy : Tidy s
  nested : Nested s
  head : ∀ c ∈ s.head?, ¬ isBlank c ∧ ¬ isTight c
  last : ∀ c ∈ s.getLast?, ¬ isBlank c ∧ ¬ isTight c
  /-- a parenthesis at its start is closed within it -/
  closed : ∀ t, t ≠ [] → enclosed? (s ++ t) = none

theorem Operand.trimmed {s : List Char} (h : Operand s) : Trimmed s :=
  ⟨fun c hc => (h.head c hc).1, fun c hc => (h.last c hc).1⟩

theorem Operand.unmatched {s : List Char} (h : Operand s) : unmatched? 0 s = none := by
  have := h.nested.unmatched 0 []
  rwa [List.append_nil] at this

theorem PlainText.operand {s : List Char} (h : PlainText s) : Operand s where
  ne_nil := h.ne_nil
  tidy := by
    have hs : ∀ c ∈ s, ¬ isBlank c ∧ ¬ isTight c := fun c hc =>
      ⟨(isPlain_iff.1 (h.plain c hc)).1, (isPlain_iff.1 (h.plain c hc)).2.1⟩
    refine ⟨fun c hc hb => absurd hb (hs c hc).1, ?_⟩
    refine (List.pairwise_of_forall_mem_list fun a ha b hb => ?_).isChain
    exact ⟨fun h => absurd h (hs a ha).1, fun h => absurd h (hs a ha).2⟩
  nested := .plain h.plain
  head c hc := by
    have := isPlain_iff.1 (h.plain c (List.mem_of_mem_head? hc))
    exact ⟨this.1, this.2.1⟩
  last c hc := by
    have := isPlain_iff.1 (h.plain c (List.mem_of_mem_getLast? hc))
    exact ⟨this.1, this.2.1⟩
  closed t _ := enclosed?_plain h.plain h.ne_nil t

/-- Two operands with an operator between them. -/
theorem Operand.join {s t : List Char} {c : Char} (hs : Operand s) (ht : Operand t)
    (hc : c = '/' ∨ c = ' ' ∨ c = '^') : Operand (s ++ c :: t) where
  ne_nil := by simp
  tidy := by
    refine ⟨fun b hb hbb => ?_, ?_⟩
    · rcases List.mem_append.1 hb with hb | hb
      · exact hs.tidy.spaces b hb hbb
      · rcases List.mem_cons.1 hb with rfl | hb
        · rcases hc with rfl | rfl | rfl
          · exact absurd hbb (by decide)
          · rfl
          · exact absurd hbb (by decide)
        · exact ht.tidy.spaces b hb hbb
    · refine hs.tidy.apart.append (List.isChain_cons.2 ⟨fun b hb => ?_, ht.tidy.apart⟩) ?_
      · exact ⟨fun _ => ht.head b hb, fun _ => (ht.head b hb).1⟩
      · intro a ha b _
        exact ⟨fun h => absurd h (hs.last a ha).1, fun h => absurd h (hs.last a ha).2⟩
  nested := by
    refine hs.nested.append (.cons ?_ ?_ ht.nested) <;> rcases hc with rfl | rfl | rfl <;> decide
  head b hb := by
    refine hs.head b ?_
    cases s with
    | nil => exact absurd rfl hs.ne_nil
    | cons a s => exact hb
  last b hb := by
    refine ht.last b ?_
    rw [List.getLast?_append_of_ne_nil _ (by simp), List.getLast?_cons_of_ne_nil ht.ne_nil] at hb
    exact hb
  closed r _ := by
    rw [List.append_assoc]
    exact hs.closed _ (by simp)

theorem Gap.nested {g : List Char} (h : Gap g) : Nested g := by
  rcases h with rfl | rfl
  · exact .nil
  · exact .singleton (by decide) (by decide)

/-! An operand with or without a space on either side, and in parentheses. -/
section Gaps

variable {l s r : List Char} (hl : Gap l) (hs : Operand s) (hr : Gap r)
include hs

theorem Operand.head_append (c : Char) (hc : c ∈ (s ++ r).head?) : ¬ isBlank c ∧ ¬ isTight c := by
  refine hs.head c ?_
  cases s with
  | nil => exact absurd rfl hs.ne_nil
  | cons a s => exact hc

include hl hr

theorem Operand.nested_gaps : Nested (l ++ (s ++ r)) :=
  hl.nested.append (hs.nested.append hr.nested)

theorem Operand.tidy_gaps : Tidy (l ++ (s ++ r)) := by
  have spaces : ∀ {g : List Char}, Gap g → ∀ c ∈ g, c = ' ' := by
    rintro g (rfl | rfl) <;> simp
  have inner : (s ++ r).IsChain Apart := by
    rcases hr with rfl | rfl
    · rw [List.append_nil]
      exact hs.tidy.apart
    · refine hs.tidy.apart.append (.singleton _) fun a ha b _ => ?_
      exact ⟨fun h => absurd h (hs.last a ha).1, fun h => absurd h (hs.last a ha).2⟩
  constructor
  · intro c hc hb
    rcases List.mem_append.1 hc with hc | hc
    · exact spaces hl c hc
    · rcases List.mem_append.1 hc with hc | hc
      · exact hs.tidy.spaces c hc hb
      · exact spaces hr c hc
  · rcases hl with rfl | rfl
    · exact inner
    · refine List.isChain_cons.2 ⟨fun b hb => ?_, inner⟩
      exact ⟨fun _ => hs.head_append b hb, fun _ => (hs.head_append b hb).1⟩

theorem Operand.trim_gaps : trim (l ++ (s ++ r)) = s := by
  have blank : isBlank ' ' := by decide
  have front : (l ++ (s ++ r)).dropWhile isBlank = s ++ r := by
    have stop : (s ++ r).dropWhile isBlank = s ++ r :=
      Text.dropWhile_eq_self fun c hc => (hs.head_append c hc).1
    rcases hl with rfl | rfl
    · exact stop
    · exact (List.dropWhile_cons_of_pos blank).trans stop
  have back : (s ++ r).reverse.dropWhile isBlank = s.reverse := by
    have stop : s.reverse.dropWhile isBlank = s.reverse :=
      Text.dropWhile_eq_self fun c hc => (hs.last c (by rwa [List.head?_reverse] at hc)).1
    rcases hr with rfl | rfl
    · rw [List.append_nil]
      exact stop
    · rw [List.reverse_append]
      exact (List.dropWhile_cons_of_pos blank).trans stop
  unfold trim Text.dropAroundWhile Text.dropEndWhile
  rw [front, back, List.reverse_reverse]

theorem Operand.group : Operand ('(' :: (l ++ (s ++ r) ++ [')'])) := by
  have tidy := hs.tidy_gaps hl hr
  have nested := hs.nested_gaps hl hr
  have nbl : ¬ isBlank '(' ∧ ¬ isTight '(' := by decide
  have nbr : ¬ isBlank ')' ∧ ¬ isTight ')' := by decide
  exact {
    ne_nil := by simp
    tidy := by
      refine ⟨fun c hc hb => ?_, List.isChain_cons.2 ⟨fun c _ => ?_, ?_⟩⟩
      · rcases List.mem_cons.1 hc with rfl | hc
        · exact absurd hb nbl.1
        · rcases List.mem_append.1 hc with hc | hc
          · exact tidy.spaces c hc hb
          · cases List.mem_singleton.1 hc
            exact absurd hb nbr.1
      · exact ⟨fun h => absurd h nbl.1, fun h => absurd h nbl.2⟩
      · refine tidy.apart.append (.singleton _) fun a _ b hb => ?_
        cases Option.some.inj hb
        exact ⟨fun _ => nbr, fun _ => nbr.1⟩
    nested := nested.group
    head := fun c hc => by cases Option.some.inj hc; exact nbl
    last := fun c hc => by
      rw [← List.cons_append, List.getLast?_concat] at hc
      cases Option.some.inj hc
      exact nbr
    closed := fun t ht => nested.enclosed?_group_append ht }

end Gaps

end TypedTables.Units
