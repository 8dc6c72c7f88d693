import TypedTables.Proofs.Outcome
import TypedTables.Proofs.UnitText
import TypedTables.Units.Converter
/-!
# The grammar of unit expressions

The grammar as derivations of trees, apart from any reader: operators of one precedence associate
to the left, since the left part of an expression is an expression and the right part a term. The
reader does not follow the rules but cuts a text at the operator that is applied last; on tidy texts
it comes to the same.

Results:
* `derives_parse`: a tree without faults is derived.
* `Derives.parse_eq`: what is derived is the tree that is read, so there is only one.
* `multiplier_eq_ok_iff`: a converter has a value for just the texts that can be derived and worked
  out.
-/
namespace TypedTables.Units

open TypedTables.Text (isBlank)
open TypedTables.Decimal

/-- The rules of the grammar. -/
inductive Rule where
  | expr
  | term
  | factor
  | exponent
  deriving DecidableEq, Repr

/-- A tree of a text by one of the rules. -/
inductive Derives : Symbols → Rule → List Char → UnitExpr → Prop
  /-- a term alone -/
  | ofTerm {n s t} : Derives n .term s t → Derives n .expr s t
  | quotient {n s r a b} : Derives n .expr s a → Derives n .term r b →
    Derives n .expr (s ++ '/' :: r) (.quotient a b)
  | product {n s r a b} : Derives n .expr s a → Derives n .term r b →
    Derives n .expr (s ++ ' ' :: r) (.product a b)
  /-- a factor alone -/
  | ofFactor {n s t} : Derives n .factor s t → Derives n .term s t
  | power {n s r a b} : Derives n .factor s a → Derives n .exponent r b →
    Derives n .term (s ++ '^' :: r) (.power a b)
  | symbol {n s q} : n.size? s = some q → Derives n .factor s (.symbol (String.ofList s) q)
  /-- a number that is no symbol -/
  | number {n s x} : n.size? s = none → NumberText s x → Derives n .factor s (.number x.toFloat)
  | group {n l s r t} : Gap l → Derives n .expr s t → Gap r →
    Derives n .factor ('(' :: (l ++ (s ++ r) ++ [')'])) t
  | exponentNumber {n s x} : NumberText s x → Derives n .exponent s (.number x.toFloat)
  /-- an exponent has no symbols -/
  | exponentGroup {n l s r t} : Gap l → Derives .none .expr s t → Gap r →
    Derives n .exponent ('(' :: (l ++ (s ++ r) ++ [')'])) t

/-- The tree has no part that cannot be read. -/
def UnitExpr.Clean : UnitExpr → Prop
  | .symbol .. => True
  | .number _ => True
  | .product left right => left.Clean ∧ right.Clean
  | .quotient left right => left.Clean ∧ right.Clean
  | .power base exponent => base.Clean ∧ exponent.Clean
  | .fault _ => False

theorem UnitExpr.clean_of_eval {t : UnitExpr} {q : Quantity} (h : t.eval = .ok q) : t.Clean := by
  induction t generalizing q with
  | symbol | number => trivial
  | fault => cases h
  | product left right ihl ihr =>
    obtain ⟨a, ha, h⟩ := bind_eq_ok.1 h
    obtain ⟨b, hb, -⟩ := bind_eq_ok.1 h
    exact ⟨ihl ha, ihr hb⟩
  | quotient left right ihl ihr =>
    obtain ⟨a, ha, h⟩ := bind_eq_ok.1 h
    obtain ⟨b, hb, -⟩ := bind_eq_ok.1 h
    exact ⟨ihl ha, ihr hb⟩
  | power base exponent ihl ihr =>
    obtain ⟨a, ha, h⟩ := bind_eq_ok.1 h
    obtain ⟨b, hb, -⟩ := bind_eq_ok.1 h
    exact ⟨ihl ha, ihr hb⟩

/-! ## What is read is derived -/

theorem Tidy.enclosed {s t : List Char} (h : Tidy s) (he : enclosed? s = some t) :
    ∃ l r, Gap l ∧ Gap r ∧ s = '(' :: (l ++ (Text.trim t ++ r) ++ [')']) ∧ Tidy (Text.trim t) := by
  have hs := enclosed?_eq_some he
  have inner : Tidy t := h.infix ⟨['('], [')'], by rw [hs]; rfl⟩
  obtain ⟨l, r, hl, hr, ht⟩ := inner.trim
  refine ⟨l, r, hl, hr, by rw [← ht, hs], inner.infix ⟨l, r, ?_⟩⟩
  rw [List.append_assoc]
  exact ht.symm

theorem Derives.ofNumber {n : Symbols} {s : List Char} {x : Numeral} (hs : n.size? s = none)
    (hx : Numeral.parse? s = some x) : Derives n .expr s (.number x.toFloat) :=
  .ofTerm (.ofFactor (.number hs (Numeral.parse?_eq_some_iff.1 hx)))

theorem Exponent.derives_of_read {n : Symbols} {s : List Char} {e : UnitExpr} (h : Tidy s)
    (he : Exponent.of s = .read e) (clean : e.Clean) : Derives n .exponent s e := by
  unfold Exponent.of at he
  split at he
  · cases he
    exact clean.elim
  · split at he
    · next inner hi =>
      obtain ⟨l, r, hl, hr, hs, -⟩ := h.enclosed hi
      dsimp only at he
      split at he
      · next x hx =>
        cases he
        rw [hs]
        exact .exponentGroup hl (.ofNumber rfl hx) hr
      · cases he
    · split at he
      · next x hx =>
        cases he
        exact .exponentNumber (Numeral.parse?_eq_some_iff.1 hx)
      · cases he
        exact clean.elim

theorem Exponent.nested_eq {s t : List Char} (h : Tidy s) (he : Exponent.of s = .nested t) :
    ∃ l r, Gap l ∧ Gap r ∧ s = '(' :: (l ++ (t ++ r) ++ [')']) ∧ Tidy t := by
  unfold Exponent.of at he
  split at he
  · cases he
  · split at he
    · next inner hi =>
      obtain ⟨l, r, hl, hr, hs, tidy⟩ := h.enclosed hi
      dsimp only at he
      split at he
      · cases he
      · cases he
        rw [normalize_eq_self tidy (trimmed_trim inner)]
        exact ⟨l, r, hl, hr, hs, tidy⟩
    · split at he <;> cases he

/-- The tree is derived as a term if the text has no `/` or space to cut at, and as a factor if it
has no `^` either. -/
structure DerivesTightly (n : Symbols) (s : List Char) (t : UnitExpr) : Prop where
  expr : Derives n .expr s t
  term : cutLast? 0 s = none → Derives n .term s t
  factor : cutLast? 0 s = none → cutCaret? 0 s = none → Derives n .factor s t

namespace DerivesTightly

variable {n : Symbols} {s : List Char} {t : UnitExpr}

theorem ofFactor (h : Derives n .factor s t) : DerivesTightly n s t where
  expr := .ofTerm (.ofFactor h)
  term _ := .ofFactor h
  factor _ _ := h

theorem ofTerm {b e : List Char} (hc : cutCaret? 0 s = some (b, e)) (h : Derives n .term s t) :
    DerivesTightly n s t where
  expr := .ofTerm h
  term _ := h
  factor _ none := by
    rw [hc] at none
    cases none

theorem ofExpr {l r : List Char} {op : Char} (hc : cutLast? 0 s = some (l, op, r))
    (h : Derives n .expr s t) : DerivesTightly n s t where
  expr := h
  term none := by
    rw [hc] at none
    cases none
  factor none := by
    rw [hc] at none
    cases none

end DerivesTightly

/-- **What is read is derived**, unless the tree has a fault. -/
theorem derives_parse {n : Symbols} {s : List Char} (h : Tidy s)
    (clean : (UnitExpr.parse n s).Clean) : DerivesTightly n s (UnitExpr.parse n s) := by
  fun_induction UnitExpr.parse n s with
  | case1 => exact clean.elim
  | case2 n s _ q hq => exact .ofFactor (.symbol hq)
  | case3 => exact clean.elim
  | case4 n s _ _ _ inner hi ih =>
    obtain ⟨l, r, hl, hr, hs, tidy⟩ := h.enclosed hi
    have group := Derives.group hl (ih tidy clean).expr hr
    rw [← hs] at group
    exact .ofFactor group
  | case5 => exact clean.elim
  | case6 n s _ _ _ _ _ left right hc ihl ihr =>
    obtain ⟨rfl, -, none⟩ := cutLast?_eq_some hc
    have tl : Tidy left := h.infix ⟨[], '/' :: right, rfl⟩
    have tr : Tidy right := h.infix ⟨left ++ ['/'], [], by simp⟩
    exact .ofExpr hc (.quotient (ihl tl clean.1).expr ((ihr tr clean.2).term none))
  | case7 n s _ _ _ _ _ left op right hc hop ihl ihr =>
    obtain ⟨rfl, hop', none⟩ := cutLast?_eq_some hc
    cases hop'.resolve_left hop
    have tl : Tidy left := h.infix ⟨[], ' ' :: right, rfl⟩
    have tr : Tidy right := h.infix ⟨left ++ [' '], [], by simp⟩
    exact .ofExpr hc (.product (ihl tl clean.1).expr ((ihr tr clean.2).term none))
  | case8 n s _ _ _ _ _ hl base exponent hc ihb ihe =>
    obtain ⟨rfl, none⟩ := cutCaret?_eq_some hc
    have tb : Tidy base := h.infix ⟨[], '^' :: exponent, rfl⟩
    have te : Tidy exponent := h.infix ⟨base ++ ['^'], [], by simp⟩
    have hb := (ihb tb clean.1).factor (cutLast?_of_append hl) none
    refine .ofTerm hc (.power hb ?_)
    have clean₂ := clean.2
    split
    · next e he =>
      rw [he] at clean₂
      exact Exponent.derives_of_read te he clean₂
    · next t he =>
      rw [he] at clean₂
      obtain ⟨l, r, hl, hr, hs, tidy⟩ := Exponent.nested_eq te he
      rw [hs]
      exact .exponentGroup hl (ihe t he tidy clean₂).expr hr
  | case9 n s _ hs _ _ _ _ _ x hx =>
    exact .ofFactor (.number hs (Numeral.parse?_eq_some_iff.1 hx))
  | case10 => exact clean.elim

/-! ## What is derived is read -/

/-- The names that stand for something are plain, and those of nonlinear units are neither names of
sizes nor numbers. -/
structure Symbols.Plain (n : Symbols) : Prop where
  size : ∀ s q, n.size? s = some q → PlainText s
  nonlinear : ∀ s, n.isNonlinear s →
    PlainText s ∧ n.size? s = Option.none ∧ ∀ x, ¬ NumberText s x

theorem Symbols.plain_none : Symbols.none.Plain where
  size s q h := by cases h
  nonlinear s h := by cases h

/-- The text is no name, so its parts decide. -/
structure Unread (n : Symbols) (s : List Char) : Prop where
  ne_nil : s ≠ []
  size : n.size? s = none
  nonlinear : ¬ n.isNonlinear s

theorem Symbols.Plain.unread {n : Symbols} (hn : n.Plain) {s : List Char} {c : Char} (hc : c ∈ s)
    (hp : ¬ isPlain c) : Unread n s where
  ne_nil := List.ne_nil_of_mem hc
  size := by
    refine Option.eq_none_iff_forall_not_mem.2 fun q h => ?_
    exact hp ((hn.size s q h).plain c hc)
  nonlinear h := hp ((hn.nonlinear s h).1.plain c hc)

/-- The tree of an exponent. -/
def Exponent.tree : Exponent → UnitExpr
  | .read e => e
  | .nested t => UnitExpr.parse .none t

section Parse

variable {n : Symbols} {s t : List Char} (h : Unread n s)
include h

theorem parse_enclosed (he : enclosed? s = some t) :
    UnitExpr.parse n s = UnitExpr.parse n (Text.trim t) := by
  obtain ⟨hne, hs, hn⟩ := h
  fun_cases UnitExpr.parse n s <;> simp_all

variable (he : enclosed? s = none) (hu : unmatched? 0 s = none)
include he hu

theorem parse_cutLast {l r : List Char} {op : Char} (hl : cutLast? 0 s = some (l, op, r)) :
    UnitExpr.parse n s = if op = '/' then .quotient (UnitExpr.parse n l) (UnitExpr.parse n r)
      else .product (UnitExpr.parse n l) (UnitExpr.parse n r) := by
  obtain ⟨hne, hs, hn⟩ := h
  fun_cases UnitExpr.parse n s <;> simp_all
  exact hl.2.1.symm

variable (hl : cutLast? 0 s = none)
include hl

theorem parse_cutCaret {b e : List Char} (hc : cutCaret? 0 s = some (b, e)) :
    UnitExpr.parse n s = .power (UnitExpr.parse n b) (Exponent.of e).tree := by
  obtain ⟨hne, hs, hn⟩ := h
  fun_cases UnitExpr.parse n s <;> simp_all
  split <;> simp_all [Exponent.tree]

theorem parse_numeral {x : Numeral} (hc : cutCaret? 0 s = none) (hx : Numeral.parse? s = some x) :
    UnitExpr.parse n s = .number x.toFloat := by
  obtain ⟨hne, hs, hn⟩ := h
  fun_cases UnitExpr.parse n s <;> simp_all

end Parse

theorem parse_symbol {n : Symbols} {s : List Char} {q : Quantity} (hne : s ≠ [])
    (h : n.size? s = some q) : UnitExpr.parse n s = .symbol (String.ofList s) q := by
  fun_cases UnitExpr.parse n s <;> simp_all

theorem Symbols.Plain.unread_number {n : Symbols} (hn : n.Plain) {s : List Char} {x : Numeral}
    (hs : n.size? s = Option.none) (hx : NumberText s x) : Unread n s :=
  ⟨hx.ne_nil, hs, fun h => (hn.nonlinear s h).2.2 x hx⟩

theorem parse_number {n : Symbols} {s : List Char} {x : Numeral} (unread : Unread n s)
    (hx : NumberText s x) : UnitExpr.parse n s = .number x.toFloat := by
  have plain := plainText_number hx
  have enclosed := enclosed?_plain plain.plain plain.ne_nil []
  rw [List.append_nil] at enclosed
  exact parse_numeral unread enclosed plain.operand.unmatched (cutLast?_plain plain.plain 0)
    (cutCaret?_plain plain.plain 0) (Numeral.parse?_eq_some_iff.2 hx)

/-- What the reader makes of a text that is derived by a rule. -/
def Reads (n : Symbols) (s : List Char) (t : UnitExpr) : Rule → Prop
  | .expr => UnitExpr.parse n s = t
  | .term => UnitExpr.parse n s = t ∧ cutLast? 0 s = none
  | .factor => UnitExpr.parse n s = t ∧ cutLast? 0 s = none ∧ cutCaret? 0 s = none
  | .exponent => (Exponent.of s).tree = t ∧ cutLast? 0 s = none

/-- An operand with another one after an operator is cut there. -/
theorem parse_join {n : Symbols} {s r : List Char} {c : Char} (unread : Unread n (s ++ c :: r))
    (hs : Operand s) (hr : Operand r) (hc : c = '/' ∨ c = ' ') (hl : cutLast? 0 r = none) :
    UnitExpr.parse n (s ++ c :: r) =
      if c = '/' then .quotient (UnitExpr.parse n s) (UnitExpr.parse n r)
      else .product (UnitExpr.parse n s) (UnitExpr.parse n r) := by
  have same : depthAfter 0 c = 0 := by rcases hc with rfl | rfl <;> rfl
  have join := hs.join hr (hc.imp_right .inl)
  refine parse_cutLast unread (hs.closed _ (by simp)) join.unmatched ?_
  have cut : cutLast? (s.foldl depthAfter 0) (c :: r) = some ([], c, r) := by
    rw [hs.nested.depth, cutLast?, same, hl]
    exact if_pos ⟨rfl, hc⟩
  rw [cutLast?_append_some cut, List.append_nil]

/-- A base with its exponent has no operator to cut at but the `^`. -/
theorem cutLast?_power {s r : List Char} (hs : Operand s) (hsl : cutLast? 0 s = none)
    (hrl : cutLast? 0 r = none) : cutLast? 0 (s ++ '^' :: r) = none := by
  refine cutLast?_append_none hsl ?_
  rw [hs.nested.depth, cutLast?, show depthAfter 0 '^' = 0 from rfl, hrl]
  rfl

theorem parse_power {n : Symbols} {s r : List Char} (unread : Unread n (s ++ '^' :: r))
    (hs : Operand s) (hr : Operand r) (hsl : cutLast? 0 s = none) (hsc : cutCaret? 0 s = none)
    (hrl : cutLast? 0 r = none) :
    UnitExpr.parse n (s ++ '^' :: r) = .power (UnitExpr.parse n s) (Exponent.of r).tree := by
  have join := hs.join hr (.inr (.inr rfl))
  have caret : cutCaret? 0 (s ++ '^' :: r) = some (s, r) := by
    rw [cutCaret?_append hsc, hs.nested.depth]
    simp [cutCaret?]
  exact parse_cutCaret unread (hs.closed _ (by simp)) join.unmatched (cutLast?_power hs hsl hrl)
    caret

theorem parse_group {n : Symbols} {l s r : List Char}
    (unread : Unread n ('(' :: (l ++ (s ++ r) ++ [')']))) (hl : Gap l) (hs : Operand s)
    (hr : Gap r) : UnitExpr.parse n ('(' :: (l ++ (s ++ r) ++ [')'])) = UnitExpr.parse n s := by
  rw [parse_enclosed unread (hs.nested_gaps hl hr).enclosed?_group, hs.trim_gaps hl hr]

theorem Exponent.of_number {s : List Char} {x : Numeral} (hx : NumberText s x) :
    Exponent.of s = .read (.number x.toFloat) := by
  have plain := plainText_number hx
  have enclosed := enclosed?_plain plain.plain plain.ne_nil []
  rw [List.append_nil] at enclosed
  rw [Exponent.of, if_neg plain.ne_nil, enclosed]
  dsimp only
  rw [Numeral.parse?_eq_some_iff.2 hx]

/-- An exponent in parentheses is read without names, whether as a number or as an expression. -/
theorem Exponent.tree_of_group {l s r : List Char} (hl : Gap l) (hs : Operand s) (hr : Gap r) :
    (Exponent.of ('(' :: (l ++ (s ++ r) ++ [')']))).tree = UnitExpr.parse .none s := by
  rw [Exponent.of, if_neg (by simp), (hs.nested_gaps hl hr).enclosed?_group]
  dsimp only
  rw [hs.trim_gaps hl hr]
  cases hx : Numeral.parse? s with
  | some x =>
    have number := Numeral.parse?_eq_some_iff.1 hx
    exact (parse_number (Symbols.plain_none.unread_number rfl number) number).symm
  | none =>
    rw [normalize_eq_self hs.tidy hs.trimmed]
    rfl

theorem Derives.reads {n : Symbols} {rule : Rule} {s : List Char} {t : UnitExpr} (hn : n.Plain)
    (h : Derives n rule s t) : Operand s ∧ Reads n s t rule := by
  induction h with
  | ofTerm _ ih =>
    obtain ⟨hs, ht, -⟩ := ih hn
    exact ⟨hs, ht⟩
  | ofFactor _ ih =>
    obtain ⟨hs, ht, hl, -⟩ := ih hn
    exact ⟨hs, ht, hl⟩
  | quotient _ _ ihs ihr =>
    obtain ⟨hs, rfl⟩ := ihs hn
    obtain ⟨hr, rfl, hl⟩ := ihr hn
    exact ⟨hs.join hr (.inl rfl),
      parse_join (hn.unread (c := '/') (by simp) (by decide)) hs hr (.inl rfl) hl⟩
  | product _ _ ihs ihr =>
    obtain ⟨hs, rfl⟩ := ihs hn
    obtain ⟨hr, rfl, hl⟩ := ihr hn
    exact ⟨hs.join hr (.inr (.inl rfl)),
      parse_join (hn.unread (c := ' ') (by simp) (by decide)) hs hr (.inr rfl) hl⟩
  | power _ _ ihs ihr =>
    obtain ⟨hs, rfl, hsl, hsc⟩ := ihs hn
    obtain ⟨hr, rfl, hrl⟩ := ihr hn
    exact ⟨hs.join hr (.inr (.inr rfl)),
      parse_power (hn.unread (c := '^') (by simp) (by decide)) hs hr hsl hsc hrl,
      cutLast?_power hs hsl hrl⟩
  | @symbol n s q hq =>
    have plain := hn.size s q hq
    exact ⟨plain.operand, parse_symbol plain.ne_nil hq, cutLast?_plain plain.plain 0,
      cutCaret?_plain plain.plain 0⟩
  | number hs hx =>
    have plain := plainText_number hx
    exact ⟨plain.operand, parse_number (hn.unread_number hs hx) hx, cutLast?_plain plain.plain 0,
      cutCaret?_plain plain.plain 0⟩
  | group hl _ hr ih =>
    obtain ⟨hs, rfl⟩ := ih hn
    have nested := hs.nested_gaps hl hr
    exact ⟨hs.group hl hr, parse_group (hn.unread (c := '(') (by simp) (by decide)) hl hs hr,
      nested.cutLast?_group 0, nested.cutCaret?_group 0⟩
  | exponentNumber hx =>
    have plain := plainText_number hx
    exact ⟨plain.operand, congrArg Exponent.tree (Exponent.of_number hx),
      cutLast?_plain plain.plain 0⟩
  | exponentGroup hl _ hr ih =>
    obtain ⟨hs, rfl⟩ := ih Symbols.plain_none
    exact ⟨hs.group hl hr, Exponent.tree_of_group hl hs hr, (hs.nested_gaps hl hr).cutLast?_group 0⟩

/-- **One tree.** What is derived is the tree that is read. -/
theorem Derives.parse_eq {n : Symbols} {s : List Char} {t : UnitExpr} (hn : n.Plain)
    (h : Derives n .expr s t) : UnitExpr.parse n s = t :=
  (h.reads hn).2

/-! ## Converters -/

/-- The names of the registries are plain, no name is in both, and none of a nonlinear unit is a
number. -/
structure PlainNames (sizes : OrderedMap String Quantity)
    (nonlinear : OrderedMap String Nonlinear) : Prop where
  size : ∀ k ∈ sizes.keys, PlainText k.toList
  nonlinear : ∀ k ∈ nonlinear.keys,
    PlainText k.toList ∧ k ∉ sizes.keys ∧ ∀ x, ¬ NumberText k.toList x

theorem PlainNames.symbols {c : Converter} (h : PlainNames c.sizes c.nonlinear) :
    c.symbols.Plain where
  size s q hs := by
    have := h.size _ ((c.sizes.mem_keys_iff _).2 ⟨q, hs⟩)
    rwa [String.toList_ofList] at this
  nonlinear s hs := by
    obtain ⟨plain, apart, number⟩ := h.nonlinear _ ((c.nonlinear.contains_iff _).1 hs)
    rw [String.toList_ofList] at plain number
    exact ⟨plain, (c.sizes.get?_eq_none_iff _).2 apart, number⟩

theorem PlainText.normalize_eq {s : List Char} (h : PlainText s) : normalize s = s :=
  normalize_eq_self h.operand.tidy h.operand.trimmed

/-- The registries and answers of a converter do not change as it is asked. -/
theorem Converter.foldl_learn (c : Converter) (asked : List String) :
    (asked.foldl learn c).symbols = c.symbols ∧
      (asked.foldl learn c).multiplier = c.multiplier := by
  induction asked generalizing c with
  | nil => exact ⟨rfl, rfl⟩
  | cons unit asked ih =>
    obtain ⟨hs, hm⟩ := ih (c.learn unit)
    refine ⟨hs.trans ?_, hm.trans (c.multiplier_learn unit)⟩
    simp [symbols]

theorem Converter.evaluate_eq_ok_iff (c : Converter) (unit : String) (v : Quantity) :
    c.evaluate unit = .ok v ↔ (UnitExpr.parse c.symbols (normalize unit.toList)).eval = .ok v := by
  unfold evaluate
  split
  · next h => simp [h]
  · next h => simp [h]
  · next h => simp [h]

/-- A name in normal form has the value that it has as an expression. -/
theorem Converter.multiplier_eq_evaluate {c : Converter} (fresh : c.learned = ∅) {unit : String}
    (named : unit ∈ c.sizes.keys → unit.toList ≠ [] ∧ normalize unit.toList = unit.toList) :
    c.multiplier unit = c.evaluate unit := by
  unfold multiplier
  split
  · next q hq =>
    obtain ⟨ne, normal⟩ := named ((c.sizes.mem_keys_iff unit).2 ⟨q, hq⟩)
    have size : c.symbols.size? unit.toList = some q := by
      show c.sizes.get? (String.ofList unit.toList) = some q
      rw [String.ofList_toList]
      exact hq
    unfold evaluate
    rw [normal, parse_symbol ne size]
    rfl
  · rw [fresh, show (∅ : OrderedMap String Quantity).get? unit = none from
      OrderedMap.get?_empty unit]

theorem Converter.multiplier_eq_ok_iff_eval {c : Converter} (h : PlainNames c.sizes c.nonlinear)
    (fresh : c.learned = ∅) (unit : String) (v : Quantity) : c.multiplier unit = .ok v ↔
      (UnitExpr.parse c.symbols (normalize unit.toList)).eval = .ok v := by
  have named : unit ∈ c.sizes.keys → unit.toList ≠ [] ∧ normalize unit.toList = unit.toList :=
    fun hu => ⟨(h.size unit hu).ne_nil, (h.size unit hu).normalize_eq⟩
  rw [multiplier_eq_evaluate fresh named, c.evaluate_eq_ok_iff]

/-- **What a converter accepts.** However often a converter has been asked before, it has a value
for just the texts whose normal form is derived by the grammar, namely the value of the only tree
that is derived. -/
theorem multiplier_eq_ok_iff {sizes : OrderedMap String Quantity}
    {nonlinear : OrderedMap String Nonlinear} (h : PlainNames sizes nonlinear) (asked : List String)
    (unit : String) : let c := asked.foldl Converter.learn ⟨sizes, nonlinear, ∅⟩
    (∀ v, c.multiplier unit = .ok v ↔
      ∃ t, Derives c.symbols .expr (normalize unit.toList) t ∧ t.eval = .ok v) ∧
    (∀ t t', Derives c.symbols .expr (normalize unit.toList) t →
      Derives c.symbols .expr (normalize unit.toList) t' → t = t') ∧
    ((¬ ∃ t, Derives c.symbols .expr (normalize unit.toList) t) →
      ∃ e, c.multiplier unit = .error e) := by
  intro c
  obtain ⟨hs, hm⟩ := Converter.foldl_learn ⟨sizes, nonlinear, ∅⟩ asked
  have plain : c.symbols.Plain := by
    rw [hs]
    exact PlainNames.symbols h
  have value : ∀ v, c.multiplier unit = .ok v ↔
      ∃ t, Derives c.symbols .expr (normalize unit.toList) t ∧ t.eval = .ok v := by
    intro v
    rw [hs, hm, Converter.multiplier_eq_ok_iff_eval h rfl]
    rw [hs] at plain
    constructor
    · intro hv
      exact ⟨_, (derives_parse (tidy_normalize _) (UnitExpr.clean_of_eval hv)).expr, hv⟩
    · rintro ⟨t, ht, hv⟩
      rw [ht.parse_eq plain]
      exact hv
  refine ⟨value, fun t t' ht ht' => (ht.parse_eq plain).symm.trans (ht'.parse_eq plain), ?_⟩
  intro none
  cases hv : c.multiplier unit with
  | error e => exact ⟨e, rfl⟩
  | ok v =>
    obtain ⟨t, ht, -⟩ := (value v).1 hv
    exact absurd ⟨t, ht⟩ none

/-- A converter with two units and a scale. -/
def Converter.metreHour : Converter := .only [("m", .real 1), ("h", .real 3600)] [("C", celsius)]

theorem Converter.metreHour_plain :
    PlainNames Converter.metreHour.sizes Converter.metreHour.nonlinear where
  size := by decide +kernel
  nonlinear k hk := by
    obtain rfl : k = "C" := List.mem_singleton.1 hk
    have number : Numeral.parse? "C".toList = none := by decide +kernel
    refine ⟨by decide +kernel, by decide +kernel, fun x hx => ?_⟩
    rw [Numeral.parse?_eq_some_iff.2 hx] at number
    cases number

/-- Blanks are read as products, but not within parentheses at either end. -/
theorem Converter.metreHour_product :
    ∃ v, (["m", "h h"].foldl learn metreHour).multiplier " m   ( h  m )" = .ok v := by
  have text : normalize " m   ( h  m )".toList = ['m'] ++ ' ' :: '(' ::
      ([' '] ++ ((['h'] ++ ' ' :: ['m']) ++ [' ']) ++ [')']) := by decide +kernel
  have known : ∀ s ∈ [['m'], ['h']],
      ((["m", "h h"].foldl learn metreHour).symbols.size? s).isSome := by decide +kernel
  obtain ⟨metre, hm⟩ := Option.isSome_iff_exists.1 (known ['m'] (by simp))
  obtain ⟨hour, hh⟩ := Option.isSome_iff_exists.1 (known ['h'] (by simp))
  obtain ⟨value, -⟩ := multiplier_eq_ok_iff metreHour_plain ["m", "h h"] " m   ( h  m )"
  rw [text] at value
  have inner := Derives.product (.ofTerm (.ofFactor (.symbol hh))) (.ofFactor (.symbol hm))
  have group := Derives.group (.inr rfl) inner (.inr rfl)
  exact ⟨_, (value _).2 ⟨_, .product (.ofTerm (.ofFactor (.symbol hm))) (.ofFactor group), rfl⟩⟩

end TypedTables.Units
