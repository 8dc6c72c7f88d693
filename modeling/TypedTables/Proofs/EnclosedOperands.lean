import TypedTables.Proofs.UnitGrammar
/-!
# Operands in parentheses

To put an operand of a unit expression in parentheses does not change the tree that is derived. It
may change the value, though: a registered name is looked for before a text is cut, so a registered
text that is itself an expression, such as `km/s`, is read as one name as long as no parenthesis
parts it.

Results:
* `Part.derives_enclose`: an operand in parentheses leaves the tree as it is.
* `normalize_enclose`: parentheses are put into a text before or after its blanks are reduced.
* `OpenNames.agrees`: a text has the value of its tree if all registered compounds among its
  operands have the value of theirs.
* `Part.agrees_enclose`: so has the text with an operand in parentheses.
* `Part.eval_enclose`: a text has the same value with an operand in parentheses if the registered
  compounds around the operand have the value of their trees; those beside it do not matter.
* `OpenNames.sumsUp`: if parentheses make no difference, all registered compounds have the value of
  their trees.
* `OpenNames.clean`: such a text has no fault.
-/
namespace TypedTables.Units

open TypedTables.Text (isBlank)
open TypedTables.Decimal

/-! ## Operands -/

/-- A text with its middle in parentheses. -/
def enclose (pre mid post : List Char) : List Char := pre ++ '(' :: (mid ++ ')' :: post)

/-- In the text `pre ++ mid ++ post`, derived by the rule, `mid` stands as an operand: it is the
whole text, or an operand of a part that a step of the derivation has. -/
inductive Part : Symbols → Rule → List Char → List Char → List Char → Prop
  | whole {n rule s t} : Derives n rule s t → Part n rule [] s []
  | ofTerm {n pre mid post} : Part n .term pre mid post → Part n .expr pre mid post
  | ofFactor {n pre mid post} : Part n .factor pre mid post → Part n .term pre mid post
  /-- in what stands left of a `/` or a space -/
  | left {n pre mid post r b op} : op = '/' ∨ op = ' ' → Part n .expr pre mid post →
    Derives n .term r b → Part n .expr pre mid (post ++ op :: r)
  | right {n s a pre mid post op} : op = '/' ∨ op = ' ' → Derives n .expr s a →
    Part n .term pre mid post → Part n .expr (s ++ op :: pre) mid post
  | base {n pre mid post r b} : Part n .factor pre mid post → Derives n .exponent r b →
    Part n .term pre mid (post ++ '^' :: r)
  | exponent {n s a pre mid post} : Derives n .factor s a → Part n .exponent pre mid post →
    Part n .term (s ++ '^' :: pre) mid post
  | group {n l pre mid post r} : Gap l → Part n .expr pre mid post → Gap r →
    Part n .factor ('(' :: (l ++ pre)) mid (post ++ (r ++ [')']))
  | exponentGroup {n l pre mid post r} : Gap l → Part .none .expr pre mid post → Gap r →
    Part n .exponent ('(' :: (l ++ pre)) mid (post ++ (r ++ [')']))

theorem enclose_append (pre mid post r : List Char) :
    enclose pre mid (post ++ r) = enclose pre mid post ++ r := by
  simp [enclose]

theorem append_enclose (s pre mid post : List Char) (c : Char) :
    enclose (s ++ c :: pre) mid post = s ++ c :: enclose pre mid post := by
  simp [enclose]

@[simp] theorem mem_enclose (pre mid post : List Char) : '(' ∈ enclose pre mid post := by
  simp [enclose]

theorem append_part (s pre mid post : List Char) (c : Char) :
    s ++ c :: pre ++ mid ++ post = s ++ c :: (pre ++ mid ++ post) := by
  simp

theorem group_part (l pre mid post r : List Char) :
    '(' :: (l ++ pre) ++ mid ++ (post ++ (r ++ [')'])) =
      '(' :: (l ++ (pre ++ mid ++ post ++ r) ++ [')']) := by
  simp

theorem enclose_whole (s : List Char) : enclose [] s [] = '(' :: ([] ++ (s ++ []) ++ [')']) := by
  simp [enclose]

theorem enclose_group (l pre mid post r : List Char) :
    enclose ('(' :: (l ++ pre)) mid (post ++ (r ++ [')'])) =
      '(' :: (l ++ (enclose pre mid post ++ r) ++ [')']) := by
  simp [enclose]

theorem Derives.expr {n : Symbols} {rule : Rule} {s : List Char} {t : UnitExpr}
    (h : Derives n rule s t) (hr : rule ≠ .exponent) : Derives n .expr s t := by
  cases rule with
  | expr => exact h
  | term => exact .ofTerm h
  | factor => exact .ofTerm (.ofFactor h)
  | exponent => exact absurd rfl hr

/-- An exponent is an expression without symbols. -/
theorem Derives.expr_none {n : Symbols} {s : List Char} {t : UnitExpr}
    (h : Derives n .exponent s t) : Derives .none .expr s t := by
  cases h with
  | exponentNumber hx => exact .ofTerm (.ofFactor (.number rfl hx))
  | exponentGroup hl h hr => exact .ofTerm (.ofFactor (.group hl h hr))

/-- What is derived by a rule is derived by it in parentheses. -/
theorem Derives.enclose {n : Symbols} {rule : Rule} {s : List Char} {t : UnitExpr}
    (h : Derives n rule s t) : Derives n rule (enclose [] s []) t := by
  rw [enclose_whole]
  have nothing : Gap [] := .inl rfl
  cases rule with
  | expr => exact .ofTerm (.ofFactor (.group nothing h nothing))
  | term => exact .ofFactor (.group nothing (.ofTerm h) nothing)
  | factor => exact .group nothing (.ofTerm (.ofFactor h)) nothing
  | exponent => exact .exponentGroup nothing h.expr_none nothing

/-- Two texts with the same parts by either operator have the same tree. -/
theorem Derives.join {n : Symbols} {s s' r r' : List Char} {a b : UnitExpr} {op : Char}
    (hop : op = '/' ∨ op = ' ') (hs : Derives n .expr s a) (hs' : Derives n .expr s' a)
    (hr : Derives n .term r b) (hr' : Derives n .term r' b) :
    ∃ t, Derives n .expr (s ++ op :: r) t ∧ Derives n .expr (s' ++ op :: r') t := by
  rcases hop with rfl | rfl
  · exact ⟨_, .quotient hs hr, .quotient hs' hr'⟩
  · exact ⟨_, .product hs hr, .product hs' hr'⟩

/-- **One tree.** A text has the same tree with an operand in parentheses. -/
theorem Part.derives_enclose {n : Symbols} {rule : Rule} {pre mid post : List Char}
    (h : Part n rule pre mid post) :
    ∃ t, Derives n rule (pre ++ mid ++ post) t ∧ Derives n rule (enclose pre mid post) t := by
  induction h with
  | whole h =>
    refine ⟨_, ?_, h.enclose⟩
    rw [List.nil_append, List.append_nil]
    exact h
  | ofTerm _ ih =>
    obtain ⟨t, ht, he⟩ := ih
    exact ⟨t, .ofTerm ht, .ofTerm he⟩
  | ofFactor _ ih =>
    obtain ⟨t, ht, he⟩ := ih
    exact ⟨t, .ofFactor ht, .ofFactor he⟩
  | left hop _ hr ih =>
    obtain ⟨t, ht, he⟩ := ih
    rw [enclose_append, ← List.append_assoc]
    exact ht.join hop he hr hr
  | right hop hs _ ih =>
    obtain ⟨t, ht, he⟩ := ih
    rw [append_enclose, append_part]
    exact hs.join hop hs ht he
  | base _ hr ih =>
    obtain ⟨t, ht, he⟩ := ih
    rw [enclose_append, ← List.append_assoc]
    exact ⟨_, .power ht hr, .power he hr⟩
  | exponent hs _ ih =>
    obtain ⟨t, ht, he⟩ := ih
    rw [append_enclose, append_part]
    exact ⟨_, .power hs ht, .power hs he⟩
  | group hl _ hr ih =>
    obtain ⟨t, ht, he⟩ := ih
    rw [enclose_group, group_part]
    exact ⟨t, .group hl ht hr, .group hl he hr⟩
  | exponentGroup hl _ hr ih =>
    obtain ⟨t, ht, he⟩ := ih
    rw [enclose_group, group_part]
    exact ⟨t, .exponentGroup hl ht hr, .exponentGroup hl he hr⟩

theorem not_isPlain_operator {op : Char} (h : op = '/' ∨ op = ' ') : ¬ isPlain op := by
  rcases h with rfl | rfl <;> decide

/-- What stands before an operand ends with an operator, a space or a parenthesis. -/
theorem Part.not_isPlain_before {n : Symbols} {rule : Rule} {pre mid post : List Char}
    (h : Part n rule pre mid post) : ∀ x ∈ pre.getLast?, ¬ isPlain x := by
  have after : ∀ {s pre : List Char} {op : Char}, ¬ isPlain op → (∀ x ∈ pre.getLast?, ¬ isPlain x) →
      ∀ x ∈ (s ++ op :: pre).getLast?, ¬ isPlain x := by
    intro s pre op hop ih x hx
    cases hl : pre.getLast? with
    | none =>
      obtain rfl := List.getLast?_eq_none_iff.1 hl
      obtain rfl : op = x := by simpa using hx
      exact hop
    | some y =>
      obtain rfl : y = x := by simpa [List.getLast?_append, List.getLast?_cons, hl] using hx
      exact ih y hl
  have opened : ∀ {l pre : List Char}, Gap l → (∀ x ∈ pre.getLast?, ¬ isPlain x) →
      ∀ x ∈ ('(' :: (l ++ pre)).getLast?, ¬ isPlain x := by
    rintro l pre (rfl | rfl) ih
    · exact after (s := []) (by decide) ih
    · exact after (s := ['(']) (by decide) ih
  induction h with
  | whole => simp
  | ofTerm _ ih | ofFactor _ ih | left _ _ _ ih | base _ _ ih => exact ih
  | right hop _ _ ih => exact after (not_isPlain_operator hop) ih
  | exponent _ _ ih => exact after (by decide) ih
  | group hl _ _ ih | exponentGroup hl _ _ ih => exact opened hl ih

/-- **Parentheses in any text.** To put a part of a text in parentheses that begins and ends with a
character other than a blank or an operator puts it in parentheses in the normal form too. -/
theorem normalize_enclose {a m b : List Char} (head : ∃ c ∈ m.head?, ¬ isBlank c ∧ ¬ isTight c)
    (last : ∃ c ∈ m.getLast?, ¬ isBlank c ∧ ¬ isTight c) :
    ∃ pre post, normalize (a ++ m ++ b) = pre ++ normalize m ++ post ∧
      normalize (enclose a m b) = enclose pre (normalize m) post := by
  obtain ⟨x, hx, hx'⟩ := head
  obtain ⟨y, hy, hy'⟩ := last
  obtain ⟨m₂, hm₂⟩ := List.head?_eq_some_iff.1 hx
  obtain ⟨m₁, hm₁⟩ := List.getLast?_eq_some_iff.1 hy
  obtain ⟨out, after, read⟩ := exists_reduceBlanks_append .operator a
  have middle : ∀ before, reduceBlanks before m = before.pending ++ normalize m := by
    intro before
    rw [normalize_eq, hm₂, reduceBlanks_cons _ hx', reduceBlanks_cons _ hx']
    rfl
  have split : ∀ before r, reduceBlanks before (m ++ r) =
      before.pending ++ normalize m ++ reduceBlanks .operand r := by
    intro before r
    rw [← middle, hm₁, List.append_assoc, List.singleton_append, reduceBlanks_append before hy']
  have opening : ¬ isBlank '(' ∧ ¬ isTight '(' := by decide
  have closing : ¬ isBlank ')' ∧ ¬ isTight ')' := by decide
  refine ⟨out ++ after.pending, reduceBlanks .operand b, ?_, ?_⟩
  · rw [normalize_eq, List.append_assoc, read, split]
    simp
  · unfold enclose
    rw [normalize_eq, read, reduceBlanks_cons _ opening, split, reduceBlanks_cons _ closing]
    simp [Before.pending]

/-! ## Texts that are cut alike

Two texts, read with names of their own, have the same value if they are cut at the same operator
and their parts have the same values. -/
section Alike

variable {n m : Symbols} {s s' r r' : List Char}

theorem eval_join {op : Char} (hop : op = '/' ∨ op = ' ') (hn : Unread n (s ++ op :: r))
    (hm : Unread m (s' ++ op :: r')) (hs : Operand s) (hs' : Operand s')
    (hr : Operand r ∧ cutLast? 0 r = none) (hr' : Operand r' ∧ cutLast? 0 r' = none)
    (left : (UnitExpr.parse n s).eval = (UnitExpr.parse m s').eval)
    (right : (UnitExpr.parse n r).eval = (UnitExpr.parse m r').eval) :
    (UnitExpr.parse n (s ++ op :: r)).eval = (UnitExpr.parse m (s' ++ op :: r')).eval := by
  rw [parse_join hn hs hr.1 hop hr.2, parse_join hm hs' hr'.1 hop hr'.2]
  split <;> simp only [UnitExpr.eval, left, right]

theorem eval_power (hn : Unread n (s ++ '^' :: r)) (hm : Unread m (s' ++ '^' :: r'))
    (hs : Operand s ∧ cutLast? 0 s = none ∧ cutCaret? 0 s = none)
    (hs' : Operand s' ∧ cutLast? 0 s' = none ∧ cutCaret? 0 s' = none)
    (hr : Operand r ∧ cutLast? 0 r = none) (hr' : Operand r' ∧ cutLast? 0 r' = none)
    (base : (UnitExpr.parse n s).eval = (UnitExpr.parse m s').eval)
    (exponent : (Exponent.of r).tree = (Exponent.of r').tree) :
    (UnitExpr.parse n (s ++ '^' :: r)).eval = (UnitExpr.parse m (s' ++ '^' :: r')).eval := by
  rw [parse_power hn hs.1 hr.1 hs.2.1 hs.2.2 hr.2,
    parse_power hm hs'.1 hr'.1 hs'.2.1 hs'.2.2 hr'.2]
  simp only [UnitExpr.eval, base, exponent]

theorem eval_group {l g : List Char} (hl : Gap l) (hg : Gap g)
    (hn : Unread n ('(' :: (l ++ (s ++ g) ++ [')'])))
    (hm : Unread m ('(' :: (l ++ (s' ++ g) ++ [')']))) (hs : Operand s) (hs' : Operand s')
    (inner : (UnitExpr.parse n s).eval = (UnitExpr.parse m s').eval) :
    (UnitExpr.parse n ('(' :: (l ++ (s ++ g) ++ [')']))).eval =
      (UnitExpr.parse m ('(' :: (l ++ (s' ++ g) ++ [')']))).eval := by
  rw [parse_group hn hl hs hg, parse_group hm hl hs' hg]
  exact inner

end Alike

/-! What the texts of a rule have in common. -/
section Texts

variable {n : Symbols} {s : List Char} {t : UnitExpr} (hn : n.Plain)
include hn

theorem Derives.operand {rule : Rule} (h : Derives n rule s t) : Operand s := (h.reads hn).1

theorem Derives.term_text (h : Derives n .term s t) : Operand s ∧ cutLast? 0 s = none :=
  ⟨h.operand hn, (h.reads hn).2.2⟩

theorem Derives.factor_text (h : Derives n .factor s t) :
    Operand s ∧ cutLast? 0 s = none ∧ cutCaret? 0 s = none :=
  ⟨h.operand hn, (h.reads hn).2.2⟩

theorem Derives.exponent_text (h : Derives n .exponent s t) : Operand s ∧ cutLast? 0 s = none :=
  ⟨h.operand hn, (h.reads hn).2.2⟩

end Texts

/-! ## Registered compounds -/

/-- The names that are no expressions. -/
def Symbols.plain (n : Symbols) : Symbols where
  size? s := if PlainText s then n.size? s else Option.none
  isNonlinear s := n.isNonlinear s && (n.size? s).isNone

/-- The names have no parentheses, and those of nonlinear units are no expressions. -/
structure OpenNames (n : Symbols) : Prop where
  size : ∀ s q, n.size? s = some q → '(' ∉ s
  nonlinear : ∀ s, n.isNonlinear s → PlainText s ∧ ∀ x, ¬ NumberText s x

/-- If the text has a registered size, it is the value of its tree over the plain names. -/
def Symbols.SumsUp (n : Symbols) (s : List Char) : Prop :=
  ∀ q t, n.size? s = some q → Derives n.plain .expr s t → t.eval = .ok q

/-- All registered texts among the operands of the text sum up. -/
def Symbols.AllSumUp (n : Symbols) (rule : Rule) (s : List Char) : Prop :=
  ∀ pre k post, Part n.plain rule pre k post → pre ++ k ++ post = s → n.SumsUp k

namespace Symbols.AllSumUp

variable {n : Symbols} {s r : List Char} {a b : UnitExpr}

theorem self {rule : Rule} (h : n.AllSumUp rule s) (hs : Derives n.plain rule s a) : n.SumsUp s :=
  h [] s [] (.whole hs) (List.append_nil s)

theorem ofTerm (h : n.AllSumUp .expr s) : n.AllSumUp .term s :=
  fun _ _ _ part => h _ _ _ (.ofTerm part)

theorem ofFactor (h : n.AllSumUp .term s) : n.AllSumUp .factor s :=
  fun _ _ _ part => h _ _ _ (.ofFactor part)

theorem join {op : Char} (h : n.AllSumUp .expr (s ++ op :: r)) (hop : op = '/' ∨ op = ' ')
    (hs : Derives n.plain .expr s a) (hr : Derives n.plain .term r b) :
    n.AllSumUp .expr s ∧ n.AllSumUp .term r := by
  constructor
  · rintro pre k post part rfl
    exact h _ k _ (.left hop part hr) (List.append_assoc _ _ _).symm
  · rintro pre k post part rfl
    exact h _ k _ (.right hop hs part) (append_part s pre k post op)

theorem power (h : n.AllSumUp .term (s ++ '^' :: r)) (hr : Derives n.plain .exponent r b) :
    n.AllSumUp .factor s := by
  rintro pre k post part rfl
  exact h _ k _ (.base part hr) (List.append_assoc _ _ _).symm

theorem group {l g : List Char} (h : n.AllSumUp .factor ('(' :: (l ++ (s ++ g) ++ [')'])))
    (hl : Gap l) (hg : Gap g) : n.AllSumUp .expr s := by
  rintro pre k post part rfl
  exact h _ k _ (.group hl part hg) (group_part l pre k post g)

end Symbols.AllSumUp

/-- The registered compounds make no difference to the value of the text. -/
def Symbols.Agrees (n : Symbols) (s : List Char) : Prop :=
  (UnitExpr.parse n s).eval = (UnitExpr.parse n.plain s).eval

theorem Symbols.size?_plain_of_some {n : Symbols} {s : List Char} {q : Quantity}
    (h : n.plain.size? s = some q) : PlainText s ∧ n.size? s = some q := by
  unfold plain at h
  dsimp only at h
  split at h
  · next hs => exact ⟨hs, h⟩
  · cases h

theorem Symbols.size?_of_plain {n : Symbols} {s : List Char} (h : n.plain.size? s = Option.none)
    (hs : PlainText s) : n.size? s = Option.none := by
  unfold plain at h
  dsimp only at h
  rwa [if_pos hs] at h

theorem Symbols.size?_plain_eq_none {n : Symbols} {s : List Char} (h : n.size? s = Option.none) :
    n.plain.size? s = Option.none := by
  unfold plain
  dsimp only
  rw [h, ite_self]

theorem Symbols.agrees_symbol {n : Symbols} {s : List Char} {q : Quantity}
    (hs : n.plain.size? s = some q) : n.Agrees s := by
  obtain ⟨plain, hs'⟩ := size?_plain_of_some hs
  unfold Agrees
  rw [parse_symbol plain.ne_nil hs', parse_symbol plain.ne_nil hs]

namespace Symbols.Agrees

variable {n : Symbols} {s r : List Char}

theorem join {op : Char} (hs : n.Agrees s) (hop : op = '/' ∨ op = ' ')
    (un : Unread n (s ++ op :: r) ∧ Unread n.plain (s ++ op :: r)) (left : Operand s)
    (right : Operand r ∧ cutLast? 0 r = Option.none) (hr : n.Agrees r) : n.Agrees (s ++ op :: r) :=
  eval_join hop un.1 un.2 left left right right hs hr

theorem power (hs : n.Agrees s) (un : Unread n (s ++ '^' :: r) ∧ Unread n.plain (s ++ '^' :: r))
    (base : Operand s ∧ cutLast? 0 s = Option.none ∧ cutCaret? 0 s = Option.none)
    (exponent : Operand r ∧ cutLast? 0 r = Option.none) : n.Agrees (s ++ '^' :: r) :=
  eval_power un.1 un.2 base base exponent exponent hs rfl

theorem group {l g : List Char} (hs : n.Agrees s) (hl : Gap l) (hg : Gap g)
    (un : Unread n ('(' :: (l ++ (s ++ g) ++ [')'])) ∧
      Unread n.plain ('(' :: (l ++ (s ++ g) ++ [')'])))
    (inner : Operand s) : n.Agrees ('(' :: (l ++ (s ++ g) ++ [')'])) :=
  eval_group hl hg un.1 un.2 inner inner hs

end Symbols.Agrees

namespace OpenNames

variable {n : Symbols} (hn : OpenNames n)
include hn

theorem plain : n.plain.Plain where
  size s q h := (Symbols.size?_plain_of_some h).1
  nonlinear s h := by
    obtain ⟨h, free⟩ := Bool.and_eq_true_iff.1 h
    obtain ⟨plain, number⟩ := hn.nonlinear s h
    exact ⟨plain, Symbols.size?_plain_eq_none (Option.isNone_iff_eq_none.1 free), number⟩

theorem unread {s : List Char} {c : Char} (hc : c ∈ s) (hp : ¬ isPlain c)
    (hs : n.size? s = none) : Unread n s where
  ne_nil := List.ne_nil_of_mem hc
  size := hs
  nonlinear h := hp ((hn.nonlinear s h).1.plain c hc)

/-- A text with a parenthesis is no name. -/
theorem size?_eq_none {s : List Char} (hs : '(' ∈ s) : n.size? s = none :=
  Option.eq_none_iff_forall_not_mem.2 fun q hq => hn.size s q hq hs

theorem agrees_number {s : List Char} {x : Numeral} (hs : n.plain.size? s = none)
    (hx : NumberText s x) : n.Agrees s := by
  have free := Symbols.size?_of_plain hs (plainText_number hx)
  have unread : Unread n s := ⟨hx.ne_nil, free, fun h => (hn.nonlinear s h).2 x hx⟩
  unfold Symbols.Agrees
  rw [parse_number unread hx, parse_number (hn.plain.unread_number hs hx) hx]

/-- The tree of a plain name is the name. -/
theorem sumsUp_of_plainText {s : List Char} (hs : PlainText s) : n.SumsUp s := by
  intro q t hq ht
  have size : n.plain.size? s = some q := (if_pos hs).trans hq
  rw [← ht.parse_eq hn.plain, parse_symbol hs.ne_nil size]
  rfl

/-- A text with an operator or a parenthesis is no plain name. -/
theorem unread_both {s : List Char} {c : Char} (hc : c ∈ s) (hp : ¬ isPlain c)
    (hs : n.size? s = none) : Unread n s ∧ Unread n.plain s :=
  ⟨hn.unread hc hp hs, hn.plain.unread hc hp⟩

theorem unread_paren {s : List Char} (h : '(' ∈ s) : Unread n s ∧ Unread n.plain s :=
  hn.unread_both h (by decide) (hn.size?_eq_none h)

/-- A registered text that sums up agrees, so the others remain. -/
theorem agrees_of_free {rule : Rule} {s : List Char} {t : UnitExpr} (h : Derives n.plain rule s t)
    (hr : rule ≠ .exponent) (all : n.AllSumUp rule s) (free : n.size? s = none → n.Agrees s) :
    n.Agrees s := by
  cases hq : n.size? s with
  | none => exact free hq
  | some q =>
    have tree := h.expr hr
    unfold Symbols.Agrees
    rw [parse_symbol (h.reads hn.plain).1.ne_nil hq, tree.parse_eq hn.plain,
      all.self h q t hq tree]
    rfl

/-- **From parts.** A text has the value of its tree if all registered compounds among its operands
have the value of theirs. -/
theorem agrees {rule : Rule} {s : List Char} {t : UnitExpr} (h : Derives n.plain rule s t)
    (all : n.AllSumUp rule s) (hr : rule ≠ .exponent) : n.Agrees s := by
  have join : ∀ {s r a b op}, op = '/' ∨ op = ' ' → Derives n.plain .expr s a →
      Derives n.plain .term r b → n.AllSumUp .expr (s ++ op :: r) →
      n.Agrees s → n.Agrees r → n.Agrees (s ++ op :: r) := by
    intro s r a b op hop hs hr all left right
    obtain ⟨t, ht, -⟩ := hs.join hop hs hr hr
    refine hn.agrees_of_free ht (by simp) all fun free => ?_
    have un := hn.unread_both (c := op) (by simp) (not_isPlain_operator hop) free
    exact left.join hop un (hs.operand hn.plain) (hr.term_text hn.plain) right
  generalize hm : n.plain = m at h
  induction h with
  | ofTerm h ih => exact ih all.ofTerm (by simp) hm
  | ofFactor h ih => exact ih all.ofFactor (by simp) hm
  | quotient hs hr ihs ihr =>
    subst hm
    obtain ⟨allS, allR⟩ := all.join (.inl rfl) hs hr
    exact join (.inl rfl) hs hr all (ihs allS (by simp) rfl) (ihr allR (by simp) rfl)
  | product hs hr ihs ihr =>
    subst hm
    obtain ⟨allS, allR⟩ := all.join (.inr rfl) hs hr
    exact join (.inr rfl) hs hr all (ihs allS (by simp) rfl) (ihr allR (by simp) rfl)
  | power hs hr ihs _ =>
    subst hm
    refine hn.agrees_of_free (.power hs hr) (by simp) all fun free => ?_
    have un := hn.unread_both (c := '^') (by simp) (by decide) free
    exact (ihs (all.power hr) (by simp) rfl).power un (hs.factor_text hn.plain)
      (hr.exponent_text hn.plain)
  | symbol hq =>
    subst hm
    exact Symbols.agrees_symbol hq
  | number hs hx =>
    subst hm
    exact hn.agrees_number hs hx
  | group hl hs hg ih =>
    subst hm
    exact (ih (all.group hl hg) (by simp) rfl).group hl hg (hn.unread_paren List.mem_cons_self)
      (hs.operand hn.plain)
  | exponentNumber | exponentGroup => exact absurd rfl hr

end OpenNames

/-- **In parentheses.** So has the text with one of its operands in parentheses. -/
theorem Part.agrees_enclose {n : Symbols} (hn : OpenNames n) {rule : Rule}
    {pre mid post : List Char} (h : Part n.plain rule pre mid post)
    (all : n.AllSumUp rule (pre ++ mid ++ post)) (hr : rule ≠ .exponent) :
    n.Agrees (enclose pre mid post) := by
  generalize hm : n.plain = m at h
  induction h with
  | whole h =>
    subst hm
    rw [List.nil_append, List.append_nil] at all
    rw [enclose_whole]
    exact (hn.agrees h all hr).group (.inl rfl) (.inl rfl) (hn.unread_paren List.mem_cons_self)
      (h.operand hn.plain)
  | ofTerm _ ih => exact ih all.ofTerm (by simp) hm
  | ofFactor _ ih => exact ih all.ofFactor (by simp) hm
  | left hop part hr ih =>
    subst hm
    obtain ⟨t, ht, he⟩ := part.derives_enclose
    rw [← List.append_assoc] at all
    obtain ⟨allS, allR⟩ := all.join hop ht hr
    rw [enclose_append]
    exact (ih allS (by simp) rfl).join hop (hn.unread_paren (by simp)) (he.operand hn.plain)
      (hr.term_text hn.plain) (hn.agrees hr allR (by simp))
  | right hop hs part ih =>
    subst hm
    obtain ⟨t, ht, he⟩ := part.derives_enclose
    rw [append_part] at all
    obtain ⟨allS, allR⟩ := all.join hop hs ht
    rw [append_enclose]
    exact (hn.agrees hs allS (by simp)).join hop (hn.unread_paren (by simp)) (hs.operand hn.plain)
      (he.term_text hn.plain) (ih allR (by simp) rfl)
  | base part hr ih =>
    subst hm
    obtain ⟨t, ht, he⟩ := part.derives_enclose
    rw [← List.append_assoc] at all
    rw [enclose_append]
    exact (ih (all.power hr) (by simp) rfl).power (hn.unread_paren (by simp))
      (he.factor_text hn.plain) (hr.exponent_text hn.plain)
  | exponent hs part _ =>
    subst hm
    obtain ⟨t, ht, he⟩ := part.derives_enclose
    rw [append_part] at all
    rw [append_enclose]
    exact (hn.agrees hs (all.power ht) (by simp)).power (hn.unread_paren (by simp))
      (hs.factor_text hn.plain) (he.exponent_text hn.plain)
  | group hl part hg ih =>
    subst hm
    obtain ⟨t, ht, he⟩ := part.derives_enclose
    rw [group_part] at all
    rw [enclose_group]
    exact (ih (all.group hl hg) (by simp) rfl).group hl hg (hn.unread_paren List.mem_cons_self)
      (he.operand hn.plain)
  | exponentGroup => exact absurd rfl hr

/-- In the text `pre ++ mid ++ post`, derived by the rule, `k` stands as an operand that holds `mid`
and more. -/
def StandsAround (n : Symbols) (rule : Rule) (pre mid post k : List Char) : Prop :=
  ∃ a c d b, pre = a ++ c ∧ post = d ++ b ∧ k = c ++ mid ++ d ∧ (c ≠ [] ∨ d ≠ []) ∧
    Part n rule a k b

/-- The registered texts around an operand sum up, and so do all operands of theirs. -/
def Symbols.SumUpAround (n : Symbols) (rule : Rule) (pre mid post : List Char) : Prop :=
  ∀ k, StandsAround n.plain rule pre mid post k → n.size? k ≠ Option.none → n.AllSumUp .expr k

namespace Symbols.SumUpAround

variable {n : Symbols} {pre mid post s r : List Char} {a b : UnitExpr} {op : Char}

theorem ofTerm (h : n.SumUpAround .expr pre mid post) : n.SumUpAround .term pre mid post := by
  rintro k ⟨a, c, d, b, hpre, hpost, hk, more, part⟩
  exact h k ⟨a, c, d, b, hpre, hpost, hk, more, .ofTerm part⟩

theorem ofFactor (h : n.SumUpAround .term pre mid post) : n.SumUpAround .factor pre mid post := by
  rintro k ⟨a, c, d, b, hpre, hpost, hk, more, part⟩
  exact h k ⟨a, c, d, b, hpre, hpost, hk, more, .ofFactor part⟩

theorem left (h : n.SumUpAround .expr pre mid (post ++ op :: r)) (hop : op = '/' ∨ op = ' ')
    (hr : Derives n.plain .term r b) : n.SumUpAround .expr pre mid post := by
  rintro k ⟨a, c, d, b, hpre, rfl, hk, more, part⟩
  exact h k ⟨a, c, d, _, hpre, List.append_assoc .., hk, more, .left hop part hr⟩

theorem right (h : n.SumUpAround .expr (s ++ op :: pre) mid post) (hop : op = '/' ∨ op = ' ')
    (hs : Derives n.plain .expr s a) : n.SumUpAround .term pre mid post := by
  rintro k ⟨a, c, d, b, rfl, hpost, hk, more, part⟩
  exact h k ⟨s ++ op :: a, c, d, b, by simp, hpost, hk, more, .right hop hs part⟩

theorem base (h : n.SumUpAround .term pre mid (post ++ '^' :: r))
    (hr : Derives n.plain .exponent r b) : n.SumUpAround .factor pre mid post := by
  rintro k ⟨a, c, d, b, hpre, rfl, hk, more, part⟩
  exact h k ⟨a, c, d, _, hpre, List.append_assoc .., hk, more, .base part hr⟩

theorem group {l g : List Char}
    (h : n.SumUpAround .factor ('(' :: (l ++ pre)) mid (post ++ (g ++ [')']))) (hl : Gap l)
    (hg : Gap g) : n.SumUpAround .expr pre mid post := by
  rintro k ⟨a, c, d, b, rfl, rfl, hk, more, part⟩
  exact h k ⟨'(' :: (l ++ a), c, d, b ++ (g ++ [')']), by simp, by simp, hk, more,
    .group hl part hg⟩

end Symbols.SumUpAround

theorem Part.expr {n : Symbols} {rule : Rule} {pre mid post : List Char}
    (h : Part n rule pre mid post) (hr : rule ≠ .exponent) : Part n .expr pre mid post := by
  cases rule with
  | expr => exact h
  | term => exact .ofTerm h
  | factor => exact .ofTerm (.ofFactor h)
  | exponent => exact absurd rfl hr

/-- If all operands sum up, both texts have the value of the tree. -/
theorem Part.eval_enclose_of_allSumUp {n : Symbols} (hn : OpenNames n) {pre mid post : List Char}
    (h : Part n.plain .expr pre mid post) (all : n.AllSumUp .expr (pre ++ mid ++ post)) :
    (UnitExpr.parse n (enclose pre mid post)).eval =
      (UnitExpr.parse n (pre ++ mid ++ post)).eval := by
  obtain ⟨t, ht, he⟩ := h.derives_enclose
  calc (UnitExpr.parse n (enclose pre mid post)).eval
      = (UnitExpr.parse n.plain (enclose pre mid post)).eval := h.agrees_enclose hn all (by simp)
    _ = (UnitExpr.parse n.plain (pre ++ mid ++ post)).eval := by
      rw [he.parse_eq hn.plain, ht.parse_eq hn.plain]
    _ = (UnitExpr.parse n (pre ++ mid ++ post)).eval := (hn.agrees ht all (by simp)).symm

/-- A text has the same value with its middle in parentheses. -/
def Symbols.KeepsValue (n : Symbols) (pre mid post : List Char) : Prop :=
  (UnitExpr.parse n (enclose pre mid post)).eval = (UnitExpr.parse n (pre ++ mid ++ post)).eval

namespace OpenNames

variable {n : Symbols} (hn : OpenNames n) {rule : Rule} {pre mid post s r l g : List Char}
  {a b t : UnitExpr} {op : Char}
include hn

/-- On the way to the operand a registered text has the value of its tree, so the others remain,
which are cut. -/
theorem keepsValue_of_free (part : Part n.plain rule pre mid post) (hr : rule ≠ .exponent)
    (around : n.SumUpAround rule pre mid post) (more : pre ≠ [] ∨ post ≠ [])
    (free : n.size? (pre ++ mid ++ post) = none → n.KeepsValue pre mid post) :
    n.KeepsValue pre mid post := by
  by_cases hq : n.size? (pre ++ mid ++ post) = none
  · exact free hq
  · obtain ⟨t, ht, -⟩ := part.derives_enclose
    exact (part.expr hr).eval_enclose_of_allSumUp hn
      (around _ ⟨[], pre, post, [], rfl, (List.append_nil _).symm, rfl, more, .whole ht⟩ hq)

theorem keepsValue_whole (h : Derives n.plain rule s t) : n.KeepsValue [] s [] := by
  obtain ⟨un, -⟩ := hn.unread_paren (mem_enclose [] s [])
  unfold Symbols.KeepsValue
  rw [enclose_whole] at un ⊢
  rw [parse_group un (.inl rfl) (h.operand hn.plain) (.inl rfl), List.nil_append, List.append_nil]

theorem keepsValue_left (hop : op = '/' ∨ op = ' ') (part : Part n.plain .expr pre mid post)
    (hr : Derives n.plain .term r b) (around : n.SumUpAround .expr pre mid (post ++ op :: r))
    (left : n.KeepsValue pre mid post) : n.KeepsValue pre mid (post ++ op :: r) := by
  refine hn.keepsValue_of_free (.left hop part hr) (by simp) around (by simp) fun free => ?_
  obtain ⟨t, ht, he⟩ := part.derives_enclose
  obtain ⟨un', -⟩ := hn.unread_paren (mem_enclose pre mid (post ++ op :: r))
  unfold Symbols.KeepsValue
  rw [← List.append_assoc] at free ⊢
  rw [enclose_append] at un' ⊢
  have un := hn.unread (c := op) (by simp) (not_isPlain_operator hop) free
  have right := hr.term_text hn.plain
  exact eval_join hop un' un (he.operand hn.plain) (ht.operand hn.plain) right right left rfl

theorem keepsValue_right (hop : op = '/' ∨ op = ' ') (hs : Derives n.plain .expr s a)
    (part : Part n.plain .term pre mid post)
    (around : n.SumUpAround .expr (s ++ op :: pre) mid post)
    (right : n.KeepsValue pre mid post) : n.KeepsValue (s ++ op :: pre) mid post := by
  refine hn.keepsValue_of_free (.right hop hs part) (by simp) around (by simp) fun free => ?_
  obtain ⟨t, ht, he⟩ := part.derives_enclose
  obtain ⟨un', -⟩ := hn.unread_paren (mem_enclose (s ++ op :: pre) mid post)
  unfold Symbols.KeepsValue
  rw [append_part] at free ⊢
  rw [append_enclose] at un' ⊢
  have un := hn.unread (c := op) (by simp) (not_isPlain_operator hop) free
  have left := hs.operand hn.plain
  exact eval_join hop un' un left left (he.term_text hn.plain) (ht.term_text hn.plain) rfl right

theorem keepsValue_base (part : Part n.plain .factor pre mid post)
    (hr : Derives n.plain .exponent r b) (around : n.SumUpAround .term pre mid (post ++ '^' :: r))
    (base : n.KeepsValue pre mid post) : n.KeepsValue pre mid (post ++ '^' :: r) := by
  refine hn.keepsValue_of_free (.base part hr) (by simp) around (by simp) fun free => ?_
  obtain ⟨t, ht, he⟩ := part.derives_enclose
  obtain ⟨un', -⟩ := hn.unread_paren (mem_enclose pre mid (post ++ '^' :: r))
  unfold Symbols.KeepsValue
  rw [← List.append_assoc] at free ⊢
  rw [enclose_append] at un' ⊢
  have un := hn.unread (c := '^') (by simp) (by decide) free
  have exponent := hr.exponent_text hn.plain
  exact eval_power un' un (he.factor_text hn.plain) (ht.factor_text hn.plain) exponent exponent
    base rfl

/-- An exponent is read without names, so its tree decides. -/
theorem keepsValue_exponent (hs : Derives n.plain .factor s a)
    (part : Part n.plain .exponent pre mid post)
    (around : n.SumUpAround .term (s ++ '^' :: pre) mid post) :
    n.KeepsValue (s ++ '^' :: pre) mid post := by
  refine hn.keepsValue_of_free (.exponent hs part) (by simp) around (by simp) fun free => ?_
  obtain ⟨t, ht, he⟩ := part.derives_enclose
  obtain ⟨un', -⟩ := hn.unread_paren (mem_enclose (s ++ '^' :: pre) mid post)
  unfold Symbols.KeepsValue
  rw [append_part] at free ⊢
  rw [append_enclose] at un' ⊢
  have un := hn.unread (c := '^') (by simp) (by decide) free
  have base := hs.factor_text hn.plain
  have tree := (he.reads hn.plain).2.1.trans (ht.reads hn.plain).2.1.symm
  exact eval_power un' un base base (he.exponent_text hn.plain) (ht.exponent_text hn.plain) rfl tree

theorem keepsValue_group (hl : Gap l) (part : Part n.plain .expr pre mid post) (hg : Gap g)
    (inner : n.KeepsValue pre mid post) :
    n.KeepsValue ('(' :: (l ++ pre)) mid (post ++ (g ++ [')'])) := by
  obtain ⟨t, ht, he⟩ := part.derives_enclose
  obtain ⟨un', -⟩ := hn.unread_paren (mem_enclose ('(' :: (l ++ pre)) mid (post ++ (g ++ [')'])))
  obtain ⟨un, -⟩ := hn.unread_paren (s := '(' :: (l ++ (pre ++ mid ++ post ++ g) ++ [')']))
    List.mem_cons_self
  unfold Symbols.KeepsValue
  rw [group_part]
  rw [enclose_group] at un' ⊢
  exact eval_group hl hg un' un (he.operand hn.plain) (ht.operand hn.plain) inner

end OpenNames

/-- **What stands around.** A text has the same value with an operand in parentheses if the
registered compounds around the operand have the value of their trees. -/
theorem Part.eval_enclose {n : Symbols} (hn : OpenNames n) {rule : Rule} {pre mid post : List Char}
    (h : Part n.plain rule pre mid post) (around : n.SumUpAround rule pre mid post)
    (hr : rule ≠ .exponent) : (UnitExpr.parse n (enclose pre mid post)).eval =
      (UnitExpr.parse n (pre ++ mid ++ post)).eval := by
  generalize hm : n.plain = m at h
  induction h with
  | whole h =>
    subst hm
    exact hn.keepsValue_whole h
  | ofTerm _ ih => exact ih around.ofTerm (by simp) hm
  | ofFactor _ ih => exact ih around.ofFactor (by simp) hm
  | left hop part hr ih =>
    subst hm
    exact hn.keepsValue_left hop part hr around (ih (around.left hop hr) (by simp) rfl)
  | right hop hs part ih =>
    subst hm
    exact hn.keepsValue_right hop hs part around (ih (around.right hop hs) (by simp) rfl)
  | base part hr ih =>
    subst hm
    exact hn.keepsValue_base part hr around (ih (around.base hr) (by simp) rfl)
  | exponent hs part _ =>
    subst hm
    exact hn.keepsValue_exponent hs part around
  | group hl part hg ih =>
    subst hm
    exact hn.keepsValue_group hl part hg (ih (around.group hl hg) (by simp) rfl)
  | exponentGroup => exact absurd rfl hr

/-- A registered compound has a shorter operand, with which in parentheses it has the value of its
tree. -/
theorem OpenNames.exists_part {n : Symbols} (hn : OpenNames n) {s : List Char} {q : Quantity}
    {t : UnitExpr} (hs : n.size? s = some q) (h : Derives n.plain .expr s t)
    (shorter : ∀ {rule r}, r.length < s.length → n.AllSumUp rule r) : PlainText s ∨
      ∃ pre mid post, Part n.plain .expr pre mid post ∧ pre ++ mid ++ post = s ∧
        n.Agrees (enclose pre mid post) := by
  have enclosed : ∀ {rule r a}, Derives n.plain rule r a → rule ≠ .exponent →
      r.length < s.length → n.Agrees (enclose [] r []) :=
    fun hr rule short => (Part.whole hr).agrees_enclose hn (shorter (by simpa using short)) rule
  have join : ∀ {r r' a b op}, op = '/' ∨ op = ' ' → Derives n.plain .expr r a →
      Derives n.plain .term r' b → r ++ op :: r' = s →
      ∃ pre mid post, Part n.plain .expr pre mid post ∧ pre ++ mid ++ post = s ∧
        n.Agrees (enclose pre mid post) := by
    rintro r r' a b op hop hr hr' rfl
    refine ⟨[], r, _, .left hop (.whole hr) hr', by simp, ?_⟩
    rw [enclose_append]
    exact (enclosed hr (by simp) (by simp)).join hop (hn.unread_paren (by simp))
      (hr.enclose.operand hn.plain) (hr'.term_text hn.plain)
      (hn.agrees hr' (shorter (by simp; omega)) (by simp))
  cases h with
  | quotient hr hr' => exact .inr (join (.inl rfl) hr hr' rfl)
  | product hr hr' => exact .inr (join (.inr rfl) hr hr' rfl)
  | ofTerm h =>
    cases h with
    | @power _ r r' _ _ hr hr' =>
      refine .inr ⟨[], r, _, .ofTerm (.base (.whole hr) hr'), by simp, ?_⟩
      rw [enclose_append]
      exact (enclosed hr (by simp) (by simp)).power (hn.unread_paren (by simp))
        (hr.enclose.factor_text hn.plain) (hr'.exponent_text hn.plain)
    | ofFactor h =>
      cases h with
      | symbol hq => exact .inl (Symbols.size?_plain_of_some hq).1
      | number _ hx => exact .inl (plainText_number hx)
      | group => exact absurd List.mem_cons_self (hn.size _ _ hs)

/-- A registered compound is read as a name only where no parenthesis parts it, so if parentheses
make no difference, it has the value of its tree. -/
theorem OpenNames.sumsUp {n : Symbols} (hn : OpenNames n)
    (kept : ∀ pre mid post q, Part n.plain .expr pre mid post →
      (UnitExpr.parse n (pre ++ mid ++ post)).eval = .ok q →
      (UnitExpr.parse n (enclose pre mid post)).eval = .ok q) (s : List Char) : n.SumsUp s := by
  induction hl : s.length using Nat.strongRecOn generalizing s with
  | ind len ih =>
    subst hl
    intro q t hq ht
    have shorter : ∀ {rule r}, r.length < s.length → n.AllSumUp rule r := by
      rintro rule r hr pre k post - rfl
      refine ih k.length ?_ k rfl
      simp only [List.length_append] at hr
      omega
    rcases hn.exists_part hq ht shorter with text | ⟨pre, mid, post, part, rfl, agrees⟩
    · exact hn.sumsUp_of_plainText text q t hq ht
    · obtain ⟨t', ht', he⟩ := part.derives_enclose
      have tree : t' = t := (ht'.parse_eq hn.plain).symm.trans (ht.parse_eq hn.plain)
      have named : (UnitExpr.parse n (pre ++ mid ++ post)).eval = .ok q := by
        rw [parse_symbol (ht.reads hn.plain).1.ne_nil hq]
        rfl
      have value := kept pre mid post q part named
      rwa [agrees, he.parse_eq hn.plain, tree] at value

/-! ## Faults -/

theorem Derives.clean {n : Symbols} {rule : Rule} {s : List Char} {t : UnitExpr}
    (h : Derives n rule s t) : t.Clean := by
  induction h with
  | ofTerm _ ih | ofFactor _ ih | group _ _ _ ih | exponentGroup _ _ _ ih => exact ih
  | quotient _ _ ihs ihr | product _ _ ihs ihr | power _ _ ihs ihr => exact ⟨ihs, ihr⟩
  | symbol | number | exponentNumber => trivial

/-- A text that is derived over the plain names has no fault, whichever registered texts are read as
names. -/
theorem OpenNames.clean {n : Symbols} (hn : OpenNames n) {rule : Rule} {s : List Char}
    {t : UnitExpr} (h : Derives n.plain rule s t) (hr : rule ≠ .exponent) :
    (UnitExpr.parse n s).Clean := by
  have named : ∀ {s : List Char}, Operand s → (n.size? s = none → (UnitExpr.parse n s).Clean) →
      (UnitExpr.parse n s).Clean := by
    intro s hs free
    cases hq : n.size? s with
    | none => exact free hq
    | some q =>
      rw [parse_symbol hs.ne_nil hq]
      trivial
  have join : ∀ {s r a b op}, op = '/' ∨ op = ' ' → Derives n.plain .expr s a →
      Derives n.plain .term r b → (UnitExpr.parse n s).Clean → (UnitExpr.parse n r).Clean →
      (UnitExpr.parse n (s ++ op :: r)).Clean := by
    intro s r a b op hop hs hr left right
    obtain ⟨t, ht, -⟩ := hs.join hop hs hr hr
    refine named (ht.operand hn.plain) fun free => ?_
    have un := hn.unread (c := op) (by simp) (not_isPlain_operator hop) free
    obtain ⟨hro, hl⟩ := hr.term_text hn.plain
    rw [parse_join un (hs.operand hn.plain) hro hop hl]
    split <;> exact ⟨left, right⟩
  generalize hm : n.plain = m at h
  induction h with
  | ofTerm _ ih | ofFactor _ ih => exact ih (by simp) hm
  | quotient hs hr ihs ihr =>
    subst hm
    exact join (.inl rfl) hs hr (ihs (by simp) rfl) (ihr (by simp) rfl)
  | product hs hr ihs ihr =>
    subst hm
    exact join (.inr rfl) hs hr (ihs (by simp) rfl) (ihr (by simp) rfl)
  | power hs hr ihs _ =>
    subst hm
    refine named ((Derives.power hs hr).operand hn.plain) fun free => ?_
    have un := hn.unread (c := '^') (by simp) (by decide) free
    obtain ⟨hso, hsl, hsc⟩ := hs.factor_text hn.plain
    obtain ⟨hro, tree, hrl⟩ := hr.reads hn.plain
    rw [parse_power un hso hro hsl hsc hrl, tree]
    exact ⟨ihs (by simp) rfl, hr.clean⟩
  | symbol hq =>
    subst hm
    obtain ⟨text, hq'⟩ := Symbols.size?_plain_of_some hq
    rw [parse_symbol text.ne_nil hq']
    trivial
  | number hs hx =>
    subst hm
    refine named (plainText_number hx).operand fun free => ?_
    rw [parse_number ⟨hx.ne_nil, free, fun h => (hn.nonlinear _ h).2 _ hx⟩ hx]
    trivial
  | group hl hs hg ih =>
    subst hm
    rw [parse_group (hn.unread_paren (s := '(' :: _) List.mem_cons_self).1 hl (hs.operand hn.plain)
      hg]
    exact ih (by simp) rfl
  | exponentNumber | exponentGroup => exact absurd rfl hr

/-- What goes wrong with a tree that has no fault is arithmetic. -/
theorem UnitExpr.Clean.eval_ne {t : UnitExpr} (h : t.Clean) (f : UnitFault) :
    t.eval ≠ .error (.malformed f) := by
  have operation : ∀ {x y : Except EvalFault Quantity}
      {g : Quantity → Quantity → Except EvalFault Quantity}, x ≠ .error (.malformed f) →
      y ≠ .error (.malformed f) → (∀ a b, g a b ≠ .error (.malformed f)) →
      (x >>= fun a => y >>= g a) ≠ .error (.malformed f) := by
    intro x y g hx hy hg he
    rcases bind_eq_error.1 he with he | ⟨a, -, he⟩
    · exact hx he
    · rcases bind_eq_error.1 he with he | ⟨b, -, he⟩
      · exact hy he
      · exact hg a b he
  have arithmetic : ∀ x : Except ArithmeticFault Quantity,
      x.mapError EvalFault.arithmetic ≠ .error (EvalFault.malformed f) := by
    rintro (e | q) <;> simp [Except.mapError]
  induction t with
  | symbol | number => simp [UnitExpr.eval]
  | fault => exact h.elim
  | product left right ihl ihr =>
    exact operation (ihl h.1) (ihr h.2) fun _ _ he => by cases he
  | quotient left right ihl ihr => exact operation (ihl h.1) (ihr h.2) fun _ _ => arithmetic _
  | power base exponent ihl ihr => exact operation (ihl h.1) (ihr h.2) fun _ _ => arithmetic _

end TypedTables.Units
