import TypedTables.Decimal.Numeral
import TypedTables.Units.Quantity
/-!
# Unit expressions

A compound unit is an expression over symbols and numbers: `/` and a space
(multiplication) share the lowest precedence and associate to the left, `^` binds
tighter, parentheses group. An exponent is a number or a parenthesised expression
without symbols.

`UnitExpr.parse` turns a text into a tree by looking for the operator that is applied
last. A part that cannot be read becomes a `fault` leaf, and `UnitExpr.eval` works from
left to right and stops at the first fault, so a text has one error even if it has
several faults.
-/
namespace TypedTables.Units

open TypedTables.Text (trim isBlank)
open TypedTables.Decimal (Numeral)

/-- What the names inside an expression stand for. -/
structure Symbols where
  /-- the size of a unit -/
  size? : List Char → Option Quantity
  /-- units that are no multiple of another, such as temperature scales -/
  isNonlinear : List Char → Bool

/-- No names at all. -/
def Symbols.none : Symbols := ⟨fun _ => Option.none, fun _ => false⟩

/-- Why a part of an expression cannot be read. -/
inductive UnitFault where
  | emptyOperand
  | nonlinear (name : String)
  | unmatchedClose
  | unmatchedOpen
  | emptyExponent
  | exponentNotNumber
  | unknownSymbol (name : String)
  deriving DecidableEq, Repr

/-! ## Spaces -/

/-- The characters whose surrounding blanks do not multiply. -/
def isTight (c : Char) : Bool := c == '/' || c == '^'

/-- What stands before the rest of a text whose blanks are being reduced. -/
inductive Before where
  | operator
  | operand
  | blank

/-- The spaces that are still to be written. -/
def Before.pending : Before → List Char
  | .blank => [' ']
  | _ => []

/-- What stands before the rest after a blank. -/
def Before.thenBlank : Before → Before
  | .operator => .operator
  | _ => .blank

/-- Drop the blanks around `/` and `^` and at the end, and make every other run of blanks
one space. -/
def reduceBlanks (before : Before) : List Char → List Char
  | [] => []
  | c :: cs =>
    if isTight c then c :: reduceBlanks .operator cs
    else if isBlank c then reduceBlanks before.thenBlank cs
    else before.pending ++ c :: reduceBlanks .operand cs

/-- The form of a unit text in which it is parsed. mirrors `_normalise` -/
def normalize (s : List Char) : List Char := reduceBlanks .operand (trim s)

/-! ## Parentheses -/

/-- Whether the parenthesis that brings the depth to zero is the last character.
mirrors `_closing_paren` -/
def closesAtEnd : Nat → List Char → Bool
  | _, [] => false
  | depth, c :: cs =>
    if c = '(' then closesAtEnd (depth + 1) cs
    else if c = ')' then
      if depth = 1 then cs.isEmpty else closesAtEnd (depth - 1) cs
    else closesAtEnd depth cs

/-- The text inside a pair of parentheses that spans all of `s`. -/
def enclosed? : List Char → Option (List Char)
  | [] => none
  | c :: cs => if c = '(' ∧ closesAtEnd 1 cs then some cs.dropLast else none

/-- The first parenthesis without a partner. -/
def unmatched? : Nat → List Char → Option UnitFault
  | depth, [] => if depth = 0 then none else some .unmatchedOpen
  | depth, c :: cs =>
    if c = '(' then unmatched? (depth + 1) cs
    else if c = ')' then
      if depth = 0 then some .unmatchedClose else unmatched? (depth - 1) cs
    else unmatched? depth cs

/-- The nesting depth after a character. -/
def depthAfter (depth : Nat) (c : Char) : Nat :=
  if c = '(' then depth + 1 else if c = ')' then depth - 1 else depth

/-- Cut at the last `/` or space outside parentheses. -/
def cutLast? : Nat → List Char → Option (List Char × Char × List Char)
  | _, [] => none
  | depth, c :: cs =>
    match cutLast? (depthAfter depth c) cs with
    | some (left, op, right) => some (c :: left, op, right)
    | none => if depth = 0 ∧ (c = '/' ∨ c = ' ') then some ([], c, cs) else none

/-- Cut at the first `^` outside parentheses. -/
def cutCaret? : Nat → List Char → Option (List Char × List Char)
  | _, [] => none
  | depth, c :: cs =>
    if depth = 0 ∧ c = '^' then some ([], cs)
    else (cutCaret? (depthAfter depth c) cs).map fun p => (c :: p.1, p.2)

theorem length_enclosed {s t : List Char} (h : enclosed? s = some t) : t.length < s.length := by
  cases s with
  | nil => simp [enclosed?] at h
  | cons c cs =>
    simp only [enclosed?] at h
    split at h
    · simp only [Option.some.injEq] at h
      subst h
      simp only [List.length_dropLast, List.length_cons]
      omega
    · simp at h

theorem length_cutLast {d : Nat} {s l r : List Char} {op : Char}
    (h : cutLast? d s = some (l, op, r)) : l.length + r.length + 1 = s.length := by
  induction s generalizing d l with
  | nil => simp [cutLast?] at h
  | cons c cs ih =>
    simp only [cutLast?] at h
    split at h
    · next left op' right hc =>
      simp only [Option.some.injEq, Prod.mk.injEq] at h
      obtain ⟨rfl, rfl, rfl⟩ := h
      have := ih hc
      simp only [List.length_cons]; omega
    · split at h
      · simp only [Option.some.injEq, Prod.mk.injEq] at h
        obtain ⟨rfl, rfl, rfl⟩ := h
        simp
      · simp at h

theorem length_cutCaret {d : Nat} {s l r : List Char}
    (h : cutCaret? d s = some (l, r)) : l.length + r.length + 1 = s.length := by
  induction s generalizing d l with
  | nil => simp [cutCaret?] at h
  | cons c cs ih =>
    simp only [cutCaret?] at h
    split at h
    · simp only [Option.some.injEq, Prod.mk.injEq] at h
      obtain ⟨rfl, rfl⟩ := h
      simp
    · simp only [Option.map_eq_some_iff] at h
      obtain ⟨⟨l', r'⟩, hc, h⟩ := h
      simp only [Prod.mk.injEq] at h
      obtain ⟨rfl, rfl⟩ := h
      have := ih hc
      simp only [List.length_cons]; omega

theorem length_reduceBlanks_le (before : Before) (s : List Char) :
    (reduceBlanks before s).length ≤ s.length + before.pending.length := by
  induction s generalizing before with
  | nil => simp [reduceBlanks]
  | cons c cs ih =>
    simp only [reduceBlanks]
    split
    · have := ih .operator
      simp only [List.length_cons, Before.pending, List.length_nil] at this ⊢; omega
    · split
      · have := ih before.thenBlank
        cases before <;>
          simp only [List.length_cons, Before.pending, Before.thenBlank, List.length_nil] at this ⊢ <;>
          omega
      · have := ih .operand
        simp only [List.length_cons, List.length_append, Before.pending, List.length_nil] at this ⊢
        omega

theorem length_normalize_le (s : List Char) : (normalize s).length ≤ s.length := by
  have h₁ := length_reduceBlanks_le .operand (trim s)
  have h₂ := Text.length_trim_le s
  simp only [normalize, Before.pending, List.length_nil] at *
  omega

/-! ## Trees -/

/-- A parsed unit expression. -/
inductive UnitExpr where
  | symbol (name : String) (size : Quantity)
  | number (value : Float)
  | product (left right : UnitExpr)
  | quotient (left right : UnitExpr)
  | power (base exponent : UnitExpr)
  | fault (f : UnitFault)
  deriving DecidableEq, Repr

/-- An exponent: read, or an expression that is still to be parsed. -/
inductive Exponent where
  | read (e : UnitExpr)
  | nested (s : List Char)

/-- Read an exponent as far as it is a number. mirrors `UnitConverter._parse_exponent` -/
def Exponent.of (s : List Char) : Exponent :=
  if s = [] then .read (.fault .emptyExponent)
  else match enclosed? s with
  | some inner =>
    let inner := trim inner
    match Numeral.parse? inner with
    | some n => .read (.number n.toFloat)
    | none => .nested (normalize inner)
  | none =>
    match Numeral.parse? s with
    | some n => .read (.number n.toFloat)
    | none => .read (.fault .exponentNotNumber)

theorem Exponent.length_nested {s t : List Char} (h : Exponent.of s = .nested t) :
    t.length < s.length := by
  unfold Exponent.of at h
  split at h
  · cases h
  · split at h
    · next inner hi =>
      simp only at h
      split at h
      · cases h
      · cases h
        have h₁ := length_enclosed hi
        have h₂ := Text.length_trim_le inner
        have h₃ := length_normalize_le (trim inner)
        omega
    · split at h <;> cases h

/-- The tree of an expression with single spaces. mirrors `UnitConverter._parse` -/
def UnitExpr.parse (names : Symbols) (s : List Char) : UnitExpr :=
  if s = [] then .fault .emptyOperand
  else match names.size? s with
  | some x => .symbol (String.ofList s) x
  | none =>
    if names.isNonlinear s then .fault (.nonlinear (String.ofList s))
    else match _hi : enclosed? s with
    | some inner => UnitExpr.parse names (trim inner)
    | none =>
      match unmatched? 0 s with
      | some f => .fault f
      | none =>
        match _hl : cutLast? 0 s with
        | some (left, op, right) =>
          if op = '/' then .quotient (UnitExpr.parse names left) (UnitExpr.parse names right)
          else .product (UnitExpr.parse names left) (UnitExpr.parse names right)
        | none =>
          match _hc : cutCaret? 0 s with
          | some (base, exponent) =>
            .power (UnitExpr.parse names base) <|
              match _he : Exponent.of exponent with
              | .read e => e
              | .nested t => UnitExpr.parse Symbols.none t
          | none =>
            match Numeral.parse? s with
            | some n => .number n.toFloat
            | none => .fault (.unknownSymbol (String.ofList s))
termination_by s.length
decreasing_by
  · have := length_enclosed _hi
    have := Text.length_trim_le inner
    omega
  · have := length_cutLast _hl; omega
  · have := length_cutLast _hl; omega
  · have := length_cutLast _hl; omega
  · have := length_cutLast _hl; omega
  · have := length_cutCaret _hc; omega
  · have := length_cutCaret _hc
    have := Exponent.length_nested _he
    omega

/-- Why an expression has no value. -/
inductive EvalFault where
  | malformed (f : UnitFault)
  | arithmetic (f : ArithmeticFault)
  deriving DecidableEq, Repr

/-- The value of a tree, worked out from left to right. -/
def UnitExpr.eval : UnitExpr → Except EvalFault Quantity
  | .symbol _ q => .ok q
  | .number x => .ok (.real x)
  | .product left right => do
    let a ← left.eval
    let b ← right.eval
    pure (a.times b)
  | .quotient left right => do
    let a ← left.eval
    let b ← right.eval
    (a.per b).mapError .arithmetic
  | .power base exponent => do
    let a ← base.eval
    let b ← exponent.eval
    (a.power b).mapError .arithmetic
  | .fault f => .error (.malformed f)

end TypedTables.Units
