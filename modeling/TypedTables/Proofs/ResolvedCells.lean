import TypedTables.Proofs.AcceptedUnits
import TypedTables.Proofs.KeptCells
import TypedTables.Proofs.NumberText
/-!
# Cells that have a value

A cell in the form in which tables keep it has a value, whatever the other tables are, once its
unit is accepted: the texts it refers to are in the pool, a truth value is 0 or 1, and the text of
a number is one that can be read. An INT alone may name an entity that is nowhere defined.

Results:
* `readFloat?_of_numberText`: the text of a number can be read as a typed number.
* `numberText_of_kept`: what is read of the text of a FLOAT is a numeral.
* `scalar_raises`, `resolve_raises`: the only error of a scalar, and of any cell.
-/
namespace TypedTables

/-! ## Typed numbers -/

namespace Decimal

theorem IsNumberChar.apart {c : Char} (h : IsNumberChar c) :
    ¬ isPadding c ∧ c ≠ '_' ∧ c ≠ '~' := by
  rcases h with ⟨d, hd⟩ | rfl | rfl | rfl | rfl | rfl
  · refine ⟨fun hp => not_isBlank_of_digit hd ?_, ne_of_noDigit hd (by decide),
      ne_of_noDigit hd (by decide)⟩
    exact (Bool.and_eq_true_iff.1 hp).1
  all_goals decide

theorem dropUnderscores_eq_self {s : List Char} (h : ∀ c ∈ s, c ≠ '_') (before : Option Char) :
    dropUnderscores before s = some s := by
  induction s generalizing before with
  | nil => rfl
  | cons c s ih =>
    rw [List.forall_mem_cons] at h
    rw [dropUnderscores, if_neg h.1, ih h.2]
    rfl

/-- What is written as a letter in small. -/
theorem eq_or_eq_of_toLower {c x y : Char} (h : c.toLower = x) (hx : x.toNat = y.toNat + 32) :
    c = x ∨ c = y := by
  unfold Char.toLower at h
  split at h
  · next upper =>
    have bound : c.val.toNat ≤ 90 := UInt32.le_iff_toNat_le.1 upper.2
    have sum : (c.val + ('a'.val - 'A'.val)).toNat = c.val.toNat + 32 := by
      rw [UInt32.toNat_add, show ('a'.val - 'A'.val).toNat = 32 from rfl]
      omega
    have code : c.toNat + 32 = x.toNat := sum.symm.trans (congrArg Char.toNat h)
    exact .inr (Char.toNat_inj.1 (by omega))
  · exact .inl h

/-- No number starts like `inf` or `nan`. -/
theorem IsNumberChar.toLower_ne {c : Char} (h : IsNumberChar c) :
    c.toLower ≠ 'i' ∧ c.toLower ≠ 'n' := by
  have letter : ∀ x : Char, Text.digitValue? x = none →
      x ≠ '+' ∧ x ≠ '-' ∧ x ≠ '.' ∧ x ≠ 'e' ∧ x ≠ 'E' → ¬ IsNumberChar x := by
    intro x hx ne
    simp [IsNumberChar, hx, ne]
  have other : ∀ x y : Char, x.toNat = y.toNat + 32 → ¬ IsNumberChar x → ¬ IsNumberChar y →
      c.toLower ≠ x := fun x y hxy hx hy hc => by
    rcases eq_or_eq_of_toLower hc hxy with rfl | rfl
    · exact hx h
    · exact hy h
  exact ⟨other 'i' 'I' rfl (letter _ (by decide) (by decide)) (letter _ (by decide) (by decide)),
    other 'n' 'N' rfl (letter _ (by decide) (by decide)) (letter _ (by decide) (by decide))⟩

/-- A text in the characters of numbers is read as it stands. -/
theorem readFloat?_of_char {s : List Char} (char : ∀ c ∈ s, IsNumberChar c) :
    readFloat? s = (Numeral.parse? s).map Numeral.toFloat := by
  have apart := fun c hc => (char c hc).apart
  rcases hs : Numeral.takeSign s with ⟨negative, rest⟩
  obtain ⟨sign, split, -⟩ := Numeral.takeSign_eq hs
  have word : ∀ w : List Char, w.head? = some 'i' ∨ w.head? = some 'n' →
      rest.map Char.toLower ≠ w := by
    rintro w hw rfl
    cases rest with
    | nil => simp at hw
    | cons c r => simp [(char c (by simp [split])).toLower_ne] at hw
  unfold readFloat?
  rw [Text.dropAroundWhile_eq_self (fun c hc => (apart c (List.mem_of_mem_head? hc)).1)
    fun c hc => (apart c (List.mem_of_getLast? hc)).1]
  dsimp only
  rw [hs]
  dsimp only
  rw [if_neg (not_or.2 ⟨word _ (.inl rfl), word _ (.inl rfl)⟩), if_neg (word _ (.inr rfl)),
    dropUnderscores_eq_self fun c hc => (apart c hc).2.1, Option.bind_eq_bind, Option.bind_some]
  cases Numeral.parse? s <;> rfl

/-- **Typed numbers.** The text of a number is read as that number. -/
theorem readFloat?_of_numberText {s : List Char} {n : Numeral} (h : NumberText s n) :
    readFloat? s = some n.toFloat := by
  rw [readFloat?_of_char h.char, Numeral.parse?_eq_some_iff.2 h]
  rfl

theorem exists_readFloat {s : List Char} (h : isNumeral s) : ∃ x, readFloat? s = some x := by
  obtain ⟨n, hn⟩ := Option.isSome_iff_exists.1 h
  exact ⟨_, readFloat?_of_numberText (Numeral.parse?_eq_some_iff.1 hn)⟩

end Decimal

/-- The scalars of a cell: those that an array lists, or the cell itself. -/
def Raw.scalars (type : FieldType) (raw : Raw) : List Raw :=
  if type.isArray then
    match raw with
    | .list items => items
    | _ => []
  else [raw]

namespace Resolver

variable {r : Resolver} {pool : StringPool} {raw : Raw} {base : BaseType} {unit : String}

/-- The cell is of an INT, and its text is neither an integer nor the name of an entity. -/
def Misnames (r : Resolver) (base : BaseType) (raw : Raw) (e : ResolveError) : Prop :=
  base = .int ∧ ∃ t, r.text raw = .ok t ∧ Text.readInteger? t.toList = none ∧
    r.entityRow t = none ∧ e = .unknownEntity r.source t

/-! ## Scalars -/

theorem exists_text (hs : r.strings = pool.strings) (hb : base.isPooled)
    (h : raw = .empty ∨ raw.Keeps pool base) : ∃ t, r.text raw = .ok t := by
  rcases h with rfl | h
  · exact ⟨"", rfl⟩
  · cases h with
    | flag => cases hb
    | number => cases hb
    | @pooled _ n _ hn =>
      unfold text
      split
      · exact ⟨"", rfl⟩
      · have found : textAt? r.strings n = some pool.strings[n] := by
          rw [hs]
          exact List.getElem?_eq_getElem hn
        dsimp only
        rw [found]
        exact ⟨_, rfl⟩

theorem exists_flag (h : raw = .empty ∨ raw.Keeps pool .bool) : ∃ b, r.flag raw = .ok b := by
  rcases h with rfl | h
  · exact ⟨false, rfl⟩
  · cases h with
    | flag b => cases b <;> exact ⟨_, rfl⟩
    | pooled hb => cases hb

/-- A kept text stands for NaN or an infinity, or what is read of it is a numeral. -/
theorem numberText_of_kept {t : String} (h : Decimal.Kept t.toList) :
    (∃ x, numberText (.text t) = .ok (.inl x)) ∨
      ∃ s, numberText (.text t) = .ok (.inr s) ∧ Decimal.isNumeral s.toList := by
  unfold numberText
  dsimp only
  split
  · exact .inl ⟨_, rfl⟩
  · split
    · exact .inl ⟨_, rfl⟩
    · split
      · exact .inl ⟨_, rfl⟩
      next infinity minusInfinity =>
      refine .inr ⟨_, rfl, ?_⟩
      generalize hs : t.toList = s at h
      cases h with
      | infinity => exact absurd (String.toList_inj.1 hs) infinity
      | minusInfinity => exact absurd (String.toList_inj.1 hs) minusInfinity
      | unsure numeral => simpa using numeral
      | sure numeral =>
        obtain ⟨n, hn⟩ := Option.isSome_iff_exists.1 numeral
        have sure : s.head? ≠ some '~' := fun hc =>
          ((Decimal.Numeral.parse?_eq_some_iff.1 hn).char _ (List.mem_of_head? hc)).apart.2.2 rfl
        rw [if_neg sure, hs]
        exact numeral

theorem exists_number (convert : ∀ x, ∃ z, r.units.convert x unit = .ok (.real z))
    (h : raw = .empty ∨ raw.Keeps pool .float) : ∃ v, r.number raw unit = .ok v := by
  rcases h with rfl | h
  · exact ⟨_, rfl⟩
  · cases h with
    | pooled hb => cases hb
    | number kept =>
      unfold number
      rcases numberText_of_kept kept with ⟨x, ht⟩ | ⟨s, ht, numeral⟩
      · rw [ht]
        exact ⟨_, rfl⟩
      · obtain ⟨x, hx⟩ := Decimal.exists_readFloat numeral
        obtain ⟨z, hz⟩ := convert x
        refine ⟨.float z, bind_eq_ok.2 ⟨_, ht, ?_⟩⟩
        dsimp only
        rw [hx]
        dsimp only
        rw [hz]
        rfl

/-- An INT that has no value names nobody. -/
theorem integer_raises (hs : r.strings = pool.strings) (h : raw = .empty ∨ raw.Keeps pool .int) :
    Raises (r.Misnames .int raw) (r.integer raw) := by
  obtain ⟨t, ht⟩ := exists_text hs rfl h
  refine .bind (fun e he => by rw [ht] at he; cases he) fun t ht => ?_
  split
  · exact .ok _
  · cases literal : Text.readInteger? t.toList with
    | some i => exact .ok i
    | none =>
      cases row : r.entityRow t with
      | some i => exact .ok i
      | none => exact .error ⟨rfl, t, ht, literal, row, rfl⟩

theorem scalar_raises (hs : r.strings = pool.strings)
    (convert : ∀ x, ∃ z, r.units.convert x unit = .ok (.real z))
    (h : raw = .empty ∨ raw.Keeps pool base) :
    Raises (r.Misnames base raw) (r.scalar raw base unit) := by
  cases base with
  | int => exact .map (integer_raises hs h)
  | bool =>
    obtain ⟨b, hb⟩ := exists_flag (r := r) h
    rw [scalar, hb]
    exact .ok _
  | float =>
    obtain ⟨v, hv⟩ := exists_number convert h
    rw [scalar, hv]
    exact .ok _
  | string | stringName =>
    obtain ⟨t, ht⟩ := exists_text hs rfl h
    rw [scalar, ht]
    exact .ok _

/-! ## Cells -/

theorem scalars_fit {type : FieldType} (h : raw.Fits pool type) :
    ∀ item ∈ raw.scalars type, item = .empty ∨ item.Keeps pool type.base := by
  unfold Raw.scalars
  cases h with
  | empty => split <;> simp
  | scalar scalar kept => simpa [scalar] using .inr kept
  | array array _ kept =>
    rw [if_pos array]
    exact fun item hm => (kept item hm).imp_left And.left

/-- **Cells.** A cell that has no value misnames an entity, or one of its elements does. -/
theorem resolve_raises {type : FieldType} (hs : r.strings = pool.strings)
    (convert : ∀ x, ∃ z, r.units.convert x unit = .ok (.real z)) (h : raw.Fits pool type) :
    Raises (fun e => ∃ item ∈ raw.scalars type, r.Misnames type.base item e)
      (r.resolve raw type unit) := by
  have element : ∀ item ∈ raw.scalars type,
      Raises (fun e => ∃ item ∈ raw.scalars type, r.Misnames type.base item e)
        (r.scalar item type.base unit) := fun item hm =>
    (scalar_raises hs convert (scalars_fit h item hm)).imp fun e he => ⟨item, hm, he⟩
  unfold resolve
  split
  · next array =>
    have listed : items raw = .ok (raw.scalars type) := by
      unfold Raw.scalars
      rw [if_pos array]
      cases h with
      | empty => rfl
      | array array => rfl
      | scalar scalar =>
        rw [array] at scalar
        cases scalar
    exact .bind_ok listed (.bind (.mapM element) fun _ _ => .ok _)
  · next scalar => exact element raw (by simp [Raw.scalars, scalar])

end Resolver

namespace Linking

variable {l : Linking} {d : Draft} {type : FieldType} {unit : String} {raw : Raw}

/-- A cell has a value, and so has every element of an array, but for an INT that names nobody. -/
structure Resolves (l : Linking) (d : Draft) (type : FieldType) (unit : String) (raw : Raw) :
    Prop where
  cell : Raises (fun e => ∃ item ∈ raw.scalars type, ∃ f,
    (l.resolver d).Misnames type.base item f ∧ e = .cell f) (l.cell d raw type unit)
  element : ∀ item ∈ raw.scalars type,
    Raises ((l.resolver d).Misnames type.base item) ((l.resolver d).scalar item type.base unit)

theorem resolves (total : l.units.Total) (accepts : l.Accepts unit) (h : raw.Fits d.pool type) :
    l.Resolves d type unit raw := by
  obtain ⟨x, y, real⟩ := accepts.convert
  have convert : ∀ x, ∃ z, (l.resolver d).units.convert x unit = .ok (.real z) :=
    Units.Converter.exists_convert total real
  refine ⟨.mapError fun f hf => ?_, fun item hm =>
    Resolver.scalar_raises rfl convert (Resolver.scalars_fit h item hm)⟩
  obtain ⟨item, hm, misnames⟩ := Resolver.resolve_raises rfl convert h f hf
  exact ⟨item, hm, f, misnames, rfl⟩

end Linking

end TypedTables
