import TypedTables.Dataset.Resolve
import TypedTables.Proofs.KeptTexts
/-!
# Cells of arrays

The text of an array cell lists the texts of its elements between commas. An element has the value
that a cell of its own with that text has: reading adds its text to the pool of the table, at a
place that depends on what was read before, but the value does not depend on that place. An element
without text has the value of an empty cell, although it is kept in another form.

Results:
* `Resolver.means_of_scalar`: a text means the same wherever it is read.
* `Resolver.cellValue?_scalar`, `Resolver.cellValue?_array`: the values of cells by what texts mean.
* `Resolver.cellValue?_pieces`: an array is made of the cells that its elements would be.
-/
namespace TypedTables

/-- The value of a scalar for which no text is given. -/
def BaseType.blankValue : BaseType → Value
  | .bool => .bool false
  | .int => .int (-1)
  | .float => .float (0.0 / 0.0)
  | .string => .text ""
  | .stringName => .text ""

namespace Resolver

variable {r : Resolver} {base : BaseType} {affix unit t : String}

/-- The value of the text of a cell. It is read when the table has pooled some texts, and resolved
when the table has pooled all, `later` ones among them. -/
def cellValue? (r : Resolver) (type : FieldType) (affix unit : String) (default : Raw)
    (pool : StringPool) (later : List String) (t : String) : Option Value :=
  match readCell type affix default t pool with
  | .ok (raw, pool) => ({ r with strings := pool.strings ++ later }.resolve raw type unit).toOption
  | .error _ => none

/-- Wherever the text is read as a scalar, its value is `v`, also when more texts are pooled. -/
def Means (r : Resolver) (base : BaseType) (affix unit t : String) (v : Value) : Prop :=
  ∀ pool, Answers pool (readScalar base affix t) fun q raw =>
    ∀ strings, q.strings <+: strings → { r with strings }.scalar raw base unit = .ok v

/-! ## Texts in a pool -/

/-- A text is pooled with its prefix, and none without text. -/
theorem readScalar_pooled (hb : base.isPooled) (affix t : String) (p : StringPool) :
    Answers p (readScalar base affix t) fun q raw =>
      ∃ n : Nat, raw = .code n ∧ q.strings[n]? = some (if t = "" then "" else affix ++ t) := by
  rw [Answers, readScalar_of_isPooled hb]
  by_cases empty : t = ""
  · rw [if_pos empty, if_pos empty]
    exact ⟨.code 0, p, rfl, List.prefix_rfl, 0, rfl, rfl⟩
  · rw [if_neg empty, if_neg empty]
    exact ⟨_, _, rfl, p.strings_prefix_intern _, _, rfl, p.lookup_intern _⟩

/-- A text is found by its number, whatever is pooled after it. -/
theorem text_of_pool {q : StringPool} {n : Nat} {kept : String} {strings : List String}
    (found : q.strings[n]? = some kept) (later : q.strings <+: strings) :
    { r with strings }.text (.code n) = .ok kept := by
  cases n with
  | zero =>
    cases found
    rfl
  | succ n =>
    obtain ⟨more, rfl⟩ := later
    obtain ⟨hn, -⟩ := List.getElem?_eq_some_iff.1 found
    have stays : textAt? (q.strings ++ more) (n + 1 : Nat) = some kept := by
      show (q.strings ++ more)[n + 1]? = some kept
      rw [List.getElem?_append_left hn, found]
    have given : (Raw.code (n + 1 : Nat)).isBlank = false := rfl
    rw [text, given]
    dsimp only
    rw [if_neg (by simp), stays]

/-! ## Scalars -/

theorem scalar_unpooled (hb : base.isPooled = false) (raw : Raw) (strings strings' : List String) :
    { r with strings }.scalar raw base unit =
      { r with strings := strings' }.scalar raw base unit := by
  cases base <;> first | rfl | cases hb

/-- The value of a pooled scalar depends on its text. -/
theorem scalar_pooled (hb : base.isPooled) {raw raw' : Raw} {strings strings' : List String}
    (same : { r with strings }.text raw = { r with strings := strings' }.text raw') :
    { r with strings }.scalar raw base unit =
      { r with strings := strings' }.scalar raw' base unit := by
  cases base with
  | bool => cases hb
  | float => cases hb
  | int => simp only [scalar, integer, same]
  | string => simp only [scalar, same]
  | stringName => simp only [scalar, same]

/-- **Scalars.** What a text is once read as, it is read as everywhere. -/
theorem means_of_scalar {raw : Raw} {p p' : StringPool} {strings : List String} {v : Value}
    (read : readScalar base affix t p = .ok (raw, p')) (later : p'.strings <+: strings)
    (h : { r with strings }.scalar raw base unit = .ok v) : r.Means base affix unit t v := by
  intro q
  cases hb : base.isPooled with
  | false =>
    refine ⟨raw, q, readScalar_unpooled hb read q, List.prefix_rfl, fun strings' _ => ?_⟩
    rw [scalar_unpooled hb raw strings' strings, h]
  | true =>
    obtain ⟨_, _, read', -, n, rfl, found⟩ := readScalar_pooled hb affix t p
    cases read.symm.trans read'
    obtain ⟨_, q', again, grows, n', rfl, found'⟩ := readScalar_pooled hb affix t q
    refine ⟨_, q', again, grows, fun strings' later' => ?_⟩
    rw [← h]
    exact scalar_pooled hb ((text_of_pool found' later').trans (text_of_pool found later).symm)

/-- A text means one thing. -/
theorem Means.unique {v v' : Value} (h : r.Means base affix unit t v)
    (h' : r.Means base affix unit t v') : v = v' := by
  obtain ⟨raw, q, read, -, value⟩ := h .empty
  obtain ⟨raw', q', read', -, value'⟩ := h' .empty
  cases read.symm.trans read'
  have both := (value q.strings List.prefix_rfl).symm.trans (value' q.strings List.prefix_rfl)
  exact Except.ok.inj both

theorem scalar_empty (r : Resolver) (base : BaseType) (unit : String) :
    r.scalar .empty base unit = .ok base.blankValue := by
  cases base <;> rfl

/-- No text means what an empty cell holds, whatever the prefix. -/
theorem means_blank (r : Resolver) (base : BaseType) (affix unit : String) :
    r.Means base affix unit "" base.blankValue := by
  cases base with
  | bool => exact fun pool => ⟨.empty, pool, rfl, List.prefix_rfl, fun _ _ => rfl⟩
  | float => exact fun pool => ⟨.empty, pool, rfl, List.prefix_rfl, fun _ _ => rfl⟩
  | int => exact fun pool => ⟨.code 0, pool, rfl, List.prefix_rfl, fun _ _ => rfl⟩
  | string => exact fun pool => ⟨.code 0, pool, rfl, List.prefix_rfl, fun _ _ => rfl⟩
  | stringName => exact fun pool => ⟨.code 0, pool, rfl, List.prefix_rfl, fun _ _ => rfl⟩

/-! ## Cells -/

theorem cellValue?_eq_some_iff {type : FieldType} {default : Raw} {pool : StringPool}
    {later : List String} {v : Value} :
    r.cellValue? type affix unit default pool later t = some v ↔
      ∃ raw q, readCell type affix default t pool = .ok (raw, q) ∧
        { r with strings := q.strings ++ later }.resolve raw type unit = .ok v := by
  unfold cellValue?
  split
  · next raw q read =>
    have value : ∀ x : Except ResolveError Value, x.toOption = some v ↔ x = .ok v := fun x => by
      cases x <;> simp [Except.toOption]
    rw [value]
    constructor
    · exact fun h => ⟨raw, q, read, h⟩
    · rintro ⟨_, _, same, h⟩
      cases read.symm.trans same
      exact h
  · next read =>
    refine iff_of_false (by simp) ?_
    rintro ⟨_, _, same, -⟩
    cases read.symm.trans same

theorem cellValue?_scalar {pool : StringPool} {later : List String} {v : Value} :
    r.cellValue? ⟨base, false⟩ affix unit .empty pool later t = some v ↔
      r.Means base affix unit t v := by
  rw [cellValue?_eq_some_iff]
  by_cases empty : t = ""
  · -- the cell is kept as empty, the element by the number of the empty text
    subst empty
    constructor
    · rintro ⟨_, _, read, h⟩
      cases read
      cases (scalar_empty { r with strings := pool.strings ++ later } base unit).symm.trans h
      exact means_blank r base affix unit
    · intro means
      rw [means.unique (means_blank r base affix unit)]
      exact ⟨.empty, pool, rfl, scalar_empty _ base unit⟩
  · have read : readCell ⟨base, false⟩ affix .empty t pool = readScalar base affix t pool := by
      rw [readCell, if_neg empty, if_neg Bool.false_ne_true]
    rw [read]
    constructor
    · rintro ⟨raw, q, read, h⟩
      exact means_of_scalar read (List.prefix_append _ _) h
    · intro means
      obtain ⟨raw, q, read, -, value⟩ := means pool
      exact ⟨raw, q, read, value _ (List.prefix_append _ _)⟩

/-- Elements that mean something are read one after the other. -/
theorem answers_elements {pieces : List String} {vs : List Value}
    (h : List.Forall₂ (r.Means base affix unit) pieces vs) (pool : StringPool) :
    Answers pool (pieces.mapM (readScalar base affix)) fun q items =>
      ∀ strings, q.strings <+: strings →
        List.Forall₂ (fun item v => { r with strings }.scalar item base unit = .ok v) items vs := by
  induction h generalizing pool with
  | nil => exact .pure fun _ _ => .nil
  | cons means _ ih =>
    rw [List.mapM_cons]
    refine (means pool).bind fun item q _ first => (ih q).bind fun items q' grows rest => ?_
    exact .pure fun strings later => .cons (first strings (grows.trans later)) (rest strings later)

theorem means_elements {pieces : List String} {items : List Raw} {vs : List Value}
    {p p' : StringPool} {strings : List String}
    (read : pieces.mapM (readScalar base affix) p = .ok (items, p'))
    (later : p'.strings <+: strings)
    (h : items.mapM (fun item => { r with strings }.scalar item base unit) = .ok vs) :
    List.Forall₂ (r.Means base affix unit) pieces vs := by
  obtain ⟨-, kept⟩ := interning_mapM_forall
    (P := fun q piece item => ∃ p₁ p₂, readScalar base affix piece p₁ = .ok (item, p₂) ∧
      p₂.strings <+: q.strings)
    (fun grows ⟨p₁, p₂, step, before⟩ => ⟨p₁, p₂, step, before.trans grows⟩)
    (fun piece _ q item q' _ step => ⟨(readScalar_keeps step).1, q, q', step, List.prefix_rfl⟩) read
  have values := mapM_eq_ok.1 h
  clear read h
  induction kept generalizing vs with
  | nil =>
    cases values
    exact .nil
  | cons step _ ih =>
    obtain ⟨p₁, p₂, step, before⟩ := step
    cases values with
    | cons value values => exact .cons (means_of_scalar step (before.trans later) value) (ih values)

theorem cellValue?_array (given : t ≠ "") {default : Raw} {pool : StringPool}
    {later : List String} {v : Value} :
    r.cellValue? ⟨base, true⟩ affix unit default pool later t = some v ↔
      ∃ vs, v = .array vs ∧ List.Forall₂ (r.Means base affix unit) (arrayPieces t) vs := by
  rw [cellValue?_eq_some_iff]
  have listed : readCell ⟨base, true⟩ affix default t = (do
      let items ← (arrayPieces t).mapM (readScalar base affix)
      pure (.list items)) := by
    rw [readCell, if_neg given, if_pos rfl]
  rw [listed]
  constructor
  · rintro ⟨_, q, cell, h⟩
    obtain ⟨items, p₁, read, list⟩ := interning_bind_eq_ok.1 cell
    obtain ⟨rfl, rfl⟩ := interning_pure_eq_ok.1 list
    obtain ⟨_, elements, h⟩ := bind_eq_ok.1 h
    cases elements
    obtain ⟨vs, values, h⟩ := bind_eq_ok.1 h
    cases h
    exact ⟨vs, rfl, means_elements read (List.prefix_append _ _) values⟩
  · rintro ⟨vs, rfl, means⟩
    obtain ⟨items, q, read, -, values⟩ := answers_elements means pool
    refine ⟨.list items, q, interning_bind_eq_ok.2 ⟨items, q, read, rfl⟩, ?_⟩
    exact bind_eq_ok.2 ⟨items, rfl, bind_eq_ok.2
      ⟨vs, mapM_eq_ok.2 (values _ (List.prefix_append _ _)), rfl⟩⟩

/-- There is one element more than there are commas. -/
theorem length_arrayPieces (t : String) : (arrayPieces t).length = t.toList.count ',' + 1 := by
  rw [arrayPieces, List.length_map, Text.length_splitOn]

/-- **Arrays.** An array has a value just if each of its elements has one as a cell of its own, and
then it is the list of these. An element without text is that of an empty cell. -/
theorem cellValue?_pieces (r : Resolver) (base : BaseType) (affix unit : String) {t : String}
    (given : t ≠ "") (default : Raw) (pool pool' : StringPool) (later later' : List String) :
    ((r.cellValue? ⟨base, true⟩ affix unit default pool later t).isSome ↔
      ∀ piece ∈ arrayPieces t,
        (r.cellValue? ⟨base, false⟩ affix unit .empty pool' later' piece).isSome) ∧
    ∀ v, r.cellValue? ⟨base, true⟩ affix unit default pool later t = some v →
      ∃ vs : List Value, v = .array vs ∧
        (arrayPieces t).map (r.cellValue? ⟨base, false⟩ affix unit .empty pool' later') =
          vs.map some ∧
        vs.length = t.toList.count ',' + 1 ∧
        ∀ i : Nat, (arrayPieces t)[i]? = some "" → vs[i]? = some base.blankValue := by
  have elements : ∀ vs, List.Forall₂ (r.Means base affix unit) (arrayPieces t) vs ↔
      (arrayPieces t).map (r.cellValue? ⟨base, false⟩ affix unit .empty pool' later') =
        vs.map some := by
    intro vs
    rw [← List.forall₂_eq_eq_eq, List.forall₂_map_left_iff, List.forall₂_map_right_iff]
    simp only [cellValue?_scalar]
  refine ⟨?_, fun v h => ?_⟩
  · rw [Option.isSome_iff_exists]
    simp only [cellValue?_array given, elements, map_eq_map_some_iff]
    constructor
    · rintro ⟨_, vs, -, all, -⟩
      exact all
    · exact fun all => ⟨_, _, rfl, all, rfl⟩
  · obtain ⟨vs, rfl, means⟩ := (cellValue?_array given).1 h
    refine ⟨vs, rfl, (elements vs).1 means, ?_, fun i blank => ?_⟩
    · rw [← length_arrayPieces, means.length_eq]
    · obtain ⟨hi, empty⟩ := List.getElem?_eq_some_iff.1 blank
      have inside : i < vs.length := means.length_eq ▸ hi
      have element := means.get hi inside
      rw [List.get_eq_getElem, empty] at element
      rw [List.getElem?_eq_getElem inside]
      exact congrArg some (element.unique (means_blank r base affix unit))

/-- Two dogs by their names without the prefix of the field, and no dog between them. -/
theorem dogs_pieces :
    let kennel : Resolver := ⟨[], fun name => if name = "DOG_REX" then some 4 else none, {}, ""⟩
    "REX, ,REX" ≠ "" ∧ kennel.cellValue? ⟨.int, true⟩ "DOG_" "" .empty .empty [] "REX, ,REX" =
      some (.array [.int 4, .int (-1), .int 4]) := by
  intro kennel
  have pieces : arrayPieces "REX, ,REX" = ["REX", "", "REX"] := by decide +kernel
  have rex : kennel.cellValue? ⟨.int, false⟩ "DOG_" "" .empty .empty [] "REX" = some (.int 4) := rfl
  have blank : kennel.cellValue? ⟨.int, false⟩ "DOG_" "" .empty .empty [] "" = some (.int (-1)) :=
    rfl
  have given : "REX, ,REX" ≠ "" := by decide
  obtain ⟨each, array⟩ := kennel.cellValue?_pieces .int "DOG_" "" given .empty .empty .empty [] []
  rw [pieces] at each array
  obtain ⟨v, hv⟩ := Option.isSome_iff_exists.1 (each.2 (by simp [rex, blank]))
  obtain ⟨vs, rfl, values, -⟩ := array v hv
  simp only [List.map_cons, List.map_nil, rex, blank] at values
  have listed : vs = [.int 4, .int (-1), .int 4] :=
    List.map_injective_iff.2 (fun _ _ => Option.some.inj) values.symm
  exact ⟨given, listed ▸ hv⟩

end Resolver

end TypedTables
