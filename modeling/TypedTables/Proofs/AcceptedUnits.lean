import TypedTables.Proofs.Outcome
import TypedTables.Dataset.Assembly
/-!
# Accepted units

A unit is accepted if one of it is a number in base units. Then any number of it is: the size of
the unit is real, and a scale that is no multiple has a value for every number.

Results:
* `real_of_isValid`: one of an accepted unit is a real number.
* `real_of_convert`: a unit that gives a real number once gives no other.
* `total_builtin`: the built-in scales have a value for every number.
* `exists_convert`: if all scales are total, any number of an accepted unit can be converted.
* `cell_hasKind`: with an accepted unit, a cell is resolved to a value of its type.
-/
namespace TypedTables

namespace Units

theorem Quantity.real_of_times {x y : Float} {size : Quantity}
    (h : (Quantity.real x).times size = .real y) : ∃ z, size = .real z := by
  cases size with
  | real z => exact ⟨z, rfl⟩
  | complex re im => cases h

namespace Converter

variable {c : Converter} {unit : String} {x y : Float}

/-- Every scale that is no multiple has a value for every number. -/
def Total (c : Converter) : Prop :=
  ∀ name f, c.nonlinear.get? name = some f → ∀ x, ∃ y, f.toBase x = .ok y

/-- The built-in scales have a value for every number. -/
theorem total_builtin : ({} : Converter).Total := by
  intro name f hf x
  have mem : (name, f) ∈ [("degC", celsius), ("degF", fahrenheit)] := by
    have listed := (OrderedMap.get?_eq_some_iff ..).1 hf
    rwa [show ({} : Converter).nonlinear = builtinNonlinear from rfl, builtinNonlinear,
      OrderedMap.toList_ofList (by decide)] at listed
  simp only [List.mem_cons, Prod.mk.injEq, List.not_mem_nil, or_false] at mem
  rcases mem with ⟨-, rfl⟩ | ⟨-, rfl⟩ <;> exact ⟨_, rfl⟩

/-- How a number of a unit becomes one in base units. -/
theorem convert_eq_ok {q : Quantity} (h : c.convert x unit = .ok q) :
    unit = "" ∧ q = .real x ∨
      unit ≠ "" ∧ ((∃ size, (∀ x, c.convert x unit = .ok ((Quantity.real x).times size)) ∧
          q = (Quantity.real x).times size) ∨
        ∃ f z, c.nonlinear.get? unit = some f ∧ f.toBase x = .ok z ∧ q = .real z ∧
          ∀ x, c.convert x unit = ((f.toBase x).map .real).mapError .arithmetic) := by
  by_cases hu : unit = ""
  · rw [convert, if_pos hu] at h
    cases h
    exact .inl ⟨hu, rfl⟩
  · refine .inr ⟨hu, ?_⟩
    simp only [convert, if_neg hu] at h ⊢
    cases hs : c.sizes.get? unit with
    | some size =>
      rw [hs] at h
      cases h
      exact .inl ⟨size, fun x => rfl, rfl⟩
    | none =>
      rw [hs] at h
      cases hf : c.nonlinear.get? unit with
      | some f =>
        rw [hf] at h
        dsimp only at h
        cases hz : f.toBase x with
        | error e => rw [hz] at h; cases h
        | ok z =>
          rw [hz] at h
          cases h
          exact .inr ⟨f, z, rfl, hz, rfl, fun x => rfl⟩
      | none =>
        rw [hf] at h
        obtain ⟨size, hm, h⟩ := bind_eq_ok.1 h
        cases h
        refine .inl ⟨size, fun x => ?_, rfl⟩
        dsimp only
        rw [if_pos trivial, hm]
        rfl

theorem real_of_convert (h : c.convert x unit = .ok (.real y)) {x' : Float} {q : Quantity}
    (h' : c.convert x' unit = .ok q) : ∃ z, q = .real z := by
  rcases convert_eq_ok h with ⟨hu, -⟩ | ⟨hu, ⟨size, all, hq⟩ | ⟨f, z, -, -, -, all⟩⟩
  · rw [convert, if_pos hu] at h'
    cases h'
    exact ⟨x', rfl⟩
  · obtain ⟨z, rfl⟩ := Quantity.real_of_times hq.symm
    rw [all] at h'
    cases h'
    exact ⟨x' * z, rfl⟩
  · rw [all] at h'
    cases hf : f.toBase x' with
    | error e => rw [hf] at h'; cases h'
    | ok z =>
      rw [hf] at h'
      cases h'
      exact ⟨z, rfl⟩

theorem exists_convert (total : c.Total) (h : c.convert x unit = .ok (.real y)) (x' : Float) :
    ∃ z, c.convert x' unit = .ok (.real z) := by
  have ok : ∃ q, c.convert x' unit = .ok q := by
    rcases convert_eq_ok h with ⟨hu, -⟩ | ⟨hu, ⟨size, all, -⟩ | ⟨f, z, hf, -, -, all⟩⟩
    · exact ⟨.real x', by rw [convert, if_pos hu]⟩
    · exact ⟨_, all x'⟩
    · obtain ⟨z, hz⟩ := total _ f hf x'
      exact ⟨.real z, by rw [all, hz]; rfl⟩
  obtain ⟨q, hq⟩ := ok
  obtain ⟨z, rfl⟩ := real_of_convert h hq
  exact ⟨z, hq⟩

/-- An unknown unit gives NaN, so a unit that is valid has been converted. -/
theorem real_of_isValid (h : c.isValid unit = .ok true) :
    ∃ y, c.convert 1.0 unit = .ok (.real y) := by
  have nan : (0.0 / 0.0 : Float).isNaN = true := by decide
  unfold isValid at h
  obtain ⟨q, hq, h⟩ := bind_eq_ok.1 h
  cases q with
  | complex re im => cases h
  | real y =>
    unfold convertOrNaN at hq
    split at hq
    · split at hq
      · cases hq
        cases (Except.ok.inj h).symm.trans (congrArg not nan)
      · cases hq
    · next hc => exact ⟨y, by rw [hc, hq]⟩

end Converter

end Units

namespace Linking

variable {l : Linking} {d : Draft} {unit : String}

/-- Cells may have the unit. -/
def Accepts (l : Linking) (unit : String) : Prop :=
  unit = "" ∨ l.units.isValid unit = .ok true

theorem checkUnit_eq_ok {field : String} (h : l.checkUnit d unit field = .ok ()) :
    l.Accepts unit := by
  unfold checkUnit at h
  split at h
  · next hu => exact .inl hu
  · split at h
    · next hv => exact .inr hv
    · cases h
    · cases h

/-- A number of an accepted unit is real. -/
theorem Accepts.convert (ha : l.Accepts unit) : ∃ x y, l.units.convert x unit = .ok (.real y) := by
  rcases ha with hu | hv
  · exact ⟨1.0, 1.0, by rw [Units.Converter.convert, if_pos hu]⟩
  · obtain ⟨y, hy⟩ := Units.Converter.real_of_isValid hv
    exact ⟨1.0, y, hy⟩

theorem scalar_hasBase (ha : l.Accepts unit) {raw : Raw} {base : BaseType} {v : Value}
    (h : (l.resolver d).scalar raw base unit = .ok v) : Value.hasBase base v := by
  cases base with
  | bool =>
    obtain ⟨b, -, rfl⟩ := map_eq_ok.1 h
    rfl
  | int =>
    obtain ⟨i, -, rfl⟩ := map_eq_ok.1 h
    rfl
  | string =>
    obtain ⟨t, -, rfl⟩ := map_eq_ok.1 h
    rfl
  | stringName =>
    obtain ⟨t, -, rfl⟩ := map_eq_ok.1 h
    rfl
  | float =>
    obtain ⟨x₀, y₀, real⟩ := ha.convert
    obtain ⟨n, -, h⟩ := bind_eq_ok.1 h
    cases n with
    | inl x =>
      cases h
      rfl
    | inr t =>
      dsimp only at h
      split at h
      · cases h
      · split at h
        · cases h
          rfl
        · next hc =>
          obtain ⟨z, hz⟩ := Units.Converter.real_of_convert real hc
          cases hz
        · cases h

/-- **Kinds.** With an accepted unit, a cell has a value of its type. -/
theorem cell_hasKind (ha : l.Accepts unit) {raw : Raw} {type : FieldType} {v : Value}
    (h : l.cell d raw type unit = .ok v) : v.hasKind type := by
  have h := mapError_eq_ok.1 h
  unfold Resolver.resolve at h
  unfold Value.hasKind
  split at h
  · next array =>
    rw [if_pos array]
    obtain ⟨items, -, h⟩ := bind_eq_ok.1 h
    obtain ⟨values, hv, h⟩ := bind_eq_ok.1 h
    cases h
    rw [mapM_eq_ok] at hv
    rw [List.all_eq_true]
    intro v hm
    obtain ⟨item, -, hi⟩ := exists_of_forall₂ hv.flip hm
    exact scalar_hasBase ha hi
  · next scalar =>
    rw [if_neg scalar]
    exact scalar_hasBase ha h

end Linking

end TypedTables
