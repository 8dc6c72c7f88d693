import TypedTables.Proofs.TableOutcome
/-!
# Verdicts on units

A unit is judged by one conversion. All conversions with it go the same way, so the verdict says
what becomes of each: a unit is valid if they are real, not valid if it is not known, and there is
no verdict at all if its arithmetic fails or its value is complex. A unit whose value is no number
is not valid, although every conversion with it has an answer.

Results:
* `Conversions.of_total`: all conversions with a unit go the same way.
* `isValid_of_real`, `isValid_of_complex`, `isValid_of_error`: the verdict after one conversion.
* `isValid_eq_true_iff`, `isValid_eq_false_iff`, `isValid_eq_error_iff`: what each verdict, or the
  lack of one, says of all conversions.
-/
namespace TypedTables

namespace Units

/-- A real number of a complex size is complex. -/
theorem Quantity.times_complex (x re im : Float) :
    ∃ re' im', (Quantity.real x).times (.complex re im) = .complex re' im' :=
  ⟨_, _, rfl⟩

namespace Converter

variable {c : Converter} {unit : String}

/-- Conversions with a unit: they are all real, they are all complex, or they all fail with one
error. -/
inductive Conversions (c : Converter) (unit : String) : Prop
  | real (all : ∀ x, ∃ y, c.convert x unit = .ok (.real y))
  | complex (all : ∀ x, ∃ re im, c.convert x unit = .ok (.complex re im))
  | fails (e : UnitError) (all : ∀ x, c.convert x unit = .error e)

theorem Conversions.of_size {size : Quantity}
    (all : ∀ x, c.convert x unit = .ok ((Quantity.real x).times size)) : c.Conversions unit := by
  cases size with
  | real y => exact .real fun x => ⟨x * y, all x⟩
  | complex re im =>
    refine .complex fun x => ?_
    obtain ⟨re', im', h⟩ := Quantity.times_complex x re im
    exact ⟨re', im', (all x).trans (congrArg _ h)⟩

theorem Conversions.of_total (total : c.Total) (unit : String) : c.Conversions unit := by
  by_cases empty : unit = ""
  · exact .real fun x => ⟨x, if_pos empty⟩
  cases hs : c.sizes.get? unit with
  | some size => exact .of_size fun x => by rw [convert, if_neg empty, hs]; rfl
  | none =>
    cases hf : c.nonlinear.get? unit with
    | some f =>
      refine .real fun x => ?_
      obtain ⟨y, hy⟩ := total unit f hf x
      refine ⟨y, ?_⟩
      rw [convert, if_neg empty, hs, hf]
      show ((f.toBase x).map Quantity.real).mapError _ = _
      rw [hy]
      rfl
    | none =>
      have compound : ∀ x, c.convert x unit =
          c.multiplier unit >>= fun size => scale x size .toBase := fun x => by
        rw [convert, if_neg empty, hs, hf]
        rfl
      cases hm : c.multiplier unit with
      | ok size => exact .of_size fun x => by rw [compound, hm]; rfl
      | error e => exact .fails e fun x => by rw [compound, hm]; rfl

theorem isValid_of_real {y : Float} (h : c.convert 1.0 unit = .ok (.real y)) :
    c.isValid unit = .ok !y.isNaN := by
  rw [isValid, convertOrNaN, h]
  rfl

theorem isValid_of_complex {re im : Float} (h : c.convert 1.0 unit = .ok (.complex re im)) :
    c.isValid unit = .error .complexValue := by
  rw [isValid, convertOrNaN, h]
  rfl

/-- Of the errors of a conversion, those of a unit that is not known are a verdict. -/
theorem isValid_of_error {e : UnitError} (h : c.convert 1.0 unit = .error e) :
    c.isValid unit = if e.isUnresolved then .ok false else .error e := by
  have nan : (0.0 / 0.0 : Float).isNaN = true := by decide
  rw [isValid, convertOrNaN, h]
  dsimp only
  split
  · exact congrArg (fun isNaN => Except.ok !isNaN) nan
  · rfl

section Verdicts

variable (total : c.Total) (unit : String)
include total

theorem isValid_eq_true_iff : c.isValid unit = .ok true ↔
    (∀ x, ∃ y, c.convert x unit = .ok (.real y)) ∧
      ∃ y, c.convert 1.0 unit = .ok (.real y) ∧ y.isNaN = false := by
  constructor
  · intro h
    obtain ⟨y, one⟩ := real_of_isValid h
    rw [isValid_of_real one, Except.ok.injEq, Bool.not_eq_true'] at h
    exact ⟨exists_convert total one, y, one, h⟩
  · rintro ⟨-, y, one, number⟩
    rw [isValid_of_real one, number]
    rfl

theorem isValid_eq_false_iff : c.isValid unit = .ok false ↔
    (∃ e : UnitError, e.isUnresolved ∧ ∀ x, c.convert x unit = .error e) ∨
      (∀ x, ∃ y, c.convert x unit = .ok (.real y)) ∧
        ∃ y, c.convert 1.0 unit = .ok (.real y) ∧ y.isNaN := by
  constructor
  · intro h
    rcases Conversions.of_total total unit with all | all | ⟨e, all⟩
    · obtain ⟨y, one⟩ := all 1.0
      rw [isValid_of_real one, Except.ok.injEq, Bool.not_eq_false'] at h
      exact .inr ⟨all, y, one, h⟩
    · obtain ⟨re, im, one⟩ := all 1.0
      rw [isValid_of_complex one] at h
      cases h
    · rw [isValid_of_error (all 1.0)] at h
      split at h
      · next unresolved => exact .inl ⟨e, unresolved, all⟩
      · cases h
  · rintro (⟨e, unresolved, all⟩ | ⟨-, y, one, nan⟩)
    · rw [isValid_of_error (all 1.0), if_pos unresolved]
    · rw [isValid_of_real one, nan]
      rfl

theorem isValid_eq_error_iff (e : UnitError) : c.isValid unit = .error e ↔
    e.isUnresolved = false ∧ ((∀ x, c.convert x unit = .error e) ∨
      e = .complexValue ∧ ∀ x, ∃ re im, c.convert x unit = .ok (.complex re im)) := by
  constructor
  · intro h
    refine ⟨isValid_eq_error h, ?_⟩
    -- a complex value is an error of the verdict, not of the conversion
    rcases Conversions.of_total total unit with all | all | ⟨e', all⟩
    · obtain ⟨y, one⟩ := all 1.0
      rw [isValid_of_real one] at h
      cases h
    · obtain ⟨re, im, one⟩ := all 1.0
      rw [isValid_of_complex one] at h
      cases h
      exact .inr ⟨rfl, all⟩
    · rw [isValid_of_error (all 1.0)] at h
      split at h
      · cases h
      · cases h
        exact .inl all
  · rintro ⟨resolved, all | ⟨rfl, all⟩⟩
    · rw [isValid_of_error (all 1.0), if_neg (by simp [resolved])]
    · obtain ⟨re, im, one⟩ := all 1.0
      exact isValid_of_complex one

end Verdicts

/-- What the verdict on a unit says of all conversions with it. -/
structure Judges (c : Converter) (unit : String) : Prop where
  valid_iff : c.isValid unit = .ok true ↔ (∀ x, ∃ y, c.convert x unit = .ok (.real y)) ∧
    ∃ y, c.convert 1.0 unit = .ok (.real y) ∧ y.isNaN = false
  invalid_iff : c.isValid unit = .ok false ↔
    (∃ e : UnitError, e.isUnresolved ∧ ∀ x, c.convert x unit = .error e) ∨
      (∀ x, ∃ y, c.convert x unit = .ok (.real y)) ∧
        ∃ y, c.convert 1.0 unit = .ok (.real y) ∧ y.isNaN
  error_iff : ∀ e, c.isValid unit = .error e ↔
    e.isUnresolved = false ∧ ((∀ x, c.convert x unit = .error e) ∨
      e = .complexValue ∧ ∀ x, ∃ re im, c.convert x unit = .ok (.complex re im))

theorem judges (total : c.Total) (unit : String) : c.Judges unit where
  valid_iff := isValid_eq_true_iff total unit
  invalid_iff := isValid_eq_false_iff total unit
  error_iff := isValid_eq_error_iff total unit

end Converter

end Units

end TypedTables
