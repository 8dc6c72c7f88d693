import Mathlib.Data.List.Induction
import TypedTables.Proofs.Rerun
import TypedTables.Proofs.UnitGrammar
/-!
# Remembered units

A converter is used in steps, between which sizes may be changed. It remembers the value of every
compound unit text that it has worked out, and a changed size does not make it forget. So a text
is answered as by a new converter with the sizes of the moment, unless it was worked out before the
last change; then it keeps the value that it had first, as long as it is no symbol.

Results:
* `fresh_afterSteps`: the registries after any steps are those that the changes among them make.
* `get?_learned_after`: what one step remembers.
* `get?_learned_afterAll`: what is remembered after any steps is the first value of each text.
* `answer_afterAll`: what any step answers after any steps.
-/
namespace TypedTables.Units

/-- One use of a converter. -/
inductive UnitStep where
  | multiplier (unit : String)
  | convert (x : Float) (unit : String) (direction : Direction) (allowCompound orNaN : Bool)
  | isValid (unit : String) (allowCompound : Bool)
  | setSize (unit : String) (size : Quantity)

/-- What a use of a converter answers. -/
inductive UnitAnswer where
  | value (r : Except UnitError Quantity)
  | verdict (r : Except UnitError Bool)
  | done

namespace UnitStep

/-- The unit text of a question. -/
def unit? : UnitStep → Option String
  | .multiplier unit => some unit
  | .convert _ unit .. => some unit
  | .isValid unit _ => some unit
  | .setSize .. => none

/-- The change of a registry. -/
def change? : UnitStep → Option (String × Quantity)
  | .multiplier _ => none
  | .convert .. => none
  | .isValid .. => none
  | .setSize unit size => some (unit, size)

/-- With the registries of the converter, the step asks for the value of the text as an
expression. -/
def Consults (c : Converter) (unit : String) : UnitStep → Prop
  | .multiplier u => u = unit ∧ unit ∉ c.sizes.keys
  | .convert _ u _ allowCompound _ => u = unit ∧ c.consults unit allowCompound
  | .isValid u allowCompound => u = unit ∧ c.consults unit allowCompound
  | .setSize .. => False

end UnitStep

namespace Converter

/-- The answer to a step. -/
def answer (c : Converter) : UnitStep → UnitAnswer
  | .multiplier unit => .value (c.multiplier unit)
  | .convert x unit direction allowCompound orNaN =>
    .value (if orNaN then c.convertOrNaN x unit direction allowCompound
      else c.convert x unit direction allowCompound)
  | .isValid unit allowCompound => .verdict (c.isValid unit allowCompound)
  | .setSize .. => .done

/-- The converter after a step. -/
def after (c : Converter) : UnitStep → Converter
  | .multiplier unit => c.learn unit
  | .convert _ unit _ allowCompound _ => c.afterConversion unit allowCompound
  | .isValid unit allowCompound => c.afterConversion unit allowCompound
  | .setSize unit size => c.setSize unit size

def afterAll (c : Converter) (steps : List UnitStep) : Converter := steps.foldl after c

/-- A new converter with the registries as the steps leave them. -/
def current (c : Converter) (steps : List UnitStep) : Converter where
  sizes := c.sizes.insertAll (steps.filterMap UnitStep.change?)
  nonlinear := c.nonlinear

/-- The converter with one more remembered value. -/
def remembering (c : Converter) (unit : String) (v : Quantity) : Converter :=
  { c with learned := c.learned.insert unit v }

/-- Among the steps one asked for the text as an expression, which had this value then. -/
def WorkedOut (c : Converter) (steps : List UnitStep) (unit : String) (v : Quantity) : Prop :=
  ∃ before x rest, steps = before ++ x :: rest ∧ x.Consults (c.current before) unit ∧
    (c.current before).evaluate unit = .ok v

/-- The value that the text had when it was first worked out. -/
def FirstValue (c : Converter) (steps : List UnitStep) (unit : String) (v : Quantity) : Prop :=
  ∃ before x rest, steps = before ++ x :: rest ∧ x.Consults (c.current before) unit ∧
    (c.current before).evaluate unit = .ok v ∧ ∀ w, ¬ c.WorkedOut before unit w

/-! ## Registries -/

theorem afterAll_snoc (c : Converter) (steps : List UnitStep) (x : UnitStep) :
    c.afterAll (steps ++ [x]) = (c.afterAll steps).after x := by
  rw [afterAll, List.foldl_append]
  rfl

/-- Only a change of a size leaves other registries behind. -/
theorem fresh_after_of_unchanged (c : Converter) {x : UnitStep} (hx : x.change? = none) :
    (c.after x).fresh = c.fresh := by
  cases x with
  | multiplier unit => exact fresh_learn c unit
  | convert x unit direction allowCompound orNaN => exact fresh_afterConversion c unit _
  | isValid unit allowCompound => exact fresh_afterConversion c unit _
  | setSize unit size => cases hx

theorem current_snoc_of_unchanged (c : Converter) (steps : List UnitStep) {x : UnitStep}
    (hx : x.change? = none) : c.current (steps ++ [x]) = c.current steps := by
  unfold current
  rw [List.filterMap_append, List.filterMap_cons_none hx, List.filterMap_nil, List.append_nil]

theorem current_append_of_unchanged (c : Converter) (old recent : List UnitStep)
    (h : ∀ x ∈ recent, x.change? = none) : c.current (old ++ recent) = c.current old := by
  unfold current
  rw [List.filterMap_append, List.filterMap_eq_nil_iff.2 h, List.append_nil]

/-- The registries after any steps are those that the changes among them make. -/
theorem fresh_afterSteps (c : Converter) (steps : List UnitStep) :
    (c.afterAll steps).fresh = c.current steps := by
  induction steps using List.reverseRecOn with
  | nil => rfl
  | append_singleton steps x ih =>
    rw [afterAll_snoc]
    by_cases hx : x.change? = none
    · rw [fresh_after_of_unchanged _ hx, ih, current_snoc_of_unchanged c steps hx]
    · cases x with
      | setSize unit size =>
        have sizes : (c.afterAll steps).fresh.sizes = (c.current steps).sizes := by rw [ih]
        have nonlinear : (c.afterAll steps).fresh.nonlinear = c.nonlinear := by rw [ih]; rfl
        change (c.afterAll steps).sizes = _ at sizes
        change (c.afterAll steps).nonlinear = _ at nonlinear
        show Converter.mk ((c.afterAll steps).sizes.insert unit size) (c.afterAll steps).nonlinear ∅
          = _
        rw [sizes, nonlinear]
        simp [current, OrderedMap.insertAll, UnitStep.change?]
      | multiplier | convert | isValid => exact absurd rfl hx

/-! ## What is remembered -/

theorem get?_learned_learn (c : Converter) (u unit : String) (v : Quantity) :
    (c.learn u).learned.get? unit = some v ↔ c.learned.get? unit = some v ∨
      c.learned.get? unit = none ∧ u = unit ∧ unit ∉ c.sizes.keys ∧ c.evaluate unit = .ok v := by
  unfold learn
  split
  · next known =>
    refine ⟨.inl, fun h => h.resolve_right ?_⟩
    rintro ⟨none, rfl, noSymbol, -⟩
    rw [Bool.or_eq_true] at known
    rcases known with known | known
    · exact noSymbol ((c.sizes.contains_iff u).1 known)
    · rw [OrderedMap.contains, none] at known
      cases known
  · next new =>
    rw [Bool.or_eq_true, not_or, c.sizes.contains_iff] at new
    have none : c.learned.get? u = none := by
      simpa [OrderedMap.contains] using new.2
    by_cases hu : u = unit
    · subst hu
      cases he : c.evaluate u with
      | error e => simp [none]
      | ok q => simp [none, new.1, OrderedMap.get?_insert]
    · cases he : c.evaluate u with
      | error e => simp [hu]
      | ok q => simp [hu, OrderedMap.get?_insert]

theorem get?_learned_afterConversion (c : Converter) (u unit : String) (allowCompound : Bool)
    (v : Quantity) : (c.afterConversion u allowCompound).learned.get? unit = some v ↔
      c.learned.get? unit = some v ∨ c.learned.get? unit = none ∧
        (u = unit ∧ c.consults unit allowCompound) ∧ c.evaluate unit = .ok v := by
  unfold afterConversion
  split
  · next asks =>
    have noSymbol : u ∉ c.sizes.keys := by
      rw [← c.sizes.contains_iff]
      simp only [consults, Bool.and_eq_true] at asks
      simpa using asks.1.2
    rw [get?_learned_learn]
    refine or_congr_right (and_congr_right fun _ => ?_)
    constructor
    · rintro ⟨rfl, -, he⟩
      exact ⟨⟨rfl, asks⟩, he⟩
    · rintro ⟨⟨rfl, -⟩, he⟩
      exact ⟨rfl, noSymbol, he⟩
  · next asks =>
    refine ⟨.inl, fun h => h.resolve_right ?_⟩
    rintro ⟨-, ⟨rfl, asks'⟩, -⟩
    exact asks asks'

/-- A step remembers the value of the text that it asks for, if it is not remembered yet. -/
theorem get?_learned_after (c : Converter) (x : UnitStep) (unit : String) (v : Quantity) :
    (c.after x).learned.get? unit = some v ↔ c.learned.get? unit = some v ∨
      c.learned.get? unit = none ∧ x.Consults c unit ∧ c.evaluate unit = .ok v := by
  cases x with
  | multiplier u =>
    show (c.learn u).learned.get? unit = some v ↔ _
    rw [get?_learned_learn, UnitStep.Consults, and_assoc]
  | convert x u direction allowCompound orNaN => exact c.get?_learned_afterConversion u unit _ v
  | isValid u allowCompound => exact c.get?_learned_afterConversion u unit _ v
  | setSize u size =>
    show c.learned.get? unit = some v ↔ _
    simp [UnitStep.Consults]

/-- What holds of a step and those before it, at some step of a longer list. -/
theorem exists_split_snoc {α : Type} {P : List α → α → Prop} (l : List α) (a : α) :
    (∃ before x rest, l ++ [a] = before ++ x :: rest ∧ P before x) ↔
      (∃ before x rest, l = before ++ x :: rest ∧ P before x) ∨ P l a := by
  constructor
  · rintro ⟨before, x, rest, split, h⟩
    rcases rest.eq_nil_or_concat with rfl | ⟨rest, y, rfl⟩
    · obtain ⟨rfl, last⟩ := List.append_inj' split rfl
      cases last
      exact .inr h
    · rw [List.concat_eq_append, ← List.cons_append, ← List.append_assoc] at split
      exact .inl ⟨before, x, rest, (List.append_inj' split rfl).1, h⟩
  · rintro (⟨before, x, rest, rfl, h⟩ | h)
    · exact ⟨before, x, rest ++ [a], by simp, h⟩
    · exact ⟨l, a, [], rfl, h⟩

theorem workedOut_snoc (c : Converter) (steps : List UnitStep) (x : UnitStep) (unit : String)
    (v : Quantity) : c.WorkedOut (steps ++ [x]) unit v ↔ c.WorkedOut steps unit v ∨
      x.Consults (c.current steps) unit ∧ (c.current steps).evaluate unit = .ok v :=
  exists_split_snoc steps x

theorem firstValue_snoc (c : Converter) (steps : List UnitStep) (x : UnitStep) (unit : String)
    (v : Quantity) : c.FirstValue (steps ++ [x]) unit v ↔ c.FirstValue steps unit v ∨
      x.Consults (c.current steps) unit ∧ (c.current steps).evaluate unit = .ok v ∧
        ∀ w, ¬ c.WorkedOut steps unit w :=
  exists_split_snoc steps x

theorem FirstValue.workedOut {c : Converter} {steps : List UnitStep} {unit : String} {v : Quantity}
    (h : c.FirstValue steps unit v) : c.WorkedOut steps unit v := by
  obtain ⟨before, x, rest, split, consults, value, -⟩ := h
  exact ⟨before, x, rest, split, consults, value⟩

/-- **What is remembered** after any steps is the first value of each text. -/
theorem get?_learned_afterAll {c : Converter} (new : c.learned = ∅) (steps : List UnitStep)
    (unit : String) :
    (∀ v, (c.afterAll steps).learned.get? unit = some v ↔ c.FirstValue steps unit v) ∧
    ((c.afterAll steps).learned.get? unit = none ↔ ∀ v, ¬ c.WorkedOut steps unit v) := by
  induction steps using List.reverseRecOn with
  | nil =>
    have nothing : c.learned.get? unit = none := by
      rw [new]
      exact OrderedMap.get?_empty unit
    have none : (c.afterAll []).learned.get? unit = none := nothing
    rw [none]
    refine ⟨fun v => iff_of_false (by simp) ?_, iff_of_true rfl fun v => ?_⟩
    · rintro ⟨before, x, rest, split, -⟩
      exact absurd split (by simp)
    · rintro ⟨before, x, rest, split, -⟩
      exact absurd split (by simp)
  | append_singleton steps x ih =>
    obtain ⟨first, none⟩ := ih
    have now := c.fresh_afterSteps steps
    have consults : x.Consults (c.afterAll steps) unit ↔ x.Consults (c.current steps) unit := by
      rw [← now]
      cases x <;> rfl
    have evaluate : (c.afterAll steps).evaluate unit = (c.current steps).evaluate unit := by
      rw [← now]
      rfl
    have value : ∀ v, (c.afterAll (steps ++ [x])).learned.get? unit = some v ↔
        c.FirstValue (steps ++ [x]) unit v := by
      intro v
      rw [afterAll_snoc, get?_learned_after, firstValue_snoc, first, none, consults, evaluate]
      tauto
    refine ⟨value, ?_⟩
    rw [Option.eq_none_iff_forall_ne_some]
    simp only [ne_eq, value, workedOut_snoc, firstValue_snoc]
    cases known : (c.afterAll steps).learned.get? unit with
    | none =>
      have noFirst : ∀ v, ¬ c.FirstValue steps unit v := fun v hv => by
        rw [(first v).2 hv] at known
        cases known
      simp [none.1 known, noFirst]
    | some v =>
      have hv := (first v).1 known
      exact iff_of_false (fun all => all v (.inl hv)) fun all => all v (.inl hv.workedOut)

/-! ## Answers -/

/-- An answer rests on the registries and on the multiplier of the text. -/
theorem answer_congr {c d : Converter} (sizes : c.sizes = d.sizes)
    (nonlinear : c.nonlinear = d.nonlinear) {unit : String}
    (multiplier : c.multiplier unit = d.multiplier unit) {x : UnitStep}
    (hx : x.unit? = some unit) : c.answer x = d.answer x := by
  have convert : ∀ y direction allowCompound,
      c.convert y unit direction allowCompound = d.convert y unit direction allowCompound := by
    intro y direction allowCompound
    unfold convert
    rw [sizes, nonlinear, multiplier]
  have convertUnknown : ∀ y direction allowCompound, c.convertOrNaN y unit direction allowCompound =
      d.convertOrNaN y unit direction allowCompound := by
    intro y direction allowCompound
    unfold convertOrNaN
    rw [convert]
  cases x with
  | multiplier u =>
    cases hx
    exact congrArg _ multiplier
  | convert y u direction allowCompound orNaN =>
    cases hx
    simp only [answer, convert, convertUnknown]
  | isValid u allowCompound =>
    cases hx
    simp only [answer, isValid, convertUnknown]
  | setSize => rfl

/-- The first value is one value. -/
theorem FirstValue.eq_iff {c : Converter} (new : c.learned = ∅) {steps : List UnitStep}
    {unit : String} {v : Quantity} (h : c.FirstValue steps unit v) (u : Quantity) :
    c.FirstValue steps unit u ↔ u = v := by
  obtain ⟨first, -⟩ := get?_learned_afterAll new steps unit
  rw [← first, (first v).2 h, Option.some_inj, eq_comm]

/-- What is first worked out after the last change is what the text has now. -/
theorem FirstValue.evaluate_current {c : Converter} {old recent : List UnitStep} {unit : String}
    {v : Quantity} (h : c.FirstValue (old ++ recent) unit v)
    (unchanged : ∀ y ∈ recent, y.change? = none) (notOld : ∀ w, ¬ c.WorkedOut old unit w) :
    (c.current (old ++ recent)).evaluate unit = .ok v := by
  obtain ⟨before, y, rest, split, consults, value, -⟩ := h
  have later : ∃ tail, before = old ++ tail ∧ recent = tail ++ y :: rest := by
    obtain tail | ⟨tail, hold, hrest⟩ := List.append_eq_append_iff.1 split
    · exact tail
    · cases tail with
      | nil => exact ⟨[], by simpa using hold.symm, hrest.symm⟩
      | cons z tail =>
        cases hrest
        exact absurd ⟨before, y, tail, hold, consults, value⟩ (notOld v)
  obtain ⟨tail, rfl, rfl⟩ := later
  have unchangedTail : ∀ z ∈ tail, z.change? = none :=
    fun z hz => unchanged z (List.mem_append_left _ hz)
  rw [current_append_of_unchanged c old _ unchanged]
  rwa [current_append_of_unchanged c old tail unchangedTail] at value

/-- **Answers.** After any steps on a new converter, a text that was not worked out before the last
change of a size is answered as by a new converter with the sizes of the moment. A text that was
worked out keeps the value that it had first, except that a symbol has the size of the moment. -/
theorem answer_afterAll {c : Converter} (new : c.learned = ∅) (past : List UnitStep)
    {x : UnitStep} {unit : String} (hx : x.unit? = some unit) :
    (∀ old recent, past = old ++ recent → (∀ y ∈ recent, y.change? = none) →
      (∀ v, ¬ c.WorkedOut old unit v) → (c.afterAll past).answer x = (c.current past).answer x) ∧
    ∀ w, c.WorkedOut past unit w → ∃ v, (∀ u, c.FirstValue past unit u ↔ u = v) ∧
      (c.afterAll past).multiplier unit = .ok (((c.current past).sizes.get? unit).getD v) ∧
      (c.afterAll past).answer x = ((c.current past).remembering unit v).answer x ∧
      (unit ∈ (c.current past).sizes.keys →
        (c.afterAll past).answer x = (c.current past).answer x) := by
  have now := c.fresh_afterSteps past
  have sizes : (c.afterAll past).sizes = (c.current past).sizes := by
    rw [← now]
    rfl
  have nonlinear : (c.afterAll past).nonlinear = (c.current past).nonlinear := by
    rw [← now]
    rfl
  have evaluate : (c.afterAll past).evaluate unit = (c.current past).evaluate unit := by
    rw [← now]
    rfl
  obtain ⟨first, none⟩ := get?_learned_afterAll new past unit
  constructor
  · rintro old recent rfl unchanged notOld
    refine answer_congr sizes nonlinear ?_ hx
    cases known : (c.afterAll (old ++ recent)).learned.get? unit with
    | none => simp only [multiplier, sizes, known, evaluate]; rfl
    | some v =>
      have value := ((first v).1 known).evaluate_current unchanged notOld
      simp only [multiplier, sizes, known, value]; rfl
  · intro w worked
    cases known : (c.afterAll past).learned.get? unit with
    | none => exact absurd worked (none.1 known w)
    | some v =>
      have value := (first v).1 known
      have size : (c.afterAll past).multiplier unit =
          .ok (((c.current past).sizes.get? unit).getD v) := by
        simp only [multiplier, sizes, known]
        cases (c.current past).sizes.get? unit <;> rfl
      have kept : ((c.current past).remembering unit v).multiplier unit =
          .ok (((c.current past).sizes.get? unit).getD v) := by
        have remembered : ((c.current past).remembering unit v).learned.get? unit = some v := by
          unfold remembering
          rw [OrderedMap.get?_insert, if_pos rfl]
        have same : ((c.current past).remembering unit v).sizes = (c.current past).sizes := rfl
        simp only [multiplier, same, remembered]
        cases (c.current past).sizes.get? unit <;> rfl
      have answer : (c.afterAll past).answer x = ((c.current past).remembering unit v).answer x :=
        answer_congr (d := (c.current past).remembering unit v) sizes nonlinear
          (size.trans kept.symm) hx
      refine ⟨v, value.eq_iff new, size, answer, fun symbol => ?_⟩
      obtain ⟨q, hq⟩ := ((c.current past).sizes.mem_keys_iff unit).1 symbol
      refine answer_congr sizes nonlinear ?_ hx
      simp only [multiplier, sizes, hq]

/-- Two questions, the first before the size of a unit is changed and the second after it. -/
def changedHour : List UnitStep :=
  [.multiplier "h/m", .setSize "h" (.real 60), .isValid "m h" true]

/-- The text of the first question keeps its value, and that of the second has the value of the
moment. -/
theorem hour_remembered :
    metreHour.WorkedOut changedHour "h/m" (.real 3600) ∧
    (metreHour.current changedHour).multiplier "h/m" = .ok (.real 60) ∧
    (metreHour.afterAll changedHour).multiplier "h/m" = .ok (.real 3600) ∧
    (metreHour.afterAll changedHour).answer (.multiplier "m h") = .value (.ok (.real 60)) := by
  have worked : metreHour.WorkedOut changedHour "h/m" (.real 3600) :=
    ⟨[], .multiplier "h/m", _, rfl, ⟨rfl, by decide⟩, by decide +kernel⟩
  have notOld : ∀ v, ¬ metreHour.WorkedOut (changedHour.take 2) "m h" v := by
    rintro v ⟨before, x, rest, split, consults, -⟩
    have hx : x ∈ changedHour.take 2 := by
      rw [split]
      simp
    obtain rfl | hx := List.mem_cons.1 hx
    · exact absurd consults.1 (by decide)
    · obtain rfl := List.mem_singleton.1 hx
      exact consults
  have noSymbol : (metreHour.current changedHour).sizes.get? "h/m" = none := by decide
  have product : (metreHour.current changedHour).multiplier "m h" = .ok (.real 60) := by
    decide +kernel
  refine ⟨worked, by decide +kernel, ?_, ?_⟩
  · obtain ⟨v, first, multiplier, -⟩ :=
      (answer_afterAll rfl changedHour (x := .multiplier "h/m") rfl).2 _ worked
    have hv : .real 3600 = v := (first _).1
      ⟨[], .multiplier "h/m", _, rfl, ⟨rfl, by decide⟩, by decide +kernel, by
        rintro w ⟨before, x, rest, split, -⟩
        exact absurd split (by simp)⟩
    rw [multiplier, noSymbol, hv]
    rfl
  · rw [(answer_afterAll rfl changedHour (x := .multiplier "m h") rfl).1 _ (changedHour.drop 2) rfl
      (by decide) notOld]
    exact congrArg UnitAnswer.value product

end Converter

end TypedTables.Units
