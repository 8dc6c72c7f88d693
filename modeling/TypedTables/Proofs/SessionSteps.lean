import Mathlib.Data.List.Induction
import TypedTables.Session
/-!
# Sessions over time

A session is used in steps, in any order: runs over files that change between them, some of which
fail, queries, and the rest. It keeps a store and, besides, a reader of the store, which are set at
different times. `Session.Current` says what must hold between the two at every moment; every step
keeps it, so that a query is never answered from the tables of an earlier run.

Results:
* `Current.after`, `Current.afterAll`: a reader that is kept is that of the store.
* `run_afterAll`: a run does not see what was done before.
* `store_afterAll_iff`: the store is that of the last run, if the run succeeded and nothing was
  cleared since.
* `ask_afterAll`: what queries answer, after any steps.
-/
namespace TypedTables

/-- One use of a session. Each run has the disk as it finds it. -/
inductive SessionStep : Type 1 where
  | run (d : Disk) (r : Run)
  | clear
  | query {α : Type} (q : Access → α)
  | readTables (d : Disk) (paths : List Path)
  | converter (d : Disk) (changes : UnitChanges)

/-- Whether the store may be another after the step. -/
def SessionStep.discards : SessionStep → Bool
  | .run .. => true
  | .clear => true
  | .query _ => false
  | .readTables .. => false
  | .converter .. => false

namespace Session

/-- The session after a step. Reading tables or making a converter leaves nothing behind. -/
def after (yaml : Units.YamlReader) (s : Session) : SessionStep → Session
  | .run d r => (s.run yaml d r).2
  | .clear => s.clear
  | .query q => (s.ask q).2
  | .readTables .. => s
  | .converter .. => s

def afterAll (yaml : Units.YamlReader) (s : Session) (steps : List SessionStep) : Session :=
  steps.foldl (after yaml) s

/-- The last run succeeded with this store, and nothing was cleared since. -/
def LastRun (yaml : Units.YamlReader) (s : Session) (steps : List SessionStep) (store : Store) :
    Prop :=
  ∃ before d r rest, steps = before ++ .run d r :: rest ∧ (∀ x ∈ rest, x.discards = false) ∧
    ((s.afterAll yaml before).run yaml d r).1.result = .ok store

/-! ## Readers -/

/-- A reader that is kept is that of the store, with the values that the settings have for missing
fields. -/
def Current (s : Session) : Prop :=
  ∀ reader, s.reader = some reader →
    s.store = some reader.store ∧ reader.missing = s.settings.missing

variable {s : Session}

theorem access_of_none (h : s.store = none) : s.access = .error .noTables := by
  rw [access, h]

/-- Whether the reader was kept or is new makes no difference. -/
theorem Current.access_of_store (current : s.Current) {store : Store} (h : s.store = some store) :
    s.access = .ok ⟨store, s.settings.missing⟩ := by
  rw [access, h]
  cases hr : s.reader with
  | none => rfl
  | some reader =>
    obtain ⟨store', missing⟩ := reader
    obtain ⟨same, rfl⟩ := current _ hr
    cases h.symm.trans same
    rfl

theorem ask_of_access {a : Access} {α : Type} (h : s.access = .ok a) (q : Access → α) :
    s.ask q = (.ok (q a), { s with reader := some a }) := by
  rw [ask, h]

theorem ask_of_none {α : Type} (h : s.store = none) (q : Access → α) :
    s.ask q = (.error .noTables, s) := by
  rw [ask, access_of_none h]

theorem ask_settings {α : Type} (q : Access → α) : (s.ask q).2.settings = s.settings := by
  unfold ask
  split <;> rfl

theorem ask_store {α : Type} (q : Access → α) : (s.ask q).2.store = s.store := by
  unfold ask
  split <;> rfl

theorem Current.ask {α : Type} (current : s.Current) (q : Access → α) :
    (s.ask q).2.Current := by
  cases h : s.store with
  | none =>
    rw [ask_of_none h]
    exact current
  | some store =>
    rw [ask_of_access (current.access_of_store h)]
    intro reader hr
    cases hr
    exact ⟨h, rfl⟩

/-! ## Steps -/

section Steps

variable (yaml : Units.YamlReader)

theorem after_settings (s : Session) (x : SessionStep) :
    (s.after yaml x).settings = s.settings := by
  cases x with
  | query q => exact ask_settings q
  | run d r => rfl
  | clear => rfl
  | readTables d paths => rfl
  | converter d changes => rfl

/-- Only runs and clearing touch the store. -/
theorem after_store {x : SessionStep} (hx : x.discards = false) :
    (s.after yaml x).store = s.store := by
  cases x with
  | query q => exact ask_store q
  | run d r => cases hx
  | clear => cases hx
  | readTables d paths => rfl
  | converter d changes => rfl

/-- **Readers.** No step leaves the reader of a store that is gone. -/
theorem Current.after (current : s.Current) (x : SessionStep) : (s.after yaml x).Current := by
  cases x with
  | query q => exact current.ask q
  | run d r => exact fun reader hr => nomatch hr
  | clear => exact fun reader hr => nomatch hr
  | readTables d paths => exact current
  | converter d changes => exact current

theorem afterAll_snoc (s : Session) (steps : List SessionStep) (x : SessionStep) :
    s.afterAll yaml (steps ++ [x]) = (s.afterAll yaml steps).after yaml x := by
  rw [afterAll, List.foldl_append]
  rfl

theorem afterAll_settings (s : Session) (steps : List SessionStep) :
    (s.afterAll yaml steps).settings = s.settings := by
  induction steps using List.reverseRecOn with
  | nil => rfl
  | append_singleton steps x ih => rw [afterAll_snoc, after_settings, ih]

theorem Current.afterAll (h : s.Current) (steps : List SessionStep) :
    (s.afterAll yaml steps).Current := by
  induction steps using List.reverseRecOn with
  | nil => exact h
  | append_singleton steps x ih =>
    rw [afterAll_snoc]
    exact ih.after yaml x

theorem link_of_settings {s' : Session} (h : s.settings = s'.settings) (d : Disk) (r : Run) :
    s.link yaml d r = s'.link yaml d r := by
  unfold link converter overrides linkOptions
  rw [h]

/-- A run goes as it would in a new session. -/
theorem run_afterAll (s : Session) (steps : List SessionStep) (d : Disk) (r : Run) :
    ((s.afterAll yaml steps).run yaml d r).1 = (s.run yaml d r).1 :=
  link_of_settings yaml (afterAll_settings yaml s steps) d r

theorem lastRun_snoc (steps : List SessionStep) (x : SessionStep) (store : Store) :
    s.LastRun yaml (steps ++ [x]) store ↔ (x.discards = false ∧ s.LastRun yaml steps store) ∨
      ∃ d r, x = .run d r ∧ ((s.afterAll yaml steps).run yaml d r).1.result = .ok store := by
  constructor
  · rintro ⟨before, d, r, rest, split, keeps, ran⟩
    rcases rest.eq_nil_or_concat with rfl | ⟨rest, y, rfl⟩
    · obtain ⟨rfl, last⟩ := List.append_inj' split rfl
      cases last
      exact .inr ⟨d, r, rfl, ran⟩
    · rw [List.concat_eq_append, ← List.cons_append, ← List.append_assoc] at split
      obtain ⟨rfl, last⟩ := List.append_inj' split rfl
      cases last
      rw [List.concat_eq_append, List.forall_mem_append] at keeps
      exact .inl ⟨keeps.2 x (by simp), before, d, r, rest, rfl, keeps.1, ran⟩
  · rintro (⟨keep, before, d, r, rest, rfl, keeps, ran⟩ | ⟨d, r, rfl, ran⟩)
    · refine ⟨before, d, r, rest ++ [x], by simp, ?_, ran⟩
      exact List.forall_mem_append.2 ⟨keeps, by simpa using keep⟩
    · exact ⟨steps, d, r, [], rfl, by simp, ran⟩

/-- **The store.** After any steps the store is that of the last run, if the run succeeded and
nothing was cleared since. -/
theorem store_afterAll_iff (fresh : s.store = none) (steps : List SessionStep) (store : Store) :
    (s.afterAll yaml steps).store = some store ↔ s.LastRun yaml steps store := by
  induction steps using List.reverseRecOn with
  | nil =>
    constructor
    · intro h
      cases fresh.symm.trans h
    · rintro ⟨before, d, r, rest, split, -⟩
      exact absurd split (by simp)
  | append_singleton steps x ih =>
    rw [afterAll_snoc, lastRun_snoc]
    by_cases keep : x.discards = false
    · rw [after_store yaml keep, ih, and_iff_right keep, or_iff_left]
      rintro ⟨d, r, rfl, -⟩
      cases keep
    · rw [or_iff_right fun kept => keep kept.1]
      cases x with
      | run d r =>
        show ((s.afterAll yaml steps).run yaml d r).1.result.toOption = some store ↔ _
        constructor
        · intro h
          cases ran : ((s.afterAll yaml steps).run yaml d r).1.result with
          | error e => rw [ran] at h; cases h
          | ok store' =>
            rw [ran] at h
            cases h
            exact ⟨d, r, rfl, ran⟩
        · rintro ⟨_, _, same, ran⟩
          cases same
          rw [ran]
          rfl
      | clear =>
        constructor
        · intro h
          cases h
        · rintro ⟨_, _, same, -⟩
          cases same
      | query q => exact absurd rfl keep
      | readTables d paths => exact absurd rfl keep
      | converter d changes => exact absurd rfl keep

/-- **Queries.** After any steps on a new session a query is answered as by a new reader of the
store of the last run, if the run succeeded and nothing was cleared since. In every other case there
are no tables to query. -/
theorem ask_afterAll (settings : Settings) (steps : List SessionStep) {α : Type}
    (q : Access → α) :
    (∀ x, ((Session.afterAll yaml { settings } steps).ask q).1 = .ok x ↔
      ∃ store, LastRun yaml { settings } steps store ∧ x = q ⟨store, settings.missing⟩) ∧
    ∀ e, ((Session.afterAll yaml { settings } steps).ask q).1 = .error e ↔
      e = .noTables ∧ ∀ store, ¬ LastRun yaml { settings } steps store := by
  have new : Current { settings } := fun reader hr => nomatch hr
  have same : (afterAll yaml { settings } steps).settings = settings :=
    afterAll_settings yaml _ steps
  simp only [← store_afterAll_iff yaml (s := { settings }) rfl steps]
  cases hs : (afterAll yaml { settings } steps).store with
  | none =>
    rw [ask_of_none hs]
    simp [eq_comm]
  | some store =>
    rw [ask_of_access ((new.afterAll yaml steps).access_of_store hs), same]
    simp [eq_comm]

/-- A reader that was kept is gone with its store. -/
example (d : Disk) (r : Run) {α : Type} (q : Access → α) :
    ((afterAll yaml {} [.run d r, .query q, .clear]).ask q).1 = .error .noTables := rfl

end Steps

end Session

end TypedTables
