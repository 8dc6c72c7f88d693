import Mathlib.Data.List.Forall2
import TypedTables.Log
import TypedTables.Table.Raw
/-!
# Computations that succeed

A computation that succeeds is taken apart into the answers of its steps, one lemma for each
way of putting steps together.

Results:
* `bind_eq_ok`, `bind_eq_error`, `map_eq_ok`, `mapError_eq_ok`: the steps of a computation that can
  fail.
* `interning_bind_eq_ok`: the steps of one that threads a pool of strings.
* `mapM_eq_ok`, `interning_mapM_eq_ok`: the steps of a list, one by one.
* `Raises.bind`, `Raises.mapM`, `Raises.interning_bind`: the errors of a computation are those of its
  steps.
* `Refines.bind`, `Refines.mapM`: the answers of a computation are kept if those of its steps are.
-/
namespace TypedTables

variable {ε ε' α β : Type}

theorem bind_eq_ok {x : Except ε α} {f : α → Except ε β} {b : β} :
    x >>= f = .ok b ↔ ∃ a, x = .ok a ∧ f a = .ok b := by
  cases x with
  | error e => simp [bind, Except.bind]
  | ok a => simp [bind, Except.bind]

theorem bind_eq_error {x : Except ε α} {f : α → Except ε β} {e : ε} :
    x >>= f = .error e ↔ x = .error e ∨ ∃ a, x = .ok a ∧ f a = .error e := by
  cases x with
  | error e => simp [bind, Except.bind]
  | ok a => simp [bind, Except.bind]

theorem map_eq_ok {x : Except ε α} {f : α → β} {b : β} :
    f <$> x = .ok b ↔ ∃ a, x = .ok a ∧ f a = b := by
  cases x with
  | error e => simp [Functor.map, Except.map]
  | ok a => simp [Functor.map, Except.map]

theorem mapError_eq_ok {x : Except ε α} {f : ε → ε'} {a : α} :
    x.mapError f = .ok a ↔ x = .ok a := by
  cases x with
  | error e => simp [Except.mapError]
  | ok a => simp [Except.mapError]

theorem exists_error_iff {x : Except ε α} : (∃ e, x = .error e) ↔ ¬ ∃ a, x = .ok a := by
  cases x <;> simp

/-- What is left of a computation when its error is dropped. -/
theorem toOption_map_eq_some {x : Except ε α} {f : α → β} {b : β} :
    x.toOption.map f = some b ↔ ∃ a, x = .ok a ∧ f a = b := by
  cases x with
  | error e => simp [Except.toOption]
  | ok a => simp [Except.toOption]

theorem mapM_eq_ok {f : α → Except ε β} {l : List α} {r : List β} :
    l.mapM f = .ok r ↔ List.Forall₂ (fun a b => f a = .ok b) l r := by
  induction l generalizing r with
  | nil => simp [pure, Except.pure, eq_comm]
  | cons a l ih =>
    simp only [List.mapM_cons, bind_eq_ok, ih, List.forall₂_cons_left_iff]
    constructor
    · rintro ⟨b, hb, bs, hbs, h⟩
      cases h
      exact ⟨b, bs, hb, hbs, rfl⟩
    · rintro ⟨b, bs, hb, hbs, rfl⟩
      exact ⟨b, hb, bs, hbs, rfl⟩

/-- What two paired lists have in common. -/
theorem map_eq_of_forall₂ {γ : Type} {R : α → β → Prop} {f : α → γ} {g : β → γ} {l : List α}
    {r : List β} (h : List.Forall₂ R l r) (hR : ∀ a b, R a b → g b = f a) : r.map g = l.map f := by
  induction h with
  | nil => rfl
  | cons hab _ ih => rw [List.map_cons, List.map_cons, hR _ _ hab, ih]

theorem exists_of_forall₂ {R : α → β → Prop} {l : List α} {r : List β} (h : List.Forall₂ R l r)
    {a : α} (ha : a ∈ l) : ∃ b ∈ r, R a b := by
  induction h with
  | nil => cases ha
  | cons hab _ ih =>
    rcases List.mem_cons.1 ha with rfl | ha
    · exact ⟨_, List.mem_cons_self, hab⟩
    · obtain ⟨b, hb, hR⟩ := ih ha
      exact ⟨b, List.mem_cons_of_mem _ hb, hR⟩

/-! ## Threading a pool -/

theorem interning_bind_eq_ok {x : Interning ε α} {f : α → Interning ε β} {p p' : StringPool}
    {b : β} : (x >>= f) p = .ok (b, p') ↔ ∃ a p₁, x p = .ok (a, p₁) ∧ f a p₁ = .ok (b, p') := by
  show (x p >>= fun s => f s.1 s.2) = _ ↔ _
  rw [bind_eq_ok, Prod.exists]

theorem interning_pure_eq_ok {a b : α} {p p' : StringPool} :
    (pure a : Interning ε α) p = .ok (b, p') ↔ a = b ∧ p = p' := by
  show Except.ok (a, p) = .ok (b, p') ↔ _
  rw [Except.ok.injEq, Prod.mk.injEq]

theorem interning_lift_eq_ok {x : Except ε α} {a : α} {p p' : StringPool} :
    (liftM x : Interning ε α) p = .ok (a, p') ↔ x = .ok a ∧ p = p' := by
  show (x >>= fun a => Except.ok (a, p)) = _ ↔ _
  rw [bind_eq_ok]
  constructor
  · rintro ⟨b, hb, h⟩
    cases h
    exact ⟨hb, rfl⟩
  · rintro ⟨h, rfl⟩
    exact ⟨a, h, rfl⟩

/-- Each element of the answer is read from its place, with some pool. -/
theorem interning_mapM_eq_ok {f : α → Interning ε β} {l : List α} {r : List β} {p p' : StringPool}
    (h : l.mapM f p = .ok (r, p')) :
    List.Forall₂ (fun a b => ∃ q q', f a q = .ok (b, q')) l r := by
  induction l generalizing r p p' with
  | nil =>
    rw [List.mapM_nil, interning_pure_eq_ok] at h
    rw [← h.1]
    exact .nil
  | cons a l ih =>
    rw [List.mapM_cons, interning_bind_eq_ok] at h
    obtain ⟨b, p₁, hb, h⟩ := h
    obtain ⟨bs, p₂, hbs, h⟩ := interning_bind_eq_ok.1 h
    rw [← (interning_pure_eq_ok.1 h).1]
    exact .cons ⟨p, p₁, hb⟩ (ih hbs)

/-! ## Errors -/

/-- Every error that the computation can end with is as `P` says. -/
def Raises (P : ε → Prop) (x : Except ε α) : Prop := ∀ e, x = .error e → P e

namespace Raises

variable {P : ε → Prop}

theorem ok (a : α) : Raises P (.ok a : Except ε α) := fun e h => by cases h

theorem error {e : ε} (h : P e) : Raises P (.error e : Except ε α) := fun e' h' => by
  cases h'
  exact h

theorem imp {Q : ε → Prop} {x : Except ε α} (hx : Raises P x) (h : ∀ e, P e → Q e) : Raises Q x :=
  fun e he => h e (hx e he)

/-- A later step is only taken with the answer of the earlier one. -/
theorem bind {x : Except ε α} {f : α → Except ε β} (hx : Raises P x)
    (hf : ∀ a, x = .ok a → Raises P (f a)) : Raises P (x >>= f) := by
  intro e h
  rcases bind_eq_error.1 h with h | ⟨a, ha, h⟩
  · exact hx e h
  · exact hf a ha e h

theorem bind_ok {x : Except ε α} {f : α → Except ε β} {a : α} (hx : x = .ok a)
    (hf : Raises P (f a)) : Raises P (x >>= f) := by
  rw [hx]
  exact hf

theorem map {x : Except ε α} {f : α → β} (hx : Raises P x) : Raises P (f <$> x) := by
  cases x with
  | error e => exact .error (hx e rfl)
  | ok a => exact .ok (f a)

theorem mapError {x : Except ε' α} {f : ε' → ε} (h : ∀ e, x = .error e → P (f e)) :
    Raises P (x.mapError f) := by
  cases x with
  | error e => exact .error (h e rfl)
  | ok a => exact .ok a

theorem mapM {f : α → Except ε β} {l : List α} (h : ∀ a ∈ l, Raises P (f a)) :
    Raises P (l.mapM f) := by
  induction l with
  | nil => exact .ok []
  | cons a l ih =>
    rw [List.forall_mem_cons] at h
    rw [List.mapM_cons]
    exact .bind h.1 fun _ _ => .bind (ih h.2) fun _ _ => .ok _

theorem interning_bind {x : Interning ε α} {f : α → Interning ε β} {p : StringPool}
    (hx : Raises P (x p)) (hf : ∀ a p', x p = .ok (a, p') → Raises P (f a p')) :
    Raises P ((x >>= f) p) :=
  bind hx fun s hs => hf s.1 s.2 hs

theorem interning_lift {x : Except ε α} (hx : Raises P x) (p : StringPool) :
    Raises P ((liftM x : Interning ε α) p) :=
  bind hx fun a _ => ok (a, p)

theorem interning_mapM {f : α → Interning ε β} {l : List α} (h : ∀ a ∈ l, ∀ p, Raises P (f a p))
    (p : StringPool) : Raises P (l.mapM f p) := by
  induction l generalizing p with
  | nil => exact .ok ([], p)
  | cons a l ih =>
    rw [List.forall_mem_cons] at h
    rw [List.mapM_cons]
    exact .interning_bind (h.1 p) fun _ p₁ _ => .interning_bind (ih h.2 p₁) fun _ _ _ => .ok _

end Raises

/-! ## Answers -/

/-- If the first computation has an answer, the second has the same. -/
def Refines (x y : Except ε α) : Prop := ∀ a, x = .ok a → y = .ok a

namespace Refines

theorem refl (x : Except ε α) : Refines x x := fun _ => id

theorem of_eq {x y : Except ε α} (h : x = y) : Refines x y := fun _ hx => h ▸ hx

theorem bind {x y : Except ε α} {f g : α → Except ε β} (hx : Refines x y)
    (hf : ∀ a, Refines (f a) (g a)) : Refines (x >>= f) (y >>= g) := by
  intro b h
  obtain ⟨a, ha, h⟩ := bind_eq_ok.1 h
  exact bind_eq_ok.2 ⟨a, hx a ha, hf a b h⟩

theorem map {x y : Except ε α} (f : α → β) (hx : Refines x y) : Refines (f <$> x) (f <$> y) := by
  intro b h
  obtain ⟨a, ha, h⟩ := map_eq_ok.1 h
  exact map_eq_ok.2 ⟨a, hx a ha, h⟩

theorem mapError {x y : Except ε α} (f : ε → ε') (hx : Refines x y) :
    Refines (x.mapError f) (y.mapError f) := fun a h =>
  mapError_eq_ok.2 (hx a (mapError_eq_ok.1 h))

theorem mapM {f g : α → Except ε β} {l : List α} (h : ∀ a ∈ l, Refines (f a) (g a)) :
    Refines (l.mapM f) (l.mapM g) := by
  induction l with
  | nil => exact refl _
  | cons a l ih =>
    rw [List.forall_mem_cons] at h
    rw [List.mapM_cons, List.mapM_cons]
    exact bind h.1 fun b => bind (ih h.2) fun bs => refl _

theorem foldlM {f g : β → α → Except ε β} (h : ∀ b a, Refines (f b a) (g b a)) (l : List α)
    (b : β) : Refines (l.foldlM f b) (l.foldlM g b) := by
  induction l generalizing b with
  | nil => exact refl _
  | cons a l ih =>
    rw [List.foldlM_cons, List.foldlM_cons]
    exact bind (h b a) ih

end Refines

end TypedTables
