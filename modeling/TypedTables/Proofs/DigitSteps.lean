import TypedTables.Proofs.ForeignDigits
import TypedTables.Proofs.SheetShape
/-!
# Counting digits on the way

A sheet that is made with significant digits goes through the same steps as one without them, and
counts digits on the way. The two are carried along side by side: wherever the first is, the second
has the same but for the digits, unless the first has stopped at a text whose digits cannot be
counted.

Results:
* `Observes.bind`, `Observes.mapM`: computations side by side.
* `field_observes`, `writeCell_observes`: the two places where digits are counted.
* `sheet_observes`, `modify_observes`: from them, a table of records and a mod.
-/
namespace TypedTables

open TypedTables.Decimal (unknownPrecision)

/-! ## Side by side -/

/-- What a computation that records digits does beside one that does not. It stops at a text whose
digits cannot be counted, or fails with the other's error, or has an answer that fits the other's. -/
inductive Observes {α β : Type} (P : String → Prop) (R : α → β → Prop) :
    Except LinkError α → Except LinkError β → Prop
  | stopped {t : String} (y : Except LinkError β) : P t → Observes P R (.error (.malformedDigits t)) y
  | failed (e : LinkError) : Observes P R (.error e) (.error e)
  | answered {a : α} {b : β} : R a b → Observes P R (.ok a) (.ok b)

namespace Observes

variable {α β γ δ : Type} {P : String → Prop} {R : α → β → Prop} {S : γ → δ → Prop}

theorem bind {x : Except LinkError α} {y : Except LinkError β} {f : α → Except LinkError γ}
    {g : β → Except LinkError δ} (h : Observes P R x y) (hf : ∀ a b, R a b → Observes P S (f a) (g b)) :
    Observes P S (x >>= f) (y >>= g) := by
  cases h with
  | stopped y ht => exact .stopped _ ht
  | failed e => exact .failed e
  | answered hR => exact hf _ _ hR

/-- A step that both take. -/
theorem bind_same {x : Except LinkError α} {f : α → Except LinkError γ} {g : α → Except LinkError δ}
    (h : ∀ a, x = .ok a → Observes P S (f a) (g a)) : Observes P S (x >>= f) (x >>= g) := by
  cases x with
  | error e => exact .failed e
  | ok a => exact h a rfl

/-- A step that only the computation with digits takes. -/
theorem alone {R : α → Unit → Prop} {x : Except LinkError α} {f : α → Except LinkError γ}
    {y : Except LinkError δ} (h : Observes P R x (.ok ()))
    (hf : ∀ a, R a () → Observes P S (f a) y) : Observes P S (x >>= f) y :=
  h.bind (g := fun _ => y) fun a _ ha => hf a ha

/-- A step that both are known to have taken. -/
theorem bind_ok {x : Except LinkError α} {y : Except LinkError β} {f : α → Except LinkError γ}
    {g : β → Except LinkError δ} {a : α} {b : β} (hx : x = .ok a) (hy : y = .ok b)
    (h : Observes P S (f a) (g b)) : Observes P S (x >>= f) (y >>= g) := by
  rw [hx, hy]
  exact h

theorem imp {R' : α → β → Prop} {P' : String → Prop} {x : Except LinkError α}
    {y : Except LinkError β} (h : Observes P R x y) (hP : ∀ t, P t → P' t)
    (hR : ∀ a b, R a b → R' a b) : Observes P' R' x y := by
  cases h with
  | stopped y ht => exact .stopped y (hP _ ht)
  | failed e => exact .failed e
  | answered ab => exact .answered (hR _ _ ab)

theorem map {x : Except LinkError α} {y : Except LinkError β} {f : α → γ} {g : β → δ}
    (h : Observes P R x y) (hS : ∀ a b, R a b → S (f a) (g b)) : Observes P S (f <$> x) (g <$> y) := by
  cases h with
  | stopped y ht => exact .stopped _ ht
  | failed e => exact .failed e
  | answered hR => exact .answered (hS _ _ hR)

/-- Steps for the elements of one list; `C` is what a step finds out about its element. -/
theorem mapM {ι : Type} {C : ι → Prop} {f : ι → Except LinkError α} {g : ι → Except LinkError β}
    {l : List ι} (h : ∀ i ∈ l, Observes P (fun a b => R a b ∧ C i) (f i) (g i)) :
    Observes P (fun as bs => List.Forall₂ R as bs ∧ ∀ i ∈ l, C i) (l.mapM f) (l.mapM g) := by
  induction l with
  | nil => exact .answered ⟨.nil, by simp⟩
  | cons i l ih =>
    rw [List.forall_mem_cons] at h
    rw [List.mapM_cons, List.mapM_cons]
    refine h.1.bind fun a b ab => (ih h.2).bind fun as bs rest => ?_
    exact .answered ⟨.cons ab.1 rest.1, List.forall_mem_cons.2 ⟨ab.2, rest.2⟩⟩

end Observes

/-! ## Maps -/

/-- Two maps with the same keys and with values that fit. -/
structure OrderedMap.Beside {κ α β : Type} [DecidableEq κ] (R : α → β → Prop) (m : OrderedMap κ α)
    (m' : OrderedMap κ β) : Prop where
  keys : m'.keys = m.keys
  get? : ∀ k, m.get? k = none ∧ m'.get? k = none ∨
    ∃ a b, m.get? k = some a ∧ m'.get? k = some b ∧ R a b

namespace OrderedMap.Beside

variable {κ α β γ δ : Type} [DecidableEq κ] {R : α → β → Prop} {m : OrderedMap κ α}
  {m' : OrderedMap κ β}

theorem empty : Beside R (∅ : OrderedMap κ α) (∅ : OrderedMap κ β) :=
  ⟨rfl, fun _ => .inl ⟨rfl, rfl⟩⟩

theorem insert (h : Beside R m m') (k : κ) {a : α} {b : β} (ab : R a b) :
    Beside R (m.insert k a) (m'.insert k b) := by
  refine ⟨by rw [keys_insert, keys_insert, h.keys], fun k' => ?_⟩
  rw [get?_insert, get?_insert]
  by_cases hk : k = k'
  · rw [if_pos hk, if_pos hk]
    exact .inr ⟨a, b, rfl, rfl, ab⟩
  · rw [if_neg hk, if_neg hk]
    exact h.get? k'

theorem mapValues {S : γ → δ → Prop} {f : κ → α → γ} {g : κ → β → δ} (h : Beside R m m')
    (hS : ∀ k a b, m.get? k = some a → R a b → S (f k a) (g k b)) :
    Beside S (m.mapValues f) (m'.mapValues g) := by
  refine ⟨by rw [keys_mapValues, keys_mapValues, h.keys], fun k => ?_⟩
  rw [get?_mapValues, get?_mapValues]
  obtain ⟨none, none'⟩ | ⟨a, b, ha, hb, ab⟩ := h.get? k
  · exact .inl ⟨by rw [none]; rfl, by rw [none']; rfl⟩
  · exact .inr ⟨f k a, g k b, by rw [ha]; rfl, by rw [hb]; rfl, hS k a b ha ab⟩

/-- When the values are computed from those beside them, so is the map. -/
theorem eq_mapValues {f : κ → α → β} (h : Beside R m m') (hf : ∀ k a b, R a b → b = f k a) :
    m' = m.mapValues f := by
  refine ext_get? (by rw [keys_mapValues, h.keys]) fun k => ?_
  rw [get?_mapValues]
  obtain ⟨none, none'⟩ | ⟨a, b, ha, hb, ab⟩ := h.get? k
  · rw [none, none']
    rfl
  · rw [ha, hb, hf k a b ab]
    rfl

end OrderedMap.Beside

/-! ## Fields -/

/-- The field without its digits. -/
def Field.plain (f : Field) : Field := { f with precisions := none }

/-- A field that has digits if it is a FLOAT, one for each value, and the same without digits. -/
structure Field.Beside (f f' : Field) : Prop where
  plain : f' = f.plain
  tracks : f.precisions.isSome ↔ f.type = ⟨.float, false⟩
  even : ∀ ds, f.precisions = some ds → ds.length = f.values.length

/-- Two sheets of the same fields, without digits for the row names. -/
structure Sheet.Beside (s s' : Sheet) : Prop where
  fields : OrderedMap.Beside Field.Beside s s'
  names : ∀ f, s.get? nameField = some f → f.precisions = none

theorem Sheet.Beside.insert {s s' : Sheet} (h : s.Beside s') {name : String} (hn : name ≠ nameField)
    {f f' : Field} (hf : f.Beside f') :
    Sheet.Beside (OrderedMap.insert s name f) (OrderedMap.insert s' name f') := by
  refine ⟨h.fields.insert name hf, fun g hg => h.names g ?_⟩
  rwa [OrderedMap.get?_insert, if_neg hn] at hg

theorem Sheet.Beside.insertAll {s s' : Sheet} (h : s.Beside s') {l l' : List (String × Field)}
    (hl : List.Forall₂ (fun p q => p.1 = q.1 ∧ p.1 ≠ nameField ∧ p.2.Beside q.2) l l') :
    Sheet.Beside (OrderedMap.insertAll s l) (OrderedMap.insertAll s' l') := by
  induction hl generalizing s s' with
  | nil => exact h
  | @cons p q l l' hpq _ ih =>
    have step := h.insert hpq.2.1 hpq.2.2
    show Sheet.Beside (OrderedMap.insertAll (OrderedMap.insert s p.1 p.2) l)
      (OrderedMap.insertAll (OrderedMap.insert s' q.1 q.2) l')
    rw [← hpq.1]
    exact ih step

/-- The text of a FLOAT cell whose digits cannot be counted. -/
def Column.Stops (c : Column) (raw : Raw) (t : String) : Prop :=
  c.type = ⟨.float, false⟩ ∧ raw = .text t ∧ Decimal.Uncountable t.toList

/-- A FLOAT cell of one of the columns holds the text, and its digits cannot be counted. -/
def Uncounted (columns : List Column) (t : String) : Prop :=
  ∃ c ∈ columns, ∃ raw ∈ c.cells, c.Stops raw t

theorem digits_observes {c : Column} {pool : StringPool} {raw : Raw}
    (float : c.type = ⟨.float, false⟩) (fits : raw.Fits pool c.type) :
    Observes (c.Stops raw) (fun _ _ => ∀ t, ¬ c.Stops raw t) (Linking.digits raw) (.ok ()) := by
  rw [float] at fits
  cases fits with
  | empty => exact .answered fun t ht => by cases ht.2.1
  | array array => cases array
  | scalar _ keeps =>
    cases keeps with
    | pooled hb => cases hb
    | @number t kept =>
      cases hp : Decimal.precision t with
      | error e =>
        obtain ⟨rfl, uncountable⟩ := (Decimal.precision_eq_error_iff kept).1 hp
        rw [Linking.digits, hp]
        exact .stopped _ ⟨float, rfl, uncountable⟩
      | ok k =>
        rw [Linking.digits, hp]
        refine .answered fun t' ⟨_, same, uncountable⟩ => ?_
        cases same
        rw [(Decimal.precision_eq_error_iff (e := ⟨t⟩) kept).2 ⟨rfl, uncountable⟩] at hp
        cases hp

/-- The digits of a column, one number for each cell. -/
theorem columnDigits_observes {c : Column} {pool : StringPool} {cells : List Raw}
    (float : c.type = ⟨.float, false⟩) (fits : ∀ raw ∈ cells, raw.Fits pool c.type) :
    Observes (fun t => ∃ raw ∈ cells, c.Stops raw t)
      (fun ds _ => ds.length = cells.length ∧ ∀ raw ∈ cells, ∀ t, ¬ c.Stops raw t)
      (cells.mapM Linking.digits) (.ok ()) := by
  induction cells with
  | nil => exact .answered ⟨rfl, by simp⟩
  | cons raw cells ih =>
    rw [List.forall_mem_cons] at fits
    rw [List.mapM_cons]
    refine ((digits_observes float fits.1).imp (fun t ht => ⟨raw, List.mem_cons_self, ht⟩)
      fun _ _ => id).alone fun k counted => ?_
    refine ((ih fits.2).imp (fun t ⟨raw', hm, ht⟩ => ⟨raw', List.mem_cons_of_mem _ hm, ht⟩)
      fun _ _ => id).alone fun ks rest => ?_
    exact .answered ⟨by simp [rest.1], List.forall_mem_cons.2 ⟨counted, rest.2⟩⟩

/-- The linking without digits. -/
def Linking.untracked (l : Linking) : Linking :=
  { l with options := { l.options with enablePrecisions := false } }

section Tables

variable {l : Linking} {d : Draft} (on : l.options.enablePrecisions)

include on in
theorem Linking.tracks_of_on {type : FieldType} : l.tracks type ↔ type = ⟨.float, false⟩ := by
  simp [tracks_iff, on]

theorem Linking.not_tracks_untracked (type : FieldType) : ¬ l.untracked.tracks type := by
  simp [Linking.tracks, Linking.untracked]

/-! ## Tables of records -/

include on in
theorem field_observes {pool : StringPool} {c : Column}
    (fits : ∀ raw ∈ c.cells, raw.Fits pool c.type) :
    Observes (fun t => ∃ raw ∈ c.cells, c.Stops raw t)
      (fun f f' => f.Beside f' ∧ ∀ raw ∈ c.cells, ∀ t, ¬ c.Stops raw t)
      (l.field d c) (l.untracked.field d c) := by
  unfold Linking.field
  refine .bind_same fun _ _ => .bind_same fun values hv => .bind_same fun default _ => ?_
  rw [if_neg (Linking.not_tracks_untracked c.type)]
  have length := (mapM_eq_ok.1 hv).length_eq
  by_cases float : c.type = ⟨.float, false⟩
  · rw [if_pos ((Linking.tracks_of_on on).2 float)]
    refine .bind (R := fun p p' => (∃ ds, p = some ds ∧ ds.length = c.cells.length) ∧ p' = none ∧
      ∀ raw ∈ c.cells, ∀ t, ¬ c.Stops raw t) ?_ ?_
    · exact (columnDigits_observes float fits).map (g := fun _ => none)
        fun ds _ h => ⟨⟨ds, rfl, h.1⟩, rfl, h.2⟩
    · rintro _ _ ⟨⟨ds, rfl, even⟩, rfl, counted⟩
      refine .answered ⟨⟨rfl, by simp [float], fun ds' h => ?_⟩, counted⟩
      cases h
      rw [even, length]
  · rw [if_neg (mt (Linking.tracks_of_on on).1 float)]
    exact .answered ⟨⟨rfl, by simp [float], by simp⟩, fun _ _ t ht => float ht.1⟩

theorem rowNameField_beside (names : List String) :
    (rowNameField names).Beside (rowNameField names) :=
  ⟨rfl, by simp [rowNameField], by simp [rowNameField]⟩

include on in
theorem sheet_observes (wf : d.WellFormed) :
    Observes (Uncounted d.columns) (fun s s' => s.Beside s' ∧ ∀ t, ¬ Uncounted d.columns t)
      (l.sheet d) (l.untracked.sheet d) := by
  unfold Linking.sheet
  have columns : ∀ c ∈ d.columns, Observes (Uncounted d.columns)
      (fun p q => (p.1 = q.1 ∧ p.1 ≠ nameField ∧ p.2.Beside q.2) ∧
        ∀ raw ∈ c.cells, ∀ t, ¬ c.Stops raw t)
      ((c.name, ·) <$> l.field d c) ((c.name, ·) <$> l.untracked.field d c) := by
    intro c hc
    refine ((field_observes on (wf.columns c hc).cells_fit).imp (fun t ht => ⟨c, hc, ht⟩)
      fun _ _ => id).map fun f f' h => ⟨⟨rfl, (wf.fields_named c hc).2, h.1⟩, h.2⟩
  refine (Observes.mapM columns).bind fun fields fields' ⟨beside, counted⟩ => ?_
  refine .answered ⟨.insertAll ?_ beside, fun t ⟨c, hc, raw, hraw, stops⟩ =>
    counted c hc raw hraw t stops⟩
  split
  · refine ⟨OrderedMap.Beside.empty.insert _ (rowNameField_beside _), fun f hf => ?_⟩
    rw [OrderedMap.get?_insert, if_pos rfl] at hf
    cases hf
    rfl
  · exact ⟨.empty, fun f hf => by cases hf⟩

/-! ## Mods -/

variable {P : String → Prop} {s s' : Sheet}

include on in
theorem addField_observes {t : Target} {c : Column} (h : s.Beside s') (hn : c.name ≠ nameField) :
    Observes P (fun s₁ s₁' => s₁.Beside s₁' ∧
        (∃ f, s₁.get? c.name = some f ∧ f.type = c.type) ∧
        ∀ name f, s.get? name = some f → s₁.get? name = some f)
      (l.addField d t s c) (l.untracked.addField d t s' c) := by
  unfold Linking.addField
  refine .bind_same fun _ _ => ?_
  obtain ⟨none, none'⟩ | ⟨f, f', hf, hf', ff'⟩ := h.fields.get? c.name
  · rw [none, none']
    refine .bind_same fun default _ => .answered ⟨h.insert hn ⟨?_, ?_, ?_⟩, ?_, ?_⟩
    · rw [if_neg (Linking.not_tracks_untracked c.type)]
      rfl
    · by_cases float : c.type = ⟨.float, false⟩ <;> simp [Linking.tracks_of_on on, float]
    · intro ds hds
      dsimp only at hds ⊢
      split at hds <;> cases hds
      rw [List.length_replicate, List.length_replicate]
    · exact ⟨_, by rw [OrderedMap.get?_insert, if_pos rfl], rfl⟩
    · intro name f hf
      have : c.name ≠ name := fun e => by rw [← e, none] at hf; cases hf
      rw [OrderedMap.get?_insert, if_neg this, hf]
  · rw [hf, hf', ff'.plain]
    dsimp only [Field.plain]
    split
    · exact .failed _
    · next same => exact .answered ⟨h, ⟨f, hf, by simpa using same⟩, fun _ _ => id⟩

include on in
theorem addFields_observes {t : Target} {columns : List Column} (h : s.Beside s')
    (named : ∀ c ∈ columns, c.name ≠ nameField) :
    Observes P (fun s₁ s₁' => s₁.Beside s₁' ∧ s₁.Covers columns ∧
        ∀ name f, s.get? name = some f → s₁.get? name = some f)
      (columns.foldlM (l.addField d t) s) (columns.foldlM (l.untracked.addField d t) s') := by
  induction columns generalizing s s' with
  | nil => exact .answered ⟨h, fun c hc => (List.not_mem_nil hc).elim, fun _ _ => id⟩
  | cons c columns ih =>
    rw [List.forall_mem_cons] at named
    rw [List.foldlM_cons, List.foldlM_cons]
    refine (addField_observes on h named.1).bind fun s₁ s₁' ⟨h₁, ⟨f, hf, type⟩, kept₁⟩ => ?_
    refine (ih h₁ named.2).imp (fun _ => id) fun s₂ s₂' ⟨h₂, covers, kept⟩ => ?_
    exact ⟨h₂, List.forall_mem_cons.2 ⟨⟨f, kept _ f hf, type⟩, covers⟩,
      fun name f hf => kept name f (kept₁ name f hf)⟩

theorem Field.Beside.grow {f f' : Field} (h : f.Beside f') (n : Nat) :
    (f.grow n).Beside (f'.grow n) := by
  obtain ⟨rfl, tracks, even⟩ := h
  refine ⟨rfl, ?_, fun ds hds => ?_⟩
  · rw [← show f.type = (f.grow n).type from rfl, ← tracks, Field.grow, Option.isSome_map]
  · obtain ⟨old, ho, rfl⟩ := Option.map_eq_some_iff.1 hds
    simp [Field.grow, even old ho]

theorem growSheet_beside {t : Target} (h : s.Beside s') :
    (growSheet t s).Beside (growSheet t s') := by
  unfold growSheet
  dsimp only
  split
  · exact h
  · refine ⟨h.fields.mapValues fun name f f' hf ff' => ?_, fun f hf => ?_⟩
    · split
      · next same =>
        have none : f.precisions = none := h.names f (same ▸ hf)
        obtain ⟨rfl, tracks, -⟩ := ff'
        exact ⟨rfl, tracks, by simp [none]⟩
      · exact ff'.grow _
    · rw [OrderedMap.get?_mapValues] at hf
      obtain ⟨g, hg, rfl⟩ := Option.map_eq_some_iff.1 hf
      rw [if_pos rfl]
      exact h.names g hg

/-- What is written is written beside it too, without digits. -/
theorem write_observes {f f' : Field} (h : f.Beside f') (row : Nat) (v : Value) (k k' : Int) :
    Observes P (fun g g' => g.Beside g' ∧ g.type = f.type) (f.write row v k)
      (f'.write row v k') := by
  obtain ⟨rfl, tracks, even⟩ := h
  unfold Field.write
  by_cases hr : row < f.values.length
  · have inside : f.precisions.all fun ds => decide (row < ds.length) := by
      cases hp : f.precisions with
      | none => rfl
      | some ds => simpa [even ds hp] using hr
    rw [if_pos ⟨hr, inside⟩, if_pos ⟨hr, rfl⟩]
    refine .answered ⟨⟨rfl, ?_, fun ds hds => ?_⟩, rfl⟩
    · simp [tracks]
    · obtain ⟨old, ho, rfl⟩ := Option.map_eq_some_iff.1 hds
      simp [even old ho]
  · rw [if_neg fun h => hr h.1, if_neg fun h => hr h.1]
    exact .failed _

/-- Sheets side by side, with a field of its type for each column, and the same titles. -/
structure Sheet.Ready (columns : List Column) (p q : Sheet × OrderedMap String String) : Prop where
  beside : p.1.Beside q.1
  covers : p.1.Covers columns
  wiki : p.2 = q.2

theorem writeCell_observes {c : Column} {raw : Raw} {pool : StringPool} {row : Nat}
    (h : s.Beside s') (covers : s.Covers d.columns) (hc : c ∈ d.columns) (hn : c.name ≠ nameField)
    (fits : raw.Fits pool c.type) :
    Observes (c.Stops raw)
      (fun s₁ s₁' => (s₁.Beside s₁' ∧ s₁.Covers d.columns) ∧ ∀ t, ¬ c.Stops raw t)
      (l.writeCell d row s c raw) (l.untracked.writeCell d row s' c raw) := by
  unfold Linking.writeCell
  split
  · next empty => exact .answered ⟨⟨h, covers⟩, fun t ht => by rw [ht.2.1] at empty; cases empty⟩
  · refine .bind_same fun v _ => ?_
    obtain ⟨f, hf, type⟩ := covers c hc
    obtain ⟨none, -⟩ | ⟨f₁, f', hf₁, hf', ff'⟩ := h.fields.get? c.name
    · rw [hf] at none
      cases none
    rw [hf] at hf₁
    cases hf₁
    have finish : ∀ k, Observes (c.Stops raw)
        (fun s₁ s₁' : Sheet => s₁.Beside s₁' ∧ s₁.Covers d.columns)
        (do let g ← f.write row v k; pure (OrderedMap.insert s c.name g))
        (do let g ← f'.write row v unknownPrecision; pure (OrderedMap.insert s' c.name g)) := by
      intro k
      refine (write_observes ff' row v k _).bind ?_
      rintro g g' ⟨gg', same⟩
      refine .answered ⟨h.insert hn gg', fun c' hc' => ?_⟩
      rw [OrderedMap.get?_insert]
      split
      · next name =>
        obtain ⟨f₁, hf₁, type₁⟩ := covers c' hc'
        rw [← name, hf] at hf₁
        cases hf₁
        exact ⟨g, rfl, same.trans type₁⟩
      · exact covers c' hc'
    have untracked : ¬ f'.precisions.isSome := by simp [ff'.plain, Field.plain]
    rw [hf, hf']
    refine .bind_ok rfl rfl ?_
    dsimp only
    rw [if_neg untracked]
    by_cases float : c.type = ⟨.float, false⟩
    · rw [if_pos (ff'.tracks.2 (type.trans float))]
      refine (digits_observes float fits).alone fun k counted => ?_
      exact (finish k).imp (fun _ => id) fun _ _ h => ⟨h, counted⟩
    · rw [if_neg fun tracked => float (type.symm.trans (ff'.tracks.1 tracked))]
      exact (finish _).imp (fun _ => id) fun _ _ h => ⟨h, fun t ht => float ht.1⟩

theorem writeRow_observes {title : Option Column} {name : String} {row : Nat}
    {cells : List (Column × Raw)} {p q : Sheet × OrderedMap String String} (wf : d.WellFormed)
    (hc : ∀ x ∈ cells, x.1 ∈ d.columns ∧ x.2 ∈ x.1.cells) (h : Sheet.Ready d.columns p q) :
    Observes (Uncounted d.columns)
      (fun p q => Sheet.Ready d.columns p q ∧ ∀ x ∈ cells, ∀ t, ¬ x.1.Stops x.2 t)
      (l.writeRow d title name row p cells) (l.untracked.writeRow d title name row q cells) := by
  induction cells generalizing p q with
  | nil => exact .answered ⟨h, by simp⟩
  | cons x cells ih =>
    obtain ⟨c, raw⟩ := x
    obtain ⟨s, wiki⟩ := p
    obtain ⟨s', _⟩ := q
    obtain ⟨beside, covers, rfl⟩ := h
    rw [List.forall_mem_cons] at hc
    obtain ⟨⟨hcd, hraw⟩, hc⟩ := hc
    unfold Linking.writeRow
    refine ((writeCell_observes beside covers hcd (wf.fields_named c hcd).2
      ((wf.columns c hcd).cells_fit raw hraw)).imp (fun t ht => ⟨c, hcd, raw, hraw, ht⟩)
      fun _ _ => id).bind ?_
    rintro s₁ s₁' ⟨⟨beside₁, covers₁⟩, counted⟩
    have rest : ∀ wiki, Observes (Uncounted d.columns)
        (fun p q => Sheet.Ready d.columns p q ∧ ∀ x ∈ (c, raw) :: cells, ∀ t, ¬ x.1.Stops x.2 t)
        (l.writeRow d title name row (s₁, wiki) cells)
        (l.untracked.writeRow d title name row (s₁', wiki) cells) := fun wiki =>
      (ih (p := (s₁, wiki)) (q := (s₁', wiki)) hc ⟨beside₁, covers₁, rfl⟩).imp (fun _ => id)
        fun _ _ h => ⟨h.1, List.forall_mem_cons.2 ⟨counted, h.2⟩⟩
    dsimp only
    split
    · exact .bind_same fun wiki _ => rest wiki
    · exact rest wiki

theorem writeRows_observes {t : Target} {title : Option Column} {rows : List (String × Nat)}
    {p q : Sheet × OrderedMap String String} (wf : d.WellFormed) (h : Sheet.Ready d.columns p q) :
    Observes (Uncounted d.columns)
      (fun p q => Sheet.Ready d.columns p q ∧ ∀ x ∈ rows, ∀ c ∈ d.columns, ∀ raw,
        c.cells[x.2]? = some raw → ∀ t, ¬ c.Stops raw t)
      (l.writeRows d t title p rows) (l.untracked.writeRows d t title q rows) := by
  induction rows generalizing p q with
  | nil => exact .answered ⟨h, by simp⟩
  | cons x rows ih =>
    obtain ⟨name, i⟩ := x
    unfold Linking.writeRows
    refine .bind_same fun row _ => .bind_same fun cells hcells => ?_
    have given := mapM_eq_ok.1 hcells
    have mem : ∀ x ∈ cells, x.1 ∈ d.columns ∧ x.2 ∈ x.1.cells := by
      intro x hx
      obtain ⟨c, hc, hcx⟩ := exists_of_forall₂ given.flip hx
      obtain ⟨raw, hraw, rfl⟩ := map_eq_ok.1 hcx
      exact ⟨hc, List.mem_of_getElem? (orBroken_eq_ok.1 hraw)⟩
    refine (writeRow_observes wf mem h).bind ?_
    rintro p₁ q₁ ⟨h₁, counted⟩
    refine (ih h₁).imp (fun _ => id) fun _ _ h => ⟨h.1, List.forall_mem_cons.2 ⟨?_, h.2⟩⟩
    intro c hc raw hraw
    obtain ⟨x, hx, hcx⟩ := exists_of_forall₂ given hc
    rw [hraw] at hcx
    cases hcx
    exact counted _ hx

include on in
/-- **A mod.** It changes sheets side by side in the same way. -/
theorem modify_observes {t : Target} {wiki : OrderedMap String String} (wf : d.WellFormed)
    (hm : d.format = .entitiesMod) (h : s.Beside s') :
    Observes (Uncounted d.columns)
      (fun p q => Sheet.Ready d.columns p q ∧ ∀ t, ¬ Uncounted d.columns t)
      (l.modify d t s wiki) (l.untracked.modify d t s' wiki) := by
  unfold Linking.modify
  refine (addFields_observes on h fun c hc => (wf.fields_named c hc).2).bind
    fun s₁ s₁' ⟨beside, covers, _⟩ => .bind_same fun title _ => ?_
  have grown : Sheet.Ready d.columns (growSheet t s₁, wiki) (growSheet t s₁', wiki) :=
    ⟨growSheet_beside beside, growSheet_covers covers, rfl⟩
  refine (writeRows_observes wf grown).imp (fun _ => id) fun p q ⟨ready, counted⟩ => ⟨ready, ?_⟩
  rintro t ⟨c, hc, raw, hraw, stops⟩
  obtain ⟨i, hi, rfl⟩ := List.getElem_of_mem hraw
  have row : i < d.rowNames.length := by
    rw [(wf.columns c hc).length_cells] at hi
    have named := wf.rows_needed (by rw [hm]; rfl) (by omega)
    rwa [wf.rows_counted.resolve_left named]
  refine counted (d.rowNames[i], i) ?_ c hc _ (List.getElem?_eq_getElem hi) t stops
  rw [List.mk_mem_zipIdx_iff_getElem?]
  exact List.getElem?_eq_getElem row

end Tables

end TypedTables
