import TypedTables.Proofs.Agreement
/-!
# More names

A name that is added to a dataset takes nothing away: whoever could be looked up before is found
where it was. So a linking that knows more names gives every answer that one with fewer gives, and
where a run succeeds it makes the same of a table, unless the enumeration that it works on has
itself grown.

Results:
* `Within.cell`: a cell that has a value keeps it.
* `Within.sheet`, `Within.modify`: so do the cells of a table, and of a mod.
* `Within.addTable`, `Within.addTables`: what a run makes of drafts, it makes of them still.
-/
namespace TypedTables

namespace Linking

/-- The second linking knows every name of the first. -/
structure Within (l l' : Linking) : Prop where
  units : l.units = l'.units
  options : l.options = l'.options
  entities : ∀ name x, l.entities.get? name = some x → l'.entities.get? name = some x

namespace Within

variable {l l' : Linking} (h : l.Within l') (d : Draft)
include h

/-! ## Cells -/

/-- Only the text of an entity is looked up. -/
theorem integer (raw : Raw) :
    Refines ((l.resolver d).integer raw) ((l'.resolver d).integer raw) := by
  refine .bind (.refl _) fun t => ?_
  split
  · exact .refl _
  · cases Text.readInteger? t.toList with
    | some i => exact .refl _
    | none =>
      cases hx : l.entities.get? t with
      | none =>
        simp only [resolver, hx]
        intro i hi
        cases hi
      | some x =>
        simp only [resolver, hx, h.entities t x hx]
        exact .refl _

theorem scalar (raw : Raw) (base : BaseType) (unit : String) :
    Refines ((l.resolver d).scalar raw base unit) ((l'.resolver d).scalar raw base unit) := by
  have number : (l.resolver d).number = (l'.resolver d).number := by
    funext raw unit
    simp only [Resolver.number, resolver, h.units]
  cases base with
  | int => exact .map _ (h.integer d raw)
  | float => exact .of_eq (congrFun (congrFun number raw) unit)
  | bool | string | stringName => exact .refl _

theorem cell (raw : Raw) (type : FieldType) (unit : String) :
    Refines (l.cell d raw type unit) (l'.cell d raw type unit) := by
  refine .mapError _ ?_
  unfold Resolver.resolve
  split
  · exact .bind (.refl _) fun items => .bind (.mapM fun item _ => h.scalar d item _ _) fun _ =>
      .refl _
  · exact h.scalar d raw _ _

omit d in
theorem value (g : Given) : Refines (l.value g) (l'.value g) := h.cell g.draft _ _ _

theorem checkUnit : l.checkUnit d = l'.checkUnit d := by
  funext unit field
  simp only [Linking.checkUnit, h.units]

theorem wikiColumn? : l.wikiColumn? d = l'.wikiColumn? d := by
  simp only [Linking.wikiColumn?, h.options]

omit d in
theorem tracks : l.tracks = l'.tracks := by
  funext type
  simp only [Linking.tracks, h.options]

/-! ## Tables of records -/

theorem field (c : Column) : Refines (l.field d c) (l'.field d c) := by
  unfold Linking.field
  rw [h.checkUnit d, h.tracks]
  refine .bind (.refl _) fun _ => ?_
  refine .bind (.mapM fun raw _ => h.cell d raw _ _) fun values => ?_
  exact .bind (h.cell d _ _ _) fun default => .refl _

theorem sheet : Refines (l.sheet d) (l'.sheet d) :=
  .bind (.mapM fun c _ => .map _ (h.field d c)) fun _ => .refl _

/-! ## Mods -/

theorem addField (t : Target) (s : Sheet) (c : Column) :
    Refines (l.addField d t s c) (l'.addField d t s c) := by
  unfold Linking.addField
  rw [h.checkUnit d, h.tracks]
  refine .bind (.refl _) fun _ => ?_
  cases s.get? c.name with
  | some f => exact .refl _
  | none => exact .bind (h.cell d _ _ _) fun default => .refl _

theorem writeCell (row : Nat) (s : Sheet) (c : Column) (raw : Raw) :
    Refines (l.writeCell d row s c raw) (l'.writeCell d row s c raw) := by
  unfold Linking.writeCell
  split
  · exact .refl _
  · exact .bind (h.cell d raw _ _) fun v => .refl _

theorem writeRow (title : Option Column) (name : String) (row : Nat)
    (state : Sheet × OrderedMap String String) (cells : List (Column × Raw)) :
    Refines (l.writeRow d title name row state cells)
      (l'.writeRow d title name row state cells) := by
  induction cells generalizing state with
  | nil => exact .refl _
  | cons p cells ih =>
    refine .bind (h.writeCell d row state.1 p.1 p.2) fun s => ?_
    dsimp only
    split
    · exact .bind (.of_eq (by rw [addTitle_eq l l'])) fun wiki => ih _
    · exact ih _

theorem writeRows (t : Target) (title : Option Column) (state : Sheet × OrderedMap String String)
    (rows : List (String × Nat)) :
    Refines (l.writeRows d t title state rows) (l'.writeRows d t title state rows) := by
  induction rows generalizing state with
  | nil => exact .refl _
  | cons p rows ih =>
    exact .bind (.refl _) fun row => .bind (.refl _) fun cells =>
      .bind (h.writeRow d title p.1 row state cells) fun state => ih state

theorem modify (t : Target) (s : Sheet) (wiki : OrderedMap String String) :
    Refines (l.modify d t s wiki) (l'.modify d t s wiki) := by
  unfold Linking.modify
  rw [h.wikiColumn? d]
  exact .bind (.foldlM (h.addField d t) _ _) fun s => .bind (.refl _) fun title =>
    h.writeRows d t title _ _

/-! ## Drafts -/

section Enumerations

variable {enumerations enumerations' : OrderedMap String Enumeration}

theorem addMod {t : String} (same : enumerations'.get? t = enumerations.get? t) (a : Assembly) :
    Refines (l.addMod enumerations a d t) (l'.addMod enumerations' a d t) := by
  unfold Linking.addMod
  rw [same]
  refine .bind (.refl _) fun e => .bind (.refl _) fun info => ?_
  dsimp only
  split
  · exact .refl _
  · cases a.tables.get? t with
    | none => exact .refl _
    | some contents =>
      cases contents with
      | grid g => exact .refl _
      | sheet s =>
        exact .bind (.refl _) fun n => .bind (h.modify d _ s a.wiki) fun state => .refl _

variable {d}

/-- **Drafts.** A draft is resolved as before, if the enumeration that it extends is the same and,
for a grid, those of its axes. -/
theorem addTable (target : ∀ t, d.target? = some t → enumerations'.get? t = enumerations.get? t)
    (grid : ∀ g, d.grid? = some g → Refines (l.grid enumerations d g) (l'.grid enumerations' d g))
    (a : Assembly) : Refines (l.addTable enumerations a d).result
      (l'.addTable enumerations' a d).result := by
  rw [result_addTable, result_addTable]
  unfold Draft.target? at target
  unfold Draft.grid? at grid
  cases hc : d.content with
  | grid g =>
    rw [hc] at grid
    exact .map _ (.bind (grid g rfl) fun v => .refl _)
  | records kind columns =>
    rw [hc] at target
    cases kind with
    | entities | anonymous =>
      refine .map _ (.bind (h.sheet d) fun s => .of_eq ?_)
      rw [h.wikiColumn? d, addTitles_eq l l']
    | mod t => exact h.addMod d (target t rfl) a
    | wikiLookup =>
      refine .of_eq ?_
      simp only [Linking.addWikiLookup, h.wikiColumn? d, addTitles_eq l l', h.options]
    | enumeration => exact .refl _

theorem addTables {tables : List Draft}
    (target : ∀ d ∈ tables, ∀ t, d.target? = some t → enumerations'.get? t = enumerations.get? t)
    (grid : ∀ d ∈ tables, ∀ g, d.grid? = some g →
      Refines (l.grid enumerations d g) (l'.grid enumerations' d g))
    (a : Assembly) : Refines (l.addTables enumerations a tables).result
      (l'.addTables enumerations' a tables).result := by
  induction tables generalizing a with
  | nil => exact .refl _
  | cons d tables ih =>
    rw [List.forall_mem_cons] at target grid
    intro a' ha
    obtain ⟨a₁, h₁, ha⟩ := addTables_cons_eq_ok.1 ha
    exact addTables_cons_eq_ok.2
      ⟨a₁, h.addTable target.1 grid.1 a a₁ h₁, ih target.2 grid.2 a₁ a' ha⟩

end Enumerations

/-! ## Axes -/

theorem owner (axis : Axis) (names : List String) :
    Refines (axisOwner l.entities d axis names) (axisOwner l'.entities d axis names) := by
  refine .bind (.mapM fun name _ => ?_) fun owners => .refl _
  cases hx : l.entities.get? name with
  | none =>
    intro owner found
    cases found
  | some x =>
    rw [h.entities name x hx]
    exact .refl _

end Within

end Linking

end TypedTables
