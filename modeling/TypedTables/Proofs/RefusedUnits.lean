import TypedTables.Proofs.LinkOutcome
import TypedTables.Proofs.UnitVerdicts
/-!
# Refused units

The unit of a field is judged before a cell of it is resolved. A run over a table with a unit that is
not valid fails, and with the error of that unit unless something else is wrong that comes before it:
up to the field the run is the same as with any other unit there.

Results:
* `FailsOr.bind`, `FailsOr.after`, `FailsOr.mapM`: a computation that fails, and what its error can be.
* `addSheet_refused`, `addMod_refused`, `addGrid_refused`: the tables that have units.
* `addTables_refused`: from these, the tables of a run.
* `link_unitVerdicts`: what the verdicts on units say, and what a run does on them.
-/
namespace TypedTables

/-! ## Refused units -/

/-- The units that are judged while a table is resolved, each with its field. -/
def Draft.checkedUnits (d : Draft) : List (String × String) :=
  match d.content with
  | .records .entities columns | .records .anonymous columns | .records (.mod _) columns =>
    columns.map fun c => (c.name, c.unit)
  | .records _ _ => []
  | .grid g => [("DATA_UNIT", g.unit)]

/-- The field with another unit, if it has the name. -/
def Column.withUnit (field unit : String) (c : Column) : Column :=
  if c.name = field then { c with unit } else c

@[simp] theorem Column.name_withUnit (field unit : String) (c : Column) :
    (c.withUnit field unit).name = c.name := by
  unfold withUnit
  split <;> rfl

@[simp] theorem Column.type_withUnit (field unit : String) (c : Column) :
    (c.withUnit field unit).type = c.type := by
  unfold withUnit
  split <;> rfl

@[simp] theorem Column.cells_withUnit (field unit : String) (c : Column) :
    (c.withUnit field unit).cells = c.cells := by
  unfold withUnit
  split <;> rfl

/-- The table with another unit for a field. -/
def Draft.withUnit (d : Draft) (field unit : String) : Draft :=
  { d with content :=
      match d.content with
      | .records kind columns => .records kind (columns.map (·.withUnit field unit))
      | .grid g => .grid { g with unit } }

@[simp] theorem Draft.name_withUnit (d : Draft) (field unit : String) :
    (d.withUnit field unit).name = d.name :=
  rfl

@[simp] theorem Draft.format_withUnit (d : Draft) (field unit : String) :
    (d.withUnit field unit).format = d.format := by
  unfold format withUnit
  cases d.content <;> rfl

@[simp] theorem Draft.target?_withUnit (d : Draft) (field unit : String) :
    (d.withUnit field unit).target? = d.target? := by
  unfold target? withUnit
  cases hc : d.content with
  | grid g => rfl
  | records kind columns => cases kind <;> rfl

theorem Draft.columns_withUnit (d : Draft) (field unit : String) :
    (d.withUnit field unit).columns = d.columns.map (·.withUnit field unit) := by
  unfold columns withUnit
  cases d.content <;> rfl

@[simp] theorem Draft.isMod_withUnit (d : Draft) (field unit : String) :
    (d.withUnit field unit).isMod = d.isMod := by
  rw [isMod, isMod, format_withUnit]

/-- The error with which the unit of a field is refused: it names both, or it is the one that has
kept the unit from a verdict. -/
inductive Refuses (units : Units.Converter) (d : Draft) (field unit : String) : LinkError → Prop
  | invalid : units.isValid unit = .ok false → Refuses units d field unit
      (.unknownUnit d.source field unit)
  | fault {f : Units.UnitError} : units.isValid unit = .error f → Refuses units d field unit
      (.unitFault f)

theorem checkUnit_refused {l : Linking} {unit : String} (d : Draft) (field : String)
    (refused : l.units.isValid unit ≠ .ok true) :
    ∃ e, l.checkUnit d unit field = .error e ∧ Refuses l.units d field unit e := by
  have given : unit ≠ "" := by
    rintro rfl
    refine refused ?_
    have one : l.units.convert 1.0 "" = .ok (.real 1.0) := if_pos rfl
    rw [Units.Converter.isValid_of_real one]
    decide
  rw [Linking.checkUnit, if_neg given]
  cases verdict : l.units.isValid unit with
  | error f => exact ⟨_, rfl, .fault verdict⟩
  | ok valid =>
    cases valid with
    | true => exact absurd verdict refused
    | false => exact ⟨_, rfl, .invalid verdict⟩

section FailsOr

variable {ε α β γ δ : Type} {P : ε → Prop}

/-- The first computation fails, with an error as `P` says or with that of the second. -/
def FailsOr (P : ε → Prop) (x : Except ε α) (y : Except ε β) : Prop :=
  ∃ e, x = .error e ∧ (P e ∨ y = .error e)

namespace FailsOr

theorem bind {x : Except ε α} {y : Except ε β} (h : FailsOr P x y) (f : α → Except ε γ)
    (g : β → Except ε δ) : FailsOr P (x >>= f) (y >>= g) := by
  obtain ⟨e, hx, h⟩ := h
  refine ⟨e, by rw [hx]; rfl, h.imp_right fun hy => ?_⟩
  rw [hy]
  rfl

theorem map {x : Except ε α} {y : Except ε β} (h : FailsOr P x y) (f : α → γ) (g : β → δ) :
    FailsOr P (f <$> x) (g <$> y) := by
  obtain ⟨e, hx, h⟩ := h
  refine ⟨e, by rw [hx]; rfl, h.imp_right fun hy => ?_⟩
  rw [hy]
  rfl

/-- After the same first step it is up to the rest. -/
theorem after {x y : Except ε α} (same : y = x) {f : α → Except ε γ} {g : α → Except ε δ}
    (h : ∀ a, x = .ok a → FailsOr P (f a) (g a)) : FailsOr P (x >>= f) (y >>= g) := by
  subst same
  cases hx : y with
  | error e => exact ⟨e, rfl, .inr rfl⟩
  | ok a => exact h a hx

/-- Both fail with the same error. -/
theorem both (e : ε) : FailsOr P (.error e : Except ε α) (.error e : Except ε β) :=
  ⟨e, rfl, .inr rfl⟩

theorem mapM {f g : α → Except ε β} {pre post post' : List α} {a a' : α}
    (same : ∀ b ∈ pre, g b = f b) (h : FailsOr P (f a) (g a')) :
    FailsOr P ((pre ++ a :: post).mapM f) ((pre ++ a' :: post').mapM g) := by
  induction pre with
  | nil =>
    rw [List.nil_append, List.nil_append, List.mapM_cons, List.mapM_cons]
    exact h.bind _ _
  | cons b pre ih =>
    rw [List.forall_mem_cons] at same
    rw [List.cons_append, List.cons_append, List.mapM_cons, List.mapM_cons]
    exact .after same.1 fun _ _ => (ih same.2).bind _ _

theorem foldlM {f g : β → α → Except ε β} {pre post post' : List α} {a a' : α}
    (same : ∀ s, ∀ b ∈ pre, g s b = f s b) (h : ∀ s, FailsOr P (f s a) (g s a')) (s : β) :
    FailsOr P ((pre ++ a :: post).foldlM f s) ((pre ++ a' :: post').foldlM g s) := by
  induction pre generalizing s with
  | nil => exact (h s).bind _ _
  | cons b pre ih =>
    rw [List.cons_append, List.cons_append, List.foldlM_cons, List.foldlM_cons]
    exact .after (same s b List.mem_cons_self) fun s' _ =>
      ih (fun s b hb => same s b (List.mem_cons_of_mem _ hb)) s'

end FailsOr

end FailsOr

/-! ## One table -/

section Tables

variable {l : Linking} {enumerations : OrderedMap String Enumeration} {a : Assembly} {d : Draft}
  {field unit : String} (refused : l.units.isValid unit ≠ .ok true) (unit' : String)

/-- The fields up to the one whose unit changes are the same. -/
theorem Draft.split_withUnit (wf : d.WellFormed) {c : Column} (hc : c ∈ d.columns)
    (unit : String) : ∃ pre post, d.columns = pre ++ c :: post ∧
      (d.withUnit c.name unit).columns =
        pre ++ { c with unit } :: post.map (·.withUnit c.name unit) := by
  obtain ⟨pre, post, split⟩ := List.append_of_mem hc
  have nd := wf.fields_nodup
  rw [split, List.map_append, List.map_cons, List.nodup_append] at nd
  have others : pre.map (·.withUnit c.name unit) = pre := by
    refine (List.map_congr_left fun b hb => ?_).trans (List.map_id pre)
    exact if_neg (nd.2.2 _ (List.mem_map_of_mem hb) _ List.mem_cons_self)
  refine ⟨pre, post, split, ?_⟩
  rw [columns_withUnit, split, List.map_append, List.map_cons, others, Column.withUnit, if_pos rfl]

include refused in
theorem field_refused {α : Type} (y : Except LinkError α) {c : Column} (hu : c.unit = unit) :
    FailsOr (Refuses l.units d c.name unit) (l.field d c) y := by
  obtain ⟨e, he, refuses⟩ := checkUnit_refused d c.name refused
  subst hu
  exact ⟨e, by rw [Linking.field, he]; rfl, .inl refuses⟩

include refused in
theorem addField_refused {α : Type} (y : Except LinkError α) {c : Column} (hu : c.unit = unit)
    (t : Target) (s : Sheet) :
    FailsOr (Refuses l.units d c.name unit) (l.addField d t s c) y := by
  obtain ⟨e, he, refuses⟩ := checkUnit_refused d c.name refused
  subst hu
  exact ⟨e, by rw [Linking.addField, he]; rfl, .inl refuses⟩

include refused in
theorem addSheet_refused (wf : d.WellFormed) {c : Column} (hc : c ∈ d.columns)
    (hu : c.unit = unit) : FailsOr (Refuses l.units d c.name unit) (l.addSheet a d)
      (l.addSheet a (d.withUnit c.name unit')) := by
  obtain ⟨pre, post, before, after⟩ := Draft.split_withUnit wf hc unit'
  have sheet : FailsOr (Refuses l.units d c.name unit) (l.sheet d)
      (l.sheet (d.withUnit c.name unit')) := by
    unfold Linking.sheet
    rw [before, after]
    refine .bind (.mapM (fun _ _ => rfl) ?_) _ _
    exact .map (field_refused refused _ hu) _ _
  exact sheet.bind _ _

include refused in
theorem addMod_refused (wf : d.WellFormed) {c : Column} (hc : c ∈ d.columns)
    (hu : c.unit = unit) (target : String) :
    FailsOr (Refuses l.units d c.name unit) (l.addMod enumerations a d target)
      (l.addMod enumerations a (d.withUnit c.name unit') target) := by
  obtain ⟨pre, post, before, after⟩ := Draft.split_withUnit wf hc unit'
  have modify : ∀ t s wiki, FailsOr (Refuses l.units d c.name unit) (l.modify d t s wiki)
      (l.modify (d.withUnit c.name unit') t s wiki) := by
    intro t s wiki
    unfold Linking.modify
    rw [before, after]
    exact .bind (.foldlM (fun _ _ _ => rfl) (fun s => addField_refused refused _ hu t s) s) _ _
  unfold Linking.addMod
  refine .after rfl fun e _ => .after rfl fun info _ => ?_
  dsimp only
  split
  · -- no field can be added to an enumeration
    rw [before, after, if_pos (by simp), if_pos (by simp)]
    exact .both _
  · split
    · exact .after rfl fun rowCount _ => (modify _ _ _).bind _ _
    · exact .both _

include refused in
theorem addGrid_refused {α : Type} (y : Except LinkError α) {g : Grid} (hu : g.unit = unit) :
    FailsOr (Refuses l.units d "DATA_UNIT" unit) (Prod.fst <$> l.addGrid enumerations a d g) y := by
  obtain ⟨e, he, refuses⟩ := checkUnit_refused d "DATA_UNIT" refused
  subst hu
  have grid : l.grid enumerations d g = .error e := by
    rw [Linking.grid, he]
    rfl
  exact ⟨e, by rw [Linking.addGrid, grid]; rfl, .inl refuses⟩

include refused in
/-- **A table with a refused unit.** -/
theorem addTable_refused (wf : d.WellFormed) (checked : (field, unit) ∈ d.checkedUnits) :
    FailsOr (Refuses l.units d field unit) (l.addTable enumerations a d).result
      (l.addTable enumerations a (d.withUnit field unit')).result := by
  rw [Linking.result_addTable, Linking.result_addTable]
  unfold Draft.checkedUnits at checked
  cases hc : d.content with
  | grid g =>
    rw [hc, List.mem_singleton, Prod.mk.injEq] at checked
    obtain ⟨rfl, hu⟩ := checked
    exact addGrid_refused refused _ hu.symm
  | records kind columns =>
    have content : (d.withUnit field unit').content =
        .records kind (columns.map (·.withUnit field unit')) := by
      rw [Draft.withUnit, hc]
    have given : d.columns = columns := by rw [Draft.columns, hc]
    rw [content]
    cases kind with
    | entities | anonymous =>
      rw [hc] at checked
      obtain ⟨c, mem, pair⟩ := List.mem_map.1 checked
      cases pair
      exact .map (addSheet_refused refused unit' wf (given ▸ mem) rfl) _ _
    | mod target =>
      rw [hc] at checked
      obtain ⟨c, mem, pair⟩ := List.mem_map.1 checked
      cases pair
      exact addMod_refused refused unit' wf (given ▸ mem) rfl target
    | enumeration | wikiLookup =>
      rw [hc] at checked
      cases checked

theorem addTitles_withUnit (l : Linking) (d : Draft) (field unit : String)
    (wiki : OrderedMap String String) (named : List (String × Raw)) :
    l.addTitles (d.withUnit field unit) wiki named = l.addTitles d wiki named := by
  induction named generalizing wiki with
  | nil => rfl
  | cons p named ih => exact bind_congr ih

theorem wikiColumn?_withUnit (l : Linking) (d : Draft) (field unit : String) :
    l.wikiColumn? (d.withUnit field unit) =
      (Option.map (·.withUnit field unit)) <$> l.wikiColumn? d := by
  unfold Linking.wikiColumn?
  rw [Draft.columns_withUnit, List.find?_map]
  simp only [Function.comp_def, Column.name_withUnit]
  split
  · rfl
  · cases d.columns.find? fun c => decide (c.name = l.options.wikiField) with
    | none => rfl
    | some c =>
      simp only [Option.map_some, Column.type_withUnit]
      split <;> rfl

/-- Tables of titles read their units nowhere. -/
theorem addWikiLookup_withUnit (l : Linking) (a : Assembly) (d : Draft) (field unit : String) :
    l.addWikiLookup a (d.withUnit field unit) = l.addWikiLookup a d := by
  unfold Linking.addWikiLookup
  rw [wikiColumn?_withUnit, Draft.format_withUnit]
  dsimp only
  split
  · rfl
  · cases l.wikiColumn? d with
    | error e => rfl
    | ok found =>
      cases found with
      | none => rfl
      | some c =>
        show zipEven d.rowNames (c.withUnit field unit).cells >>= _ = zipEven d.rowNames c.cells >>= _
        rw [Column.cells_withUnit]
        refine bind_congr fun named => ?_
        rw [addTitles_withUnit]
        rfl

/-- A table without units that are judged is as well without those that it has. -/
theorem addTable_unchecked (none : d.checkedUnits = []) :
    (l.addTable enumerations a (d.withUnit field unit)).result =
      (l.addTable enumerations a d).result := by
  unfold Draft.checkedUnits at none
  rw [Linking.result_addTable, Linking.result_addTable]
  cases hc : d.content with
  | grid g =>
    rw [hc] at none
    cases none
  | records kind columns =>
    have content : (d.withUnit field unit).content =
        .records kind (columns.map (·.withUnit field unit)) := by
      rw [Draft.withUnit, hc]
    rw [content]
    cases kind with
    | enumeration => rfl
    | wikiLookup => exact addWikiLookup_withUnit l a d field unit
    | entities | anonymous | mod =>
      rw [hc] at none
      rw [List.map_eq_nil_iff.1 none] at hc
      have same : d.withUnit field unit = d := by
        obtain ⟨name, source, pool, rowNames, rowCount, entityAffix, content⟩ := d
        cases hc
        rfl
      rw [same]

end Tables

/-! ## Runs -/

section Runs

variable {before after pre post : List Draft} {d : Draft} {field unit : String}

/-- The tables in their order, as far as it matters where one of them stands. -/
theorem exists_modsLast_eq (before after : List Draft) (d : Draft) :
    ∃ pre post, ∀ d' : Draft, d'.isMod = d.isMod →
      modsLast (before ++ d' :: after) = pre ++ d' :: post := by
  cases hd : d.isMod with
  | false =>
    refine ⟨before.filter (!·.isMod),
      after.filter (!·.isMod) ++ (before.filter Draft.isMod ++ after.filter Draft.isMod), ?_⟩
    intro d' h
    simp [modsLast, h]
  | true =>
    refine ⟨before.filter (!·.isMod) ++ after.filter (!·.isMod) ++ before.filter Draft.isMod,
      after.filter Draft.isMod, ?_⟩
    intro d' h
    simp [modsLast, h]

theorem checkTableNames_congr {tables tables' : List Draft}
    (h : tables.map Draft.name = tables'.map Draft.name) (seen : List String) :
    checkTableNames seen tables = checkTableNames seen tables' := by
  induction tables generalizing tables' seen with
  | nil => rw [List.map_eq_nil_iff.1 h.symm]
  | cons d tables ih =>
    obtain ⟨d', rest, rfl, name, h⟩ := List.map_eq_cons_iff.1 h.symm
    rw [checkTableNames, checkTableNames, name, ih h.symm]

namespace Names

theorem addTable_withUnit (n : Names) (d : Draft) (field unit : String) :
    n.addTable (d.withUnit field unit) = n.addTable d := by
  unfold addTable
  rw [Draft.format_withUnit]
  rfl

theorem addTables_withUnit (n : Names) :
    n.addTables (pre ++ d.withUnit field unit :: post) = n.addTables (pre ++ d :: post) := by
  induction pre generalizing n with
  | nil =>
    simp only [List.nil_append, addTables, Draft.format_withUnit, addTable_withUnit]
  | cons b pre ih => simp only [List.cons_append, addTables, ih]

theorem addMods_withUnit (n : Names) :
    (n.addMods (pre ++ d.withUnit field unit :: post)).result =
      (n.addMods (pre ++ d :: post)).result := by
  induction pre generalizing n with
  | nil =>
    cases ht : d.target? with
    | none => simp only [List.nil_append, addMods, Draft.target?_withUnit, ht]
    | some t =>
      rw [List.nil_append, List.nil_append, result_addMods_cons ht,
        result_addMods_cons (ht ▸ d.target?_withUnit field unit)]
      rfl
  | cons b pre ih =>
    cases ht : b.target? with
    | none => simp only [List.cons_append, addMods, ht, ih]
    | some t => simp only [List.cons_append, result_addMods_cons ht, ih]

end Names

/-- Units have no part in the linking of names. -/
theorem linkNames_withUnit (predefined : Predefined) :
    (linkNames (pre ++ d.withUnit field unit :: post) predefined).result =
      (linkNames (pre ++ d :: post) predefined).result := by
  unfold linkNames
  simp only [Logged.result_bind, Logged.result_ofExcept, Names.addTables_withUnit,
    Names.addMods_withUnit]

/-- **Tables with a refused unit.** -/
theorem addTables_refused {l : Linking} {enumerations : OrderedMap String Enumeration}
    (refused : l.units.isValid unit ≠ .ok true) (wf : d.WellFormed)
    (checked : (field, unit) ∈ d.checkedUnits) (unit' : String) (a : Assembly) :
    FailsOr (Refuses l.units d field unit) (l.addTables enumerations a (pre ++ d :: post)).result
      (l.addTables enumerations a (pre ++ d.withUnit field unit' :: post)).result := by
  -- the tables before are the same, so both runs come to the table in one state or in none
  induction pre generalizing a with
  | nil =>
    rw [List.nil_append, List.nil_append, Linking.addTables, Linking.addTables,
      Logged.result_bind, Logged.result_bind]
    exact (addTable_refused refused unit' wf checked).bind _ _
  | cons b pre ih =>
    rw [List.cons_append, List.cons_append, Linking.addTables, Linking.addTables,
      Logged.result_bind, Logged.result_bind]
    exact .after rfl fun a _ => ih a

theorem addTables_unchecked {l : Linking} {enumerations : OrderedMap String Enumeration}
    (none : d.checkedUnits = []) (a : Assembly) :
    (l.addTables enumerations a (pre ++ d.withUnit field unit :: post)).result =
      (l.addTables enumerations a (pre ++ d :: post)).result := by
  induction pre generalizing a with
  | nil =>
    rw [List.nil_append, List.nil_append, Linking.addTables, Linking.addTables,
      Logged.result_bind, Logged.result_bind, addTable_unchecked none]
  | cons b pre ih =>
    rw [List.cons_append, List.cons_append, Linking.addTables, Linking.addTables,
      Logged.result_bind, Logged.result_bind]
    exact bind_congr ih

/-- A run and the run with another unit are apart only when the table comes to its turn. -/
theorem exists_stages (units : Units.Converter) (options : LinkOptions) (before after : List Draft)
    (d : Draft) (predefined : Predefined) : ∃ (names : Except LinkError Names) (pre post : List Draft),
      ∀ d', d' = d ∨ (∃ field unit, d' = d.withUnit field unit) →
        (link units options (before ++ d' :: after) predefined).result = (names >>= fun n =>
          (Linking.addTables ⟨units, options, n.entities⟩ n.enumerations { info := n.info }
            (pre ++ d' :: post)).result >>= fun a =>
          .ok ⟨a.tables, a.info, n.entities, n.enumerations, a.wiki, options.enablePrecisions⟩) := by
  have stages : ∀ tables, (link units options tables predefined).result =
      (checkTableNames [] (tables.filter (!·.isMod)) >>= fun _ =>
        (linkNames (modsLast tables) predefined).result) >>= fun n =>
        (Linking.addTables ⟨units, options, n.entities⟩ n.enumerations { info := n.info }
          (modsLast tables)).result >>= fun a =>
        .ok ⟨a.tables, a.info, n.entities, n.enumerations, a.wiki, options.enablePrecisions⟩ := by
    intro tables
    unfold link orderTables
    simp only [Logged.result_bind, Logged.result_ofExcept, bind_assoc, pure_bind]
    rfl
  obtain ⟨pre, post, ordered⟩ := exists_modsLast_eq before after d
  refine ⟨checkTableNames [] ((before ++ d :: after).filter (!·.isMod)) >>= fun _ =>
    (linkNames (pre ++ d :: post) predefined).result, pre, post, ?_⟩
  rintro d' (rfl | ⟨field, unit, rfl⟩)
  · rw [stages, ordered d' rfl]
  · have names : checkTableNames [] ((before ++ d.withUnit field unit :: after).filter (!·.isMod)) =
        checkTableNames [] ((before ++ d :: after).filter (!·.isMod)) := by
      refine checkTableNames_congr ?_ []
      cases hd : d.isMod <;> simp [hd]
    rw [stages, names, ordered _ (d.isMod_withUnit field unit), linkNames_withUnit]

/-- A run with a refused unit: what keeps its error from being that of the unit is wrong with any
other unit in its place too. -/
theorem link_refused {units : Units.Converter} (refused : units.isValid unit ≠ .ok true)
    (wf : d.WellFormed) (checked : (field, unit) ∈ d.checkedUnits) (options : LinkOptions)
    (predefined : Predefined) :
    ∃ e, (link units options (before ++ d :: after) predefined).result = .error e ∧
      (Refuses units d field unit e ∨ ∀ unit',
        (link units options (before ++ d.withUnit field unit' :: after) predefined).result =
          .error e) := by
  obtain ⟨names, pre, post, stages⟩ := exists_stages units options before after d predefined
  have fails : ∀ unit', FailsOr (Refuses units d field unit)
      (link units options (before ++ d :: after) predefined).result
      (link units options (before ++ d.withUnit field unit' :: after) predefined).result := by
    intro unit'
    rw [stages d (.inl rfl), stages _ (.inr ⟨field, unit', rfl⟩)]
    refine .after rfl fun n _ => ?_
    exact (addTables_refused refused wf checked unit' _).bind _ _
  -- the error of the run is one, whatever unit it is compared with
  obtain ⟨e, run, -⟩ := fails unit
  refine ⟨e, run, or_iff_not_imp_left.2 fun other unit' => ?_⟩
  obtain ⟨e', run', h⟩ := fails unit'
  rw [run] at run'
  cases run'
  exact h.resolve_left other

/-- A unit that is not judged has no part in a run. -/
theorem link_unchecked (units : Units.Converter) (none : d.checkedUnits = [])
    (options : LinkOptions) (predefined : Predefined) :
    (link units options (before ++ d.withUnit field unit :: after) predefined).result =
      (link units options (before ++ d :: after) predefined).result := by
  obtain ⟨names, pre, post, stages⟩ := exists_stages units options before after d predefined
  rw [stages d (.inl rfl), stages _ (.inr ⟨field, unit, rfl⟩)]
  refine bind_congr fun n => ?_
  rw [addTables_unchecked none]

end Runs

/-- **Verdicts on units.** A unit is valid if all conversions with it are real and one of it is a
number; not valid if it is not known or one of it is no number; and there is no verdict on it if its
arithmetic fails or its value is complex. A run over parsed tables in which a field or a grid has a
unit that is not valid fails. If there is a verdict its error names the field and the unit, else it
is the error that there was instead of a verdict, or else it is that of something else, which stays
the error whatever the unit. All other errors of a run are of names or of the form of a table. The
units of a table of titles are not judged, and have no part in a run. -/
theorem link_unitVerdicts {units : Units.Converter} (total : units.Total) :
    (∀ unit, units.Judges unit) ∧
    ∀ (options : LinkOptions) (tables : List Draft) (predefined : Predefined),
      (∀ d ∈ tables, d.Parsed) →
      Raises (fun e => e.isSchema ∨ e.isEnumeration ∨
        ∃ unit ∈ tables.flatMap Draft.unitTexts, ∃ f, units.isValid unit = .error f ∧
          e = .unitFault f) (link units options tables predefined).result ∧
      ∀ before d after, tables = before ++ d :: after →
        (∀ field unit, (field, unit) ∈ d.checkedUnits → units.isValid unit ≠ .ok true →
          ∃ e, (link units options tables predefined).result = .error e ∧
            (Refuses units d field unit e ∨ ∀ unit',
              (link units options (before ++ d.withUnit field unit' :: after) predefined).result =
                .error e)) ∧
        (d.checkedUnits = [] → ∀ field unit,
          (link units options (before ++ d.withUnit field unit :: after) predefined).result =
            (link units options tables predefined).result) := by
  refine ⟨Units.Converter.judges total, fun options tables predefined parsed => ⟨?_, ?_⟩⟩
  · refine (link_raises parsed total).imp fun e he => ?_
    cases he with
    | names h => exact .inr (.inl h)
    | form h => exact .inl h
    | unit mem fault => exact .inr (.inr ⟨_, mem, _, fault, rfl⟩)
  · rintro before d after rfl
    constructor
    · intro field unit checked refused
      exact link_refused refused (parsed d (by simp)).wellFormed checked options predefined
    · intro none field unit
      exact link_unchecked units none options predefined

/-- A crate; one of its units divides by zero. -/
def Draft.crates : List Draft := readAll [
  ("Crate", ["@DB_ENTITIES", "crate\tweight\tload", "Type\tFLOAT\tFLOAT", "Unit\tkg\t1/0",
    "box\t2\t3"])]

/-- There is no verdict on the unit, and the run fails for that reason: with another unit in its
place it does not. -/
theorem crates_unitVerdicts : ∃ d, Draft.crates = [d] ∧
    (∀ x, Units.Converter.convert {} x "1/0" = .error (.arithmetic .divisionByZero)) ∧
    (link {} {} [d] ∅).result = .error (.unitFault (.arithmetic .divisionByZero)) := by
  have verdict : Units.Converter.isValid {} "1/0" = .error (.arithmetic .divisionByZero) := by
    decide +kernel
  have tables : Draft.crates.map Draft.checkedUnits = [[("weight", "kg"), ("load", "1/0")]] := by
    decide +kernel
  have mended : ((link {} {} (Draft.crates.map (·.withUnit "load" "kg")) ∅).result.toOption.map
      fun _ => ()) = some () := by
    decide +kernel
  obtain ⟨d, rest, crates, units, hrest⟩ := List.map_eq_cons_iff.1 tables
  rw [List.map_eq_nil_iff.1 hrest] at crates
  obtain ⟨judges, runs⟩ := link_unitVerdicts Units.Converter.total_builtin
  refine ⟨d, crates, ?_, ?_⟩
  · refine (((judges "1/0").error_iff _).1 verdict).2.resolve_right ?_
    rintro ⟨other, -⟩
    cases other
  · have parsed : ∀ b ∈ [d], b.Parsed := fun b hb =>
      Draft.parsed_of_mem_readAll (show b ∈ Draft.crates from crates ▸ hb)
    obtain ⟨e, run, why⟩ := ((runs {} [d] ∅ parsed).2 [] d [] rfl).1 "load" "1/0"
      (by simp [units]) (by simp [verdict])
    rcases why with refuses | other
    · rw [run]
      cases refuses with
      | invalid h => rw [verdict] at h; cases h
      | fault h =>
        rw [verdict] at h
        cases h
        rfl
    · rw [crates] at mended
      obtain ⟨s, h, -⟩ := toOption_map_eq_some.1 mended
      cases h.symm.trans (other "kg")

/-- There is not always a verdict, and a run can fail with what is no error of names or of the form
of a table. -/
theorem crates_unitFault :
    (¬ ∃ valid, Units.Converter.isValid {} "1/0" = .ok valid) ∧
      ∃ e, (link {} {} Draft.crates ∅).result = .error e ∧
        e.isSchema = false ∧ e.isEnumeration = false := by
  have verdict : Units.Converter.isValid {} "1/0" = .error (.arithmetic .divisionByZero) := by
    decide +kernel
  have run : (match (link {} {} Draft.crates ∅).result with
      | .ok _ => none
      | .error e => some (e.isSchema, e.isEnumeration)) = some (false, false) := by
    decide +kernel
  constructor
  · rintro ⟨valid, h⟩
    rw [verdict] at h
    cases h
  · cases h : (link {} {} Draft.crates ∅).result with
    | ok s => rw [h] at run; cases run
    | error e =>
      rw [h, Option.some.injEq, Prod.mk.injEq] at run
      exact ⟨e, rfl, run⟩

end TypedTables
