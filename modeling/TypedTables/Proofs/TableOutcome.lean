import TypedTables.Proofs.NameSpace
import TypedTables.Proofs.ResolvedCells
import TypedTables.Proofs.StoreShape
/-!
# What a table can fail with

The tables of a dataset are resolved without a check that a look-up finds something, that an index
is in range or that two lists have one length. For a parsed table none is needed: what is looked up
was put there when the names were linked or by the table that a mod targets. What is left are the
errors that tell the author of a table what is wrong with it.

Results:
* `LinkError.Expected.told`: which errors are left.
* `field_raises`, `addSheet_raises`: a table of records.
* `writeCell_raises`, `modify_raises`: the steps of a mod, and from them a whole mod.
* `fillRow_raises`, `grid_raises`: a grid.
-/
namespace TypedTables

/-- The errors of datasets of parsed tables: one of names, one of the form of a table, or a unit
text that has no value because its arithmetic fails or its value is complex. -/
inductive LinkError.Expected (units : Units.Converter) (texts : List String) : LinkError → Prop
  | names {e : LinkError} : e.isEnumeration → Expected units texts e
  | form {e : LinkError} : e.isSchema → (∀ source raw, e ≠ .cell (.badFlag source raw)) →
    Expected units texts e
  | unit {u : String} {f : Units.UnitError} : u ∈ texts → units.isValid u = .error f →
    f.isUnresolved = false → Expected units texts (.unitFault f)

/-- No look-up finds nothing, and a cell that has no value names an entity that is not there. -/
theorem LinkError.Expected.told {units : Units.Converter} {texts : List String} {e : LinkError}
    (h : e.Expected units texts) :
    e ≠ .broken ∧ ∀ f, e = .cell f → ∃ source text, f = .unknownEntity source text := by
  cases h with
  | unit => exact ⟨nofun, nofun⟩
  | names h =>
    constructor
    · rintro rfl
      cases h
    · rintro f rfl
      cases f with
      | unknownEntity source text => exact ⟨source, text, rfl⟩
      | _ => cases h
  | form h notFlag =>
    constructor
    · rintro rfl
      cases h
    · rintro f rfl
      cases f with
      | badFlag source raw => exact absurd rfl (notFlag source raw)
      | _ => cases h

/-- A unit that is not known is no error when it is checked. -/
theorem Units.Converter.isValid_eq_error {c : Converter} {unit : String} {e : UnitError}
    (h : c.isValid unit = .error e) : e.isUnresolved = false := by
  unfold isValid at h
  rcases bind_eq_error.1 h with h | ⟨q, -, h⟩
  · unfold convertOrNaN at h
    split at h
    · split at h
      · cases h
      · next known =>
        cases h
        exact Bool.eq_false_iff.2 known
    · cases h
  · cases q with
    | real x => cases h
    | complex re im =>
      cases h
      rfl

theorem Draft.unit_mem {d : Draft} {c : Column} (hc : c ∈ d.columns) : c.unit ∈ d.unitTexts := by
  unfold columns at hc
  unfold unitTexts
  cases hd : d.content with
  | grid g => rw [hd] at hc; cases hc
  | records kind columns =>
    rw [hd] at hc
    exact List.mem_map_of_mem hc

theorem Draft.gridUnit_mem {d : Draft} {g : Grid} (hg : d.grid? = some g) :
    g.unit ∈ d.unitTexts := by
  rw [unitTexts, content_of_grid? hg]
  exact List.mem_singleton_self _

/-- Two lists of one length are paired. -/
theorem zipEven_eq_ok {α β : Type} {as : List α} {bs : List β} (h : as.length = bs.length) :
    zipEven as bs = .ok (as.zip bs) := by
  induction as generalizing bs with
  | nil => rw [List.eq_nil_of_length_eq_zero h.symm]; rfl
  | cons a as ih =>
    cases bs with
    | nil => cases h
    | cons b bs => rw [zipEven, ih (Nat.succ.inj h)]; rfl

section Tables

variable {l : Linking} {d : Draft} {texts : List String} (total : l.units.Total)
  (wf : d.WellFormed) (known : ∀ u ∈ d.unitTexts, u ∈ texts)

/-! ## Cells -/

theorem checkUnit_raises {unit : String} (hu : unit ∈ texts) (field : String) :
    Raises (LinkError.Expected l.units texts) (l.checkUnit d unit field) := by
  unfold Linking.checkUnit
  split
  · exact .ok ()
  · split
    · exact .ok ()
    · exact .error (.form rfl (by simp))
    · next e he => exact .error (.unit hu he (Units.Converter.isValid_eq_error he))

include total in
theorem cell_raises {raw : Raw} {type : FieldType} {unit : String} (accepts : l.Accepts unit)
    (fits : raw.Fits d.pool type) :
    Raises (LinkError.Expected l.units texts) (l.cell d raw type unit) := by
  refine (Linking.resolves total accepts fits).cell.imp ?_
  rintro e ⟨item, -, f, ⟨-, t, -, -, -, rfl⟩, rfl⟩
  exact .names rfl

theorem digits_raises {raw : Raw} {pool : StringPool} {type : FieldType}
    (float : type = ⟨.float, false⟩) (fits : raw.Fits pool type) :
    Raises (LinkError.Expected l.units texts) (Linking.digits raw) := by
  subst float
  cases fits with
  | empty => exact .ok _
  | array array => cases array
  | scalar _ kept =>
    cases kept with
    | pooled hb => cases hb
    | number => exact .mapError fun e _ => .form rfl (by simp)

/-! ## Titles -/

/-- The column of titles is one of the table, of texts. -/
theorem wikiColumn?_eq_ok {c : Column} (h : l.wikiColumn? d = .ok (some c)) :
    c ∈ d.columns ∧ c.type.isArray = false ∧ c.type.base.isPooled := by
  unfold Linking.wikiColumn? at h
  split at h
  · cases h
  · split at h
    · cases h
    · next c' hc =>
      split at h
      · next type =>
        cases h
        refine ⟨List.mem_of_find?_eq_some hc, ?_⟩
        rcases type with type | type <;> rw [type] <;> exact ⟨rfl, rfl⟩
      · cases h

theorem wikiColumn?_raises : Raises (LinkError.Expected l.units texts) (l.wikiColumn? d) := by
  unfold Linking.wikiColumn?
  split
  · exact .ok _
  · split
    · exact .ok _
    · split
      · exact .ok _
      · exact .error (.form rfl (by simp))

theorem addTitle_raises {P : LinkError → Prop} {type : FieldType} (scalar : type.isArray = false)
    (pooled : type.base.isPooled) {raw : Raw} (fits : raw.Fits d.pool type)
    (wiki : OrderedMap String String) (name : String) :
    Raises P (l.addTitle d wiki name raw) := by
  obtain ⟨t, ht⟩ := Resolver.exists_text (r := l.resolver d) rfl pooled
    (Resolver.scalars_fit fits raw (by simp [Raw.scalars, scalar]))
  unfold Linking.addTitle
  split
  · exact .ok _
  · exact .bind_ok (mapError_eq_ok.2 ht) (.ok _)

theorem addTitles_raises {P : LinkError → Prop} {type : FieldType} (scalar : type.isArray = false)
    (pooled : type.base.isPooled) {rows : List (String × Raw)}
    (fits : ∀ p ∈ rows, p.2.Fits d.pool type) (wiki : OrderedMap String String) :
    Raises P (l.addTitles d wiki rows) := by
  induction rows generalizing wiki with
  | nil => exact .ok _
  | cons p rows ih =>
    rw [List.forall_mem_cons] at fits
    exact .bind (addTitle_raises scalar pooled fits.1 _ _) fun wiki _ => ih fits.2 wiki

/-! ## Tables of records -/

include total wf known in
theorem field_raises {c : Column} (hc : c ∈ d.columns) :
    Raises (LinkError.Expected l.units texts) (l.field d c) := by
  have column := wf.columns c hc
  unfold Linking.field
  refine .bind (checkUnit_raises (known _ (Draft.unit_mem hc)) _) fun _ hu => ?_
  have accepts := Linking.checkUnit_eq_ok hu
  refine .bind (.mapM fun raw hraw => cell_raises total accepts (column.cells_fit raw hraw))
    fun values _ => ?_
  refine .bind (cell_raises total accepts column.default_fits) fun default _ => ?_
  dsimp only
  split
  · next tracked =>
    have float := (tracks_iff.1 tracked).2
    exact .bind (.map (.mapM fun raw hraw => digits_raises float (column.cells_fit raw hraw)))
      fun _ _ => .ok _
  · exact .ok _

include total wf known in
theorem sheet_raises : Raises (LinkError.Expected l.units texts) (l.sheet d) :=
  .bind (.mapM fun _ hc => .map (field_raises total wf known hc)) fun _ _ => .ok _

include wf in
/-- The titles of the rows are paired with their names. -/
theorem titles_raises {c : Column} (hc : l.wikiColumn? d = .ok (some c))
    (length : d.rowNames.length = d.rowCount) {α : Type} (wiki : OrderedMap String String)
    {f : OrderedMap String String → Except LinkError α}
    (hf : ∀ wiki, Raises (LinkError.Expected l.units texts) (f wiki)) :
    Raises (LinkError.Expected l.units texts) (do
      let named ← zipEven d.rowNames c.cells
      let wiki ← l.addTitles d wiki named
      f wiki) := by
  obtain ⟨mem, scalar, pooled⟩ := wikiColumn?_eq_ok hc
  have column := wf.columns c mem
  refine .bind_ok (zipEven_eq_ok (length.trans column.length_cells.symm)) ?_
  exact .bind (addTitles_raises scalar pooled
    (fun p hp => column.cells_fit _ (List.of_mem_zip hp).2) _) fun wiki _ => hf wiki

include total wf known in
theorem addSheet_raises (a : Assembly) :
    Raises (LinkError.Expected l.units texts) (l.addSheet a d) := by
  unfold Linking.addSheet
  refine .bind (sheet_raises total wf known) fun sheet _ => ?_
  dsimp only
  split
  · next named =>
    have length := wf.rows_counted.resolve_left (d.isNamed_iff.1 named)
    refine .bind wikiColumn?_raises fun column hc => ?_
    cases column with
    | none => exact .ok _
    | some c => exact titles_raises wf hc length a.wiki fun _ => .ok _
  · exact .ok _

include wf in
theorem addWikiLookup_raises (hf : d.format = .wikiLookup) (a : Assembly) :
    Raises (LinkError.Expected l.units texts) (l.addWikiLookup a d) := by
  have length : d.rowNames.length = d.rowCount := by
    refine wf.rows_counted.elim (fun none => ?_) id
    rw [none, List.length_nil]
    by_contra rows
    exact wf.rows_needed (by rw [hf]; rfl) (Ne.symm rows) none
  unfold Linking.addWikiLookup
  dsimp only
  split
  · exact .ok _
  · refine .bind wikiColumn?_raises fun column hc => ?_
    cases column with
    | none => exact .error (.form rfl (by simp))
    | some c => exact titles_raises wf hc length a.wiki fun _ => .ok _

/-! ## Mods -/

include total wf known in
theorem addField_raises {c : Column} (hc : c ∈ d.columns) (t : Target) (s : Sheet) :
    Raises (LinkError.Expected l.units texts) (l.addField d t s c) := by
  unfold Linking.addField
  refine .bind (checkUnit_raises (known _ (Draft.unit_mem hc)) _) fun _ hu => ?_
  cases s.get? c.name with
  | some f =>
    dsimp only
    split
    · exact .error (.form rfl (by simp))
    · exact .ok _
  | none =>
    exact .bind (cell_raises total (Linking.checkUnit_eq_ok hu) (wf.columns c hc).default_fits)
      fun _ _ => .ok _

include total wf known in
theorem addFields_raises {columns : List Column} (hc : ∀ c ∈ columns, c ∈ d.columns) (t : Target)
    (s : Sheet) :
    Raises (LinkError.Expected l.units texts) (columns.foldlM (l.addField d t) s) := by
  induction columns generalizing s with
  | nil => exact .ok s
  | cons c columns ih =>
    rw [List.forall_mem_cons] at hc
    rw [List.foldlM_cons]
    exact .bind (addField_raises total wf known hc.1 t s) fun s _ => ih hc.2 s

/-- A row of the table is a row of each of its fields. -/
theorem exists_write {tracked : Bool} {n row : Nat} {f : Field} (hf : f.Shaped tracked n)
    (hr : row < n) (v : Value) (digits : Int) : ∃ f', f.write row v digits = .ok f' := by
  refine ⟨_, if_pos ⟨hf.length ▸ hr, ?_⟩⟩
  cases hp : f.precisions with
  | none => rfl
  | some ds => simpa [(hf.digits ds hp).1] using hr

section Writing

variable {names : List String} {row : Nat} {s : Sheet}
  (accepts : ∀ c ∈ d.columns, l.Accepts c.unit)

include total accepts in
theorem writeCell_raises {c : Column} {raw : Raw} (hs : s.Written l d names)
    (hr : row < names.length) (hc : c ∈ d.columns) (fits : raw.Fits d.pool c.type) :
    Raises (LinkError.Expected l.units texts) (l.writeCell d row s c raw) := by
  obtain ⟨f, hf, type⟩ := hs.covers c hc
  have shaped := hs.shaped c.name f hf
  have write : ∀ (v : Value) (digits : Int), Raises (LinkError.Expected l.units texts)
      (do let f ← f.write row v digits; pure (s.insert c.name f)) := by
    intro v digits
    obtain ⟨f', hw⟩ := exists_write shaped hr v digits
    exact .bind_ok hw (.ok _)
  unfold Linking.writeCell
  split
  · exact .ok _
  · refine .bind (cell_raises total (accepts c hc) fits) fun v _ => ?_
    refine .bind_ok (orBroken_eq_ok.2 hf) ?_
    dsimp only
    split
    · next tracked =>
      have float := type.symm.trans (shaped.tracks.1 tracked).2
      exact .bind (digits_raises float fits) fun digits _ => write v digits
    · exact write v _

/-- The columns whose cells are recorded as titles are of texts. -/
def TitlesTexts (d : Draft) (title : Option Column) : Prop :=
  ∀ c ∈ d.columns, (title.any fun t => t.name == c.name) →
    c.type.isArray = false ∧ c.type.base.isPooled

include total wf accepts in
theorem writeRow_raises {title : Option Column} (titles : TitlesTexts d title) {name : String}
    {cells : List (Column × Raw)} (hr : row < names.length)
    (given : ∀ p ∈ cells, p.1 ∈ d.columns ∧ p.2.Fits d.pool p.1.type) (hs : s.Written l d names)
    (wiki : OrderedMap String String) :
    Raises (LinkError.Expected l.units texts) (l.writeRow d title name row (s, wiki) cells) := by
  induction cells generalizing s wiki with
  | nil => exact .ok _
  | cons p cells ih =>
    rw [List.forall_mem_cons] at given
    obtain ⟨⟨hc, fits⟩, given⟩ := given
    refine .bind (writeCell_raises total accepts hs hr hc fits) fun s₁ h₁ => ?_
    have hs₁ := writeCell_shaped wf accepts hc hs h₁
    dsimp only
    split
    · next titled =>
      obtain ⟨scalar, pooled⟩ := titles _ hc titled
      exact .bind (addTitle_raises scalar pooled fits _ _) fun wiki _ => ih given hs₁ wiki
    · exact ih given hs₁ wiki

/-- The cells of a row that the table has. -/
theorem exists_cellsAt (wf : d.WellFormed) {i : Nat} (hi : i < d.rowCount) :
    ∃ cells, cellsAt d.columns i = .ok cells ∧
      ∀ p ∈ cells, p.1 ∈ d.columns ∧ p.2.Fits d.pool p.1.type := by
  have cell : ∀ c ∈ d.columns, ∃ raw ∈ c.cells, orBroken c.cells[i]? = .ok raw := by
    intro c hc
    have lt : i < c.cells.length := (wf.columns c hc).length_cells ▸ hi
    exact ⟨c.cells[i], List.getElem_mem lt, by rw [List.getElem?_eq_getElem lt]; rfl⟩
  have all : Raises (fun _ => False) (cellsAt d.columns i) := by
    refine .mapM fun c hc => ?_
    obtain ⟨raw, -, h⟩ := cell c hc
    rw [h]
    exact .ok _
  cases h : cellsAt d.columns i with
  | error e => exact (all e h).elim
  | ok cells =>
    refine ⟨cells, rfl, fun p hp => ?_⟩
    obtain ⟨c, hc, hcp⟩ := exists_of_forall₂ (mapM_eq_ok.1 h).flip hp
    obtain ⟨raw, hm, hraw⟩ := cell c hc
    rw [hraw] at hcp
    cases hcp
    exact ⟨hc, (wf.columns c hc).cells_fit raw hm⟩

/-- The names have rows in the enumeration, and the rows are there. -/
def Enumeration.Locates (e : Enumeration) (names : List String) : Prop :=
  ∀ name ∈ names, ∃ row, e.rows.get? name = some row ∧ row < e.names.length

include total wf accepts in
theorem writeRows_raises {t : Target} {title : Option Column} (titles : TitlesTexts d title)
    {rows : List (String × Nat)} (located : t.enumeration.Locates (rows.map Prod.fst))
    (given : ∀ p ∈ rows, p.2 < d.rowCount) (hs : s.Written l d t.enumeration.names)
    (wiki : OrderedMap String String) :
    Raises (LinkError.Expected l.units texts) (l.writeRows d t title (s, wiki) rows) := by
  induction rows generalizing s wiki with
  | nil => exact .ok _
  | cons p rows ih =>
    rw [List.forall_mem_cons] at given
    rw [Enumeration.Locates, List.map_cons, List.forall_mem_cons] at located
    obtain ⟨⟨row, hrow, hr⟩, located⟩ := located
    obtain ⟨cells, hcells, fit⟩ := exists_cellsAt wf given.1
    refine .bind_ok (orBroken_eq_ok.2 hrow) (.bind_ok hcells ?_)
    refine .bind (writeRow_raises total wf accepts titles hr fit hs wiki) fun state h => ?_
    exact ih located given.2 (writeRow_shaped wf accepts (fun p hp => (fit p hp).1) hs h) state.2

end Writing

/-- Fields have different names, so the column that is recorded as titles is that of texts. -/
theorem titlesTexts_of_wikiColumn? (wf : d.WellFormed) {title : Option Column}
    (h : l.wikiColumn? d = .ok title) : TitlesTexts d title := by
  intro c hc same
  cases title with
  | none => cases same
  | some t =>
    obtain ⟨mem, texts⟩ := wikiColumn?_eq_ok h
    cases List.inj_on_of_nodup_map wf.fields_nodup mem hc (by simpa using same)
    exact texts

include total wf known in
/-- **Mods.** A mod can be applied to all rows that its target has, and has rows there itself. -/
theorem modify_raises {t : Target} {s : Sheet}
    (hs : s.Shaped l.options.enablePrecisions t.rowCount)
    (hn : s.get? nameField = some (rowNameField (t.enumeration.names.take t.rowCount)))
    (le : t.rowCount ≤ t.enumeration.names.length) (located : t.enumeration.Locates d.rowNames)
    (wiki : OrderedMap String String) :
    Raises (LinkError.Expected l.units texts) (l.modify d t s wiki) := by
  refine .bind (addFields_raises total wf known (fun _ => id) t s) fun s₁ h₁ => ?_
  obtain ⟨added, accepts, covers, kept⟩ := addFields_shaped hs rfl h₁
  obtain ⟨grown, names⟩ := growSheet_shaped added (kept _ _ hn) le
  refine .bind wikiColumn?_raises fun title ht => ?_
  refine writeRows_raises total wf accepts (titlesTexts_of_wikiColumn? wf ht) ?_ (fun p hp => ?_)
    ⟨grown, growSheet_covers covers, names⟩ wiki
  · rwa [Draft.keys_zipIdx]
  · have hp := (List.mem_zipIdx' hp).1
    rcases wf.rows_counted with none | length
    · rw [none] at hp
      cases hp
    · rwa [length] at hp

/-! ## Grids -/

theorem axisOwner_raises (entities : OrderedMap String Entity) (axis : Axis)
    (names : List String) :
    Raises (LinkError.Expected l.units texts) (axisOwner entities d axis names) := by
  refine .bind (.mapM fun name _ => ?_) fun owners _ => ?_
  · split
    · exact .ok _
    · exact .error (.names rfl)
  · split
    · exact .ok _
    · exact .error (.names rfl)

/-- All names of an axis have the owner that is found. -/
theorem axisOwner_eq_ok {entities : OrderedMap String Entity} {axis : Axis} {names : List String}
    {owner : String} (h : axisOwner entities d axis names = .ok owner) :
    ∀ name ∈ names, ∃ row, entities.get? name = some ⟨owner, row⟩ := by
  intro name hm
  obtain ⟨owners, ho, h⟩ := bind_eq_ok.1 h
  obtain ⟨o, hmo, found⟩ := exists_of_forall₂ (mapM_eq_ok.1 ho) hm
  cases hx : entities.get? name with
  | none => rw [hx] at found; cases found
  | some x =>
    rw [hx] at found
    cases found
    split at h
    · next single =>
      cases h
      rw [← List.mem_eraseDups, single, List.mem_singleton] at hmo
      exact ⟨x.row, by rw [← hmo]⟩
    · cases h

theorem exists_setCell {type : FieldType} {rows columns row column : Nat} {cells : List (List Value)}
    (hc : ShapedCells type rows columns cells) (hr : row < rows) (hcolumn : column < columns)
    (v : Value) : ∃ cells', setCell cells row column v = .ok cells' := by
  have lt : row < cells.length := hc.length ▸ hr
  have length := (hc.row _ (List.getElem_mem lt)).1
  unfold setCell
  rw [List.getElem?_eq_getElem lt]
  exact ⟨_, if_pos (length ▸ hcolumn)⟩

section Grids

variable {g : Grid} {rows : Nat} {columns : Enumeration} (accepts : l.Accepts g.unit)

include total accepts in
theorem fillRow_raises {row : Nat} {named : List (String × Raw)} {cells : List (List Value)}
    (hr : row < rows) (located : columns.Locates (named.map Prod.fst))
    (fits : ∀ p ∈ named, p.2.Fits d.pool g.type)
    (hc : ShapedCells g.type rows columns.names.length cells) :
    Raises (LinkError.Expected l.units texts) (l.fillRow d g columns row cells named) := by
  induction named generalizing cells with
  | nil => exact .ok _
  | cons p named ih =>
    rw [List.forall_mem_cons] at fits
    rw [Enumeration.Locates, List.map_cons, List.forall_mem_cons] at located
    obtain ⟨⟨column, hcolumn, lt⟩, located⟩ := located
    unfold Linking.fillRow
    split
    · exact ih located fits.2 hc
    · refine .bind_ok (orBroken_eq_ok.2 hcolumn) ?_
      refine .bind (cell_raises total accepts fits.1) fun v hv => ?_
      obtain ⟨cells', h'⟩ := exists_setCell hc hr lt v
      exact .bind_ok h' (ih located fits.2
        (setCell_shaped hc (Linking.cell_hasKind accepts hv) h'))

include total accepts in
theorem fillGrid_raises {e : Enumeration} {named : List (String × List Raw)}
    {cells : List (List Value)} (rowsLocated : e.Locates (named.map Prod.fst))
    (columnsLocated : columns.Locates g.columnNames)
    (even : ∀ p ∈ named, p.2.length = g.columnNames.length ∧ ∀ raw ∈ p.2, raw.Fits d.pool g.type)
    (hc : ShapedCells g.type e.names.length columns.names.length cells) :
    Raises (LinkError.Expected l.units texts) (l.fillGrid d g e columns cells named) := by
  induction named generalizing cells with
  | nil => exact .ok _
  | cons p named ih =>
    rw [List.forall_mem_cons] at even
    rw [Enumeration.Locates, List.map_cons, List.forall_mem_cons] at rowsLocated
    obtain ⟨⟨row, hrow, hr⟩, rowsLocated⟩ := rowsLocated
    obtain ⟨⟨length, fits⟩, even⟩ := even
    refine .bind_ok (orBroken_eq_ok.2 hrow) (.bind_ok (zipEven_eq_ok length.symm) ?_)
    refine .bind (fillRow_raises total accepts hr ?_ (fun p hp => fits _ (List.of_mem_zip hp).2) hc)
      fun cells' h' => ih rowsLocated even (fillRow_shaped accepts hc h')
    rwa [List.map_fst_zip (Nat.le_of_eq length.symm)]

end Grids

/-- A row of an enumeration is one of those that it has names for. -/
theorem Linked.row_lt {ps : List (String × OrderedMap String Int)} {ts : List Draft} {n : Names}
    (h : Linked ps ts n) {owner name : String} {e : Enumeration} {row : Nat}
    (he : n.enumerations.get? owner = some e) (hr : e.rows.get? name = some row) :
    row < e.names.length := by
  rcases h.origin owner e he with ⟨members, hm⟩ | ⟨b, hb, hbe, hbr, rfl⟩
  · have listed := (h.member _ hm).2
    rw [he] at listed
    cases listed
    exact Names.lt_length_namesByIndex ((OrderedMap.get?_eq_some_iff ..).1 hr)
  · obtain ⟨e', he', inv, -⟩ := h.table b hb hbe hbr
    rw [he] at he'
    cases he'
    exact (List.getElem?_eq_some_iff.1 ((inv.row_iff name row).1 hr)).1

/-- The names of an owner have rows in its enumeration. -/
theorem Linked.locates {ps : List (String × OrderedMap String Int)} {ts : List Draft} {n : Names}
    (h : Linked ps ts n) {owner : String} {names : List String} {e : Enumeration}
    (he : n.enumerations.get? owner = some e) (owned : ∀ name ∈ names, n.Owns owner name) :
    e.Locates names := by
  intro name hm
  obtain ⟨row, hr⟩ := owned name hm
  obtain ⟨e', he', hrow⟩ := (h.coherent name owner row).1 hr
  rw [he] at he'
  cases he'
  exact ⟨row, hrow, h.row_lt he hrow⟩

/-- The owner of the names of an axis has an enumeration. -/
theorem Linked.locates_axis {ps : List (String × OrderedMap String Int)} {ts : List Draft}
    {n : Names} (h : Linked ps ts n) {axis : Axis} {names : List String} (hne : names ≠ [])
    {owner : String} (ho : axisOwner n.entities d axis names = .ok owner) :
    ∃ e, n.enumerations.get? owner = some e ∧ e.Locates names := by
  have owned := axisOwner_eq_ok ho
  obtain ⟨first, hf⟩ := List.exists_mem_of_ne_nil names hne
  obtain ⟨e, he, -⟩ := h.coherent.owns_iff.1 (owned first hf)
  exact ⟨e, he, h.locates he owned⟩

include total wf known in
/-- **Grids.** The names of both axes have rows in enumerations, and there are cells for all. -/
theorem grid_raises {ps : List (String × OrderedMap String Int)} {ts : List Draft} {n : Names}
    (linked : Linked ps ts n) (names : l.entities = n.entities) {g : Grid}
    (hg : d.grid? = some g) :
    Raises (LinkError.Expected l.units texts) (l.grid n.enumerations d g) := by
  have even := wf.grid g hg
  unfold Linking.grid
  refine .bind (checkUnit_raises (known _ (Draft.gridUnit_mem hg)) _) fun _ hu => ?_
  have accepts := Linking.checkUnit_eq_ok hu
  refine .bind (cell_raises total accepts even.default_fits) fun default hdefault => ?_
  refine .bind (axisOwner_raises _ _ _) fun rowAxis hrow => ?_
  refine .bind (axisOwner_raises _ _ _) fun columnAxis hcolumn => ?_
  rw [names] at hrow hcolumn
  obtain ⟨rows, hrows, rowsLocated⟩ := linked.locates_axis even.rows_ne_nil hrow
  obtain ⟨columns, hcolumns, columnsLocated⟩ := linked.locates_axis even.columns_ne_nil hcolumn
  refine .bind_ok (orBroken_eq_ok.2 hrows) (.bind_ok (orBroken_eq_ok.2 hcolumns) ?_)
  refine .bind_ok (zipEven_eq_ok even.length_cells.symm) (.bind ?_ fun _ _ => .ok _)
  refine fillGrid_raises total accepts ?_ columnsLocated (fun p hp => ?_)
    (replicate_shaped (Linking.cell_hasKind accepts hdefault))
  · rwa [List.map_fst_zip (Nat.le_of_eq even.length_cells.symm)]
  · have hm := (List.of_mem_zip hp).2
    exact ⟨even.length_row _ hm, even.cells_fit _ hm⟩

end Tables

end TypedTables
