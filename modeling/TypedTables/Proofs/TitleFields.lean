import TypedTables.Proofs.Titles
/-!
# Fields of titles

The cells that give titles are those of a field as well, and come to the map of titles and to the
field in two ways. Both take the last cell that is given. The field decodes the escapes of a STRING
and the map does not; and a default that is filled in for a row or a field of a mod is in the field
only, while one that stands in for a cell of the source is in both.

Results:
* `Draft.Parsed.isGiven`: a text that is read is empty only if its cell is.
* `Given.IsText.value`: what a field shows of a text.
* `cells_of_entity`: the titles that are given to an entity are the cells of its row.
* `link_titleField`: the field and the title of an entity, side by side.
-/
namespace TypedTables

/-! ## Texts that are given -/

/-- A scalar text is never kept as the number of the empty text. -/
def Raw.IsGiven (type : FieldType) (raw : Raw) : Prop :=
  type.isArray = false → type.base.isPooled → raw ≠ .code 0

theorem Raw.isGiven_empty (type : FieldType) : Raw.empty.IsGiven type := fun _ _ => nofun

theorem StringPool.intern_ne_zero (p : StringPool) {t : String} (ht : t ≠ "") :
    (p.intern t).1 ≠ 0 := by
  intro zero
  have found := p.lookup_intern t
  rw [zero] at found
  exact ht (Option.some.inj found).symm

theorem readScalar_isGiven {base : BaseType} {affix t : String} {raw : Raw} {p p' : StringPool}
    (ht : t ≠ "") (hb : base.isPooled) (h : readScalar base affix t p = .ok (raw, p')) :
    raw ≠ .code 0 := by
  have whole : affix ++ t ≠ "" := fun blank => ht (String.append_eq_empty_iff.1 blank).2
  have interned : ∀ {raw : Raw}, (if t = "" then pure (.code 0) else internText (affix ++ t) :
      Interning CellFault Raw) p = .ok (raw, p') → raw ≠ .code 0 := by
    intro raw h
    rw [if_neg ht] at h
    have pooled : raw = .code (p.intern (affix ++ t)).1 :=
      (congrArg Prod.fst (Except.ok.inj h)).symm
    rw [pooled]
    simpa using p.intern_ne_zero whole
  unfold readScalar at h
  cases base with
  | bool => cases hb
  | float => cases hb
  | int => exact interned h
  | string => exact interned h
  | stringName => exact interned h

theorem readCell_isGiven {type : FieldType} {affix t : String} {default raw : Raw}
    {p p' : StringPool} (hd : default.IsGiven type)
    (h : readCell type affix default t p = .ok (raw, p')) : raw.IsGiven type := by
  intro scalar pooled
  unfold readCell at h
  split at h
  · obtain ⟨rfl, -⟩ := interning_pure_eq_ok.1 h
    exact hd scalar pooled
  · next ht =>
    rw [if_neg (by simp [scalar])] at h
    exact readScalar_isGiven ht pooled h

theorem readColumns_isGiven {format : TableFormat} {header : Header} {first : Option Nat}
    {names : List String} {columns : List Column} {p p' : StringPool}
    (h : readColumns format header first names p = .ok (columns, p')) :
    ∀ c ∈ columns, c.default.IsGiven c.type := by
  unfold readColumns at h
  obtain ⟨types, _, -, h⟩ := interning_bind_eq_ok.1 h
  obtain ⟨units, _, -, h⟩ := interning_bind_eq_ok.1 h
  obtain ⟨affixes, _, -, h⟩ := interning_bind_eq_ok.1 h
  intro c hc
  obtain ⟨a, -, q, q', read⟩ := exists_of_forall₂ (interning_mapM_eq_ok h).flip hc
  obtain ⟨default, _, hd, read⟩ := interning_bind_eq_ok.1 read
  rw [← (interning_pure_eq_ok.1 read).1]
  exact readCell_isGiven (Raw.isGiven_empty a.1.type) (mapError_eq_ok.1 hd)

/-- The cells of a row are given if the defaults of their columns are. -/
def GivenRow (columns : List Column) (cells : List Raw) : Prop :=
  List.Forall₂ (fun c raw => c.default.IsGiven c.type → raw.IsGiven c.type) columns cells

theorem readRow_isGiven {columns : List Column} {row : Row} {cells : List Raw} {p p' : StringPool}
    (h : readRow columns row p = .ok (cells, p')) : GivenRow columns cells := by
  have read : List.Forall₂ (fun a raw => a.1.default.IsGiven a.1.type → raw.IsGiven a.1.type)
      columns.zipIdx cells := by
    refine (interning_mapM_eq_ok h).imp ?_
    rintro a raw ⟨q, q', hr⟩ given
    obtain ⟨cell, _, -, hr⟩ := interning_bind_eq_ok.1 hr
    exact readCell_isGiven given (mapError_eq_ok.1 hr)
  have hc : columns.zipIdx.map Prod.fst = columns := List.zipIdx_map_fst 0 columns
  unfold GivenRow
  rwa [← hc, List.forall₂_map_left_iff]

theorem readRows_isGiven {columns : List Column} {named : Bool} {affix : String}
    {seen : List String} {rows : List Row} {content : List (String × List Raw)}
    {p p' : StringPool} (h : readRows columns named affix seen rows p = .ok (content, p')) :
    ∀ r ∈ content, GivenRow columns r.2 := by
  induction rows generalizing seen content p p' with
  | nil =>
    rw [← (interning_pure_eq_ok.1 h).1]
    simp
  | cons row rows ih =>
    unfold readRows at h
    dsimp only at h
    split at h
    · cases h
    generalize (if named = true then affix ++ row.head else "") = name at h
    split at h
    · cases h
    obtain ⟨cells, p₁, hc, h⟩ := interning_bind_eq_ok.1 h
    obtain ⟨others, p₂, ho, h⟩ := interning_bind_eq_ok.1 h
    rw [← (interning_pure_eq_ok.1 h).1]
    exact List.forall_mem_cons.2 ⟨readRow_isGiven hc, ih ho⟩

/-- **Given texts.** In a draft that is read from a source the text of a scalar is empty only if the
cell is. -/
theorem Draft.Parsed.isGiven {d : Draft} (h : d.Parsed) : ∀ c ∈ d.columns,
    c.default.IsGiven c.type ∧ ∀ raw ∈ c.cells, raw.IsGiven c.type := by
  obtain ⟨lines, name, source, h⟩ := h
  obtain ⟨o, ho, hd⟩ := parse_eq_some_iff.1 h
  unfold ofOutline at hd
  obtain ⟨_, -, hd⟩ := bind_eq_ok.1 hd
  dsimp only at hd
  split at hd
  · obtain ⟨⟨records, pool⟩, hr, hd⟩ := bind_eq_ok.1 hd
    obtain ⟨first, names, rest, header, body, columns, p₁, named, content, -, -, hc, -, hrows,
      rfl⟩ := readRecords_eq_ok hr
    cases hd
    have declared := readColumns_isGiven hc
    have cells := forall_mem_transpose (List.forall_mem_map.2 (readRows_isGiven hrows))
    intro c hm
    obtain ⟨q, hq, rfl⟩ := List.mem_map.1 hm
    have default := declared q.1 (List.of_mem_zip hq).1
    exact ⟨default, fun raw hraw => (cells q hq).2 raw hraw default⟩
  · obtain ⟨⟨⟨rowNames, g⟩, pool⟩, -, hd⟩ := bind_eq_ok.1 hd
    cases hd
    exact fun c hc => (List.not_mem_nil hc).elim

/-! ## Cells of texts -/

namespace Given

/-- The interned text of a cell. -/
def text (g : Given) : String := (g.draft.textOf? g.raw).getD ""

/-- What a field shows of a text: a STRING is shown with its escapes decoded. -/
def shown (g : Given) : String :=
  if g.column.type = ⟨.string, false⟩ then Text.unescaped g.text else g.text

/-- A cell of a field of texts, as it is kept. -/
structure IsText (g : Given) : Prop where
  type : g.column.type = ⟨.string, false⟩ ∨ g.column.type = ⟨.stringName, false⟩
  keeps : g.raw = .empty ∨ g.raw.Keeps g.draft.pool .int
  given : g.raw ≠ .code 0

namespace IsText

variable {g : Given}

theorem isEmpty_iff (h : g.IsText) : g.raw.isEmpty ↔ g.text = "" := by
  obtain ⟨t, ht, -⟩ := text_of_kept (l := ⟨{}, {}, ∅⟩) h.keeps
  have blank := Draft.textOf?_eq_empty_iff h.keeps
  rw [ht, Option.some.injEq] at blank
  rw [text, ht, Option.getD_some, ← blank]
  have given := h.given
  rcases h.keeps with empty | keeps
  · rw [empty]
    exact iff_of_true rfl rfl
  · generalize g.raw = raw at keeps given
    cases keeps with
    | @pooled _ n _ _ =>
      refine iff_of_false nofun fun zero => given ?_
      rw [beq_iff_eq.1 (show ((n : Int) == 0) = true from zero)]

theorem value (h : g.IsText) (l : Linking) : l.value g = .ok (.text g.shown) := by
  obtain ⟨t, ht, resolved⟩ := text_of_kept (l := l) h.keeps
  have text : g.text = t := by rw [Given.text, ht, Option.getD_some]
  rw [← text] at resolved
  unfold Linking.value Linking.cell shown
  rw [mapError_eq_ok]
  rcases h.type with type | type
  · rw [type, if_pos rfl]
    exact map_eq_ok.2 ⟨g.text, resolved, rfl⟩
  · rw [type, if_neg (by decide)]
    exact map_eq_ok.2 ⟨g.text, resolved, rfl⟩

end IsText

end Given

/-! ## Titles of an entity -/

theorem filter_zip_eq {α : Type} {names : List String} (nd : names.Nodup) (name : String)
    (xs : List α) : (names.zip xs).filter (fun p => p.1 = name) =
      ((names.idxOf? name).bind fun i => xs[i]?).toList.map (name, ·) := by
  induction names generalizing xs with
  | nil => rfl
  | cons x names ih =>
    rw [List.nodup_cons] at nd
    cases xs with
    | nil => cases (x :: names).idxOf? name <;> rfl
    | cons a xs =>
      rw [List.zip_cons_cons, List.idxOf?_cons]
      by_cases hx : x = name
      · have none : names.idxOf? name = none := List.idxOf?_eq_none_iff.2 (hx ▸ nd.1)
        rw [List.filter_cons_of_pos (by simpa using hx), ih nd.2, none, if_pos (by simpa using hx)]
        simp [hx]
      · rw [List.filter_cons_of_neg (by simpa using hx), ih nd.2, if_neg (by simpa using hx)]
        cases names.idxOf? name <;> simp

/-- A table gives an entity the title that stands in its row. -/
theorem titles_of_name {d : Draft} (nd : d.rowNames.Nodup) (field name : String) :
    (d.titles field).filter (fun p => p.1 = name) =
      (d.entityCell? field name).toList.map fun g => (name, g.text) := by
  unfold Draft.titles Draft.entityCell? Draft.cell?
  cases d.column? field with
  | none => cases d.rowNames.idxOf? name <;> rfl
  | some c =>
    dsimp only
    rw [filter_zip_eq nd]
    cases hi : d.rowNames.idxOf? name with
    | none => rfl
    | some i =>
      simp only [Option.bind_some, List.getElem?_map]
      cases c.cells[i]? <;> rfl

theorem lastTitle_of_given {cells : List (String × String)} {name : String} {given : List Given}
    (hc : cells.filter (fun p => p.1 = name) = given.map fun g => (name, g.text))
    (texts : ∀ g ∈ given, g.IsText) : lastTitle cells name = (lastGiven given).map Given.text := by
  have split : cells.filter (fun p => p.1 = name ∧ p.2 ≠ "") =
      (cells.filter fun p => p.1 = name).filter fun p => p.2 ≠ "" := by
    rw [List.filter_filter]
    exact List.filter_congr fun p _ => by simp [Bool.and_comm]
  have filled : given.filter ((fun p : String × String => decide (p.2 ≠ "")) ∘ fun g =>
      (name, g.text)) = given.filter fun g => !g.raw.isEmpty := by
    refine List.filter_congr fun g hg => ?_
    have iff := (texts g hg).isEmpty_iff
    cases he : g.raw.isEmpty <;> simp_all
  unfold lastTitle lastGiven
  rw [split, hc, List.filter_map, filled, List.getLast?_map, Option.map_map]
  rfl

/-- The row of an entity is that of its name, if the table gives it. -/
theorem entityCell?_of_row {d : Draft} (sound : d.Sound) (named : d.rowNames ≠ [])
    {names : List String} (first : d.rowNames <+: names) (nd : names.Nodup) {r : Nat}
    {name : String} (hr : names[r]? = some name) (field : String) :
    d.entityCell? field name = d.cell? field r := by
  obtain ⟨rest, rfl⟩ := first
  have length := sound.length_rowNames named
  unfold Draft.entityCell?
  by_cases own : r < d.rowNames.length
  · rw [List.getElem?_append_left own, List.getElem?_eq_some_iff] at hr
    obtain ⟨_, found⟩ := hr
    have place : d.rowNames.idxOf? name = some r := by
      refine List.idxOf?_eq_some_iff.2 ⟨own, found, fun j hj same => ?_⟩
      exact Nat.ne_of_lt hj ((List.Nodup.getElem_inj_iff sound.rows_nodup).1 (same.trans found.symm))
    rw [place, Option.bind_some]
  · rw [List.getElem?_append_right (by omega)] at hr
    have none : d.rowNames.idxOf? name = none := by
      refine List.idxOf?_eq_none_iff.2 fun hm => ?_
      exact (List.nodup_append.1 nd).2.2 name hm name (List.mem_of_getElem? hr) rfl
    rw [none, Option.bind_none, sound.cell?_eq_none (by omega)]

section Runs

variable {units : Units.Converter} {options : LinkOptions} {tables : List Draft}
  {predefined : Predefined} {n : Names} {a : Assembly} {d : Draft} {e : Enumeration} {r : Nat}
  {name : String}
  (linked : Linked predefined.toList tables n)
  (nd : ((tables.filter (!·.isMod)).map Draft.name).Nodup)
  (ha : (Linking.addTables ⟨units, options, n.entities⟩ n.enumerations { info := n.info }
    (modsLast tables)).result = .ok a)
  (hd : d ∈ tables) (hf : d.format = .entities) (he : n.enumerations.get? d.name = some e)
  (hr : e.names[r]? = some name)

include linked nd hd hf he in
/-- A table with an enumeration gives names to its own rows, which come first. -/
theorem names_of_row : d.rowNames ≠ [] ∧ d.rowNames <+: e.names := by
  have enumerated : d.format.isEnumerated := by rw [hf]; rfl
  rcases linked.origin d.name e he with ⟨members, hm⟩ | ⟨b, hb, hbe, named, same⟩
  · exact absurd rfl (linked.apart d hd enumerated _ hm)
  · cases eq_of_name nd hb hd (Draft.isMod_of_isEnumerated hbe)
      (Draft.isMod_of_isEnumerated enumerated) same
    obtain ⟨e', he', -, first⟩ := linked.table d hd enumerated named
    rw [he] at he'
    cases he'
    exact ⟨named, first⟩

include linked hd hf he hr in
/-- A name that stands in a row of a table is declared for no other. -/
theorem owner_of_row {o : String} (h : Declares predefined.toList tables o name) : o = d.name := by
  have enumerated : d.format.isEnumerated := by rw [hf]; rfl
  have inv := linked.inverse_of_table hd enumerated he
  obtain ⟨row, own⟩ := linked.coherent.owns_iff.2
    ⟨e, he, inv.mem_keys.2 (List.mem_of_getElem? hr)⟩
  obtain ⟨row', other⟩ := (linked.owns_iff o name).2 h
  rw [own] at other
  cases other
  rfl

include linked nd hd hf he hr in
/-- A table gives an entity a title just if it is the table of the entity or a mod of that. -/
theorem titles_of_other (sound : ∀ b ∈ tables, b.Sound)
    (noLookup : ∀ b ∈ tables, b.format ≠ .wikiLookup) (field : String) :
    ∀ b ∈ modsLast tables, b.givesTitles ≠ decide (b.subject = d.name) →
      (b.titles field).filter (fun p => p.1 = name) = [] := by
  have enumerated : d.format.isEnumerated := by rw [hf]; rfl
  have hm := Draft.isMod_of_isEnumerated enumerated
  have owner := fun {o} => owner_of_row (o := o) linked hd hf he hr
  intro b hb differ
  rw [mem_modsLast] at hb
  by_contra given
  -- a title that is given makes the table an owner of the name, and there is one owner
  have listed : name ∈ b.rowNames := by
    by_contra unlisted
    refine given ?_
    rw [titles_of_name (sound b hb).rows_nodup, Draft.entityCell?,
      List.idxOf?_eq_none_iff.2 unlisted]
    rfl
  refine differ ?_
  cases isMod : b.isMod with
  | true =>
    obtain ⟨t, ht⟩ := Draft.isMod_iff.1 isMod
    rw [Draft.subject_of_target ht, owner (.modRow hb ht listed)]
    simp [Draft.givesTitles, isMod]
  | false =>
    rw [Draft.subject_of_notMod isMod]
    by_cases hbe : b.format.isEnumerated
    · cases eq_of_name nd hb hd isMod hm (owner (.row hb hbe listed))
      simp [Draft.givesTitles, hf]
    · have other : b.name ≠ d.name := fun same => by
        cases eq_of_name nd hb hd isMod hm same
        exact hbe enumerated
      have kind := noLookup b hb
      rw [decide_eq_false other]
      cases hbf : b.format <;> simp_all [Draft.givesTitles, TableFormat.isEnumerated]

include linked nd ha hd hf he hr in
/-- Without tables of titles the titles of an entity are those that its table and the mods of it
give. -/
theorem cells_of_entity (sound : ∀ b ∈ tables, b.Sound)
    (noLookup : ∀ b ∈ tables, b.format ≠ .wikiLookup) (field : String) :
    (titleCells field tables).filter (fun p => p.1 = name) =
      (givenCells d (modsOf tables d.name) e.names field r).map fun g => (name, g.text) := by
  have enumerated : d.format.isEnumerated := by rw [hf]; rfl
  obtain ⟨named, first⟩ := names_of_row linked nd hd hf he
  have inv := linked.inverse_of_table hd enumerated he
  have others := titles_of_other linked nd hd hf he hr sound noLookup field
  rw [← flatMap_givesTitles linked nd ha field, List.filter_flatMap, flatMap_filter_congr others]
  show (about (modsLast tables) d.name).flatMap _ = _
  rw [about_modsLast_of_mem nd hd (Draft.isMod_of_isEnumerated enumerated), List.flatMap_cons,
    givenCells, List.map_append, titles_of_name (sound d hd).rows_nodup,
    entityCell?_of_row (sound d hd) named first inv.nodup hr, hr,
    List.filterMap_eq_flatMap_toList, List.map_flatMap]
  congr 1
  refine List.flatMap_congr fun m hmem => ?_
  exact titles_of_name (sound m (List.mem_filter.1 hmem).1).rows_nodup field name

/-! ## Fields of texts -/

/-- A column of titles that a run has accepted is of texts. -/
theorem type_of_wikiColumn? {l : Linking} {b : Draft} {o : Option Column} {c : Column}
    (on : l.options.enableWiki = true) (h : l.wikiColumn? b = .ok o)
    (hc : b.column? l.options.wikiField = some c) :
    c.type = ⟨.string, false⟩ ∨ c.type = ⟨.stringName, false⟩ := by
  unfold Linking.wikiColumn? at h
  rw [if_neg (by simp [on]), show b.columns.find? _ = some c from hc] at h
  dsimp only at h
  split at h
  · next type => exact type
  · cases h

theorem wikiColumn?_of_addSheet {l : Linking} {b : Draft} {a : Assembly} {p : Assembly × Nat}
    (named : b.rowNames ≠ []) (h : l.addSheet a b = .ok p) : ∃ o, l.wikiColumn? b = .ok o := by
  obtain ⟨s, -, h⟩ := bind_eq_ok.1 h
  dsimp only at h
  rw [if_pos ((Draft.isNamed_iff b).2 named)] at h
  obtain ⟨o, ho, -⟩ := bind_eq_ok.1 h
  exact ⟨o, ho⟩

include linked nd ha hd hf in
/-- The columns of titles of a table and of its mods are of texts. -/
theorem type_of_titles (on : options.enableWiki = true) (named : d.rowNames ≠ []) :
    ∀ b ∈ d :: modsOf tables d.name, ∀ c, b.column? options.wikiField = some c →
      c.type = ⟨.string, false⟩ ∨ c.type = ⟨.stringName, false⟩ := by
  have enumerated : d.format.isEnumerated := by rw [hf]; rfl
  rw [List.forall_mem_cons]
  refine ⟨fun c hc => ?_, fun m hm c hc => ?_⟩
  · obtain ⟨a₁, b, h₁, -⟩ := exists_runOf nd ha hd (Draft.isMod_of_isEnumerated enumerated)
    obtain ⟨k, hk⟩ := Linking.addSheet_of_format (.inl hf) h₁
    obtain ⟨o, ho⟩ := wikiColumn?_of_addSheet named hk
    exact type_of_wikiColumn? on ho hc
  · obtain ⟨a₁, a₂, i, hi, hif, step⟩ := exists_turn_of_mod linked nd ha hd enumerated
      (List.mem_filter.1 hm).1 (target_of_mem_modsOf m hm)
    obtain ⟨e, i', -, hi', step⟩ := Linking.addMod_eq_ok_iff.1 step
    rw [hi] at hi'
    cases hi'
    rw [if_neg (by rw [hif, hf]; decide)] at step
    obtain ⟨s, k, st, -, -, hmod, -⟩ := step
    obtain ⟨s₁, o, -, ho, -⟩ := modify_eq_ok_iff.1 hmod
    exact type_of_wikiColumn? on ho hc

/-- A cell or a default that stands in a column of texts. -/
theorem isText_of_column {b : Draft} {field : String} {c : Column} {raw : Raw} (parsed : b.Parsed)
    (hc : b.column? field = some c)
    (type : c.type = ⟨.string, false⟩ ∨ c.type = ⟨.stringName, false⟩)
    (hraw : raw = c.default ∨ raw ∈ c.cells) : (⟨b, c, raw⟩ : Given).IsText := by
  have wf := parsed.wellFormed
  have mem := ((Draft.column?_eq_some wf.fields_nodup).1 hc).1
  have column := wf.columns c mem
  obtain ⟨default, cells⟩ := parsed.isGiven c mem
  have scalar : c.type.isArray = false ∧ c.type.base.isPooled := by
    rcases type with type | type <;> rw [type] <;> exact ⟨rfl, rfl⟩
  refine ⟨type, ?_, ?_⟩
  · rcases hraw with rfl | hraw
    · exact column.default_fits.keeps_int scalar.1 scalar.2
    · exact (column.cells_fit raw hraw).keeps_int scalar.1 scalar.2
  · rcases hraw with rfl | hraw
    · exact default scalar.1 scalar.2
    · exact cells raw hraw scalar.1 scalar.2

theorem mem_of_cell? {b : Draft} {field : String} {i : Nat} {g : Given}
    (h : b.cell? field i = some g) :
    ∃ c, b.column? field = some c ∧ ∃ raw ∈ c.cells, g = ⟨b, c, raw⟩ := by
  obtain ⟨c, hc, h⟩ := Option.bind_eq_some_iff.1 h
  obtain ⟨raw, hraw, rfl⟩ := Option.map_eq_some_iff.1 h
  exact ⟨c, hc, raw, List.mem_of_getElem? hraw, rfl⟩

/-- Every given cell stands in a column of the table or of a mod. -/
theorem mem_of_givenCells {mods : List Draft} {names : List String} {field : String} {g : Given}
    (h : g ∈ givenCells d mods names field r) : ∃ b ∈ d :: mods, ∃ c, b.column? field = some c ∧
      ∃ raw ∈ c.cells, g = ⟨b, c, raw⟩ := by
  rcases List.mem_append.1 h with h | h
  · exact ⟨d, List.mem_cons_self, mem_of_cell? (Option.mem_toList.1 h)⟩
  · obtain ⟨m, hm, h⟩ := List.mem_filterMap.1 h
    obtain ⟨name, -, h⟩ := Option.bind_eq_some_iff.1 h
    obtain ⟨i, -, h⟩ := Option.bind_eq_some_iff.1 h
    exact ⟨m, List.mem_cons_of_mem _ hm, mem_of_cell? h⟩

theorem mem_of_firstDefault {drafts : List Draft} {field : String} {g : Given}
    (h : firstDefault drafts field = some g) : ∃ b ∈ drafts, ∃ c, b.column? field = some c ∧
      g = ⟨b, c, c.default⟩ := by
  obtain ⟨b, hb, h⟩ := List.exists_of_findSome?_eq_some h
  obtain ⟨c, hc, rfl⟩ := Option.map_eq_some_iff.1 h
  exact ⟨b, hb, c, hc, rfl⟩

variable (parsed : ∀ b ∈ tables, b.Parsed) (on : options.enableWiki = true)

include linked nd ha hd hf parsed on in
theorem isText_of_titles (named : d.rowNames ≠ []) {b : Draft} (hb : b ∈ d :: modsOf tables d.name)
    {c : Column} (hc : b.column? options.wikiField = some c) {raw : Raw}
    (hraw : raw = c.default ∨ raw ∈ c.cells) : (⟨b, c, raw⟩ : Given).IsText := by
  have mem : b ∈ tables := by
    rcases List.mem_cons.1 hb with rfl | hb
    · exact hd
    · exact (List.mem_filter.1 hb).1
  exact isText_of_column (parsed b mem) hc
    (type_of_titles linked nd ha hd hf on named b hb c hc) hraw

include linked nd ha hd hf he parsed on in
theorem isText_of_decidingCell {g : Given} (h : decidingCell d (modsOf tables d.name) e.names
    options.wikiField r = some g) : g.IsText := by
  have named := (names_of_row linked nd hd hf he).1
  unfold decidingCell at h
  cases given : lastGiven (givenCells d (modsOf tables d.name) e.names options.wikiField r) with
  | some g' =>
    rw [given] at h
    cases h
    obtain ⟨b, hb, c, hc, raw, hraw, rfl⟩ :=
      mem_of_givenCells (List.mem_filter.1 (List.mem_of_getLast? given)).1
    exact isText_of_titles linked nd ha hd hf parsed on named hb hc (.inr hraw)
  | none =>
    rw [given, Option.none_or] at h
    obtain ⟨b, hb, c, hc, rfl⟩ := mem_of_firstDefault h
    exact isText_of_titles linked nd ha hd hf parsed on named hb hc (.inl rfl)

include linked nd ha hd hf he hr parsed on in
/-- The title of an entity is the text of the last cell that is given for it. -/
theorem get?_wiki_of_entity (noLookup : ∀ b ∈ tables, b.format ≠ .wikiLookup) :
    a.wiki.get? name = (lastGiven (givenCells d (modsOf tables d.name) e.names options.wikiField
      r)).map Given.text := by
  have named := (names_of_row linked nd hd hf he).1
  rw [get?_wiki linked nd ha (fun b hb => (parsed b hb).wellFormed) on]
  refine lastTitle_of_given (cells_of_entity linked nd ha hd hf he hr
    (fun b hb => (parsed b hb).sound) noLookup options.wikiField) fun g hg => ?_
  obtain ⟨b, hb, c, hc, raw, hraw, rfl⟩ := mem_of_givenCells hg
  exact isText_of_titles linked nd ha hd hf parsed on named hb hc (.inr hraw)

include linked nd ha hd hf he hr parsed on in
/-- The field of titles of an entity shows the cell that decides. -/
theorem field_of_entity (apart : options.wikiField ≠ nameField) {sheet : Sheet}
    (hs : a.tables.get? d.name = some (.sheet sheet)) {f : Field}
    (hget : sheet.get? options.wikiField = some f) :
    ∃ k affix g, a.info.get? d.name = some ⟨d.format, some k, affix⟩ ∧ r < k ∧
      decidingCell d (modsOf tables d.name) e.names options.wikiField r = some g ∧
      f.values[r]? = some (.text g.shown) := by
  have sound : ∀ b ∈ tables, b.Sound := fun b hb => (parsed b hb).sound
  have shows := (shows_of_mem linked nd ha sound hd (.inl hf)).value
  rw [he, Option.map_some, Option.getD_some] at shows
  obtain ⟨sheet', k, affix, hs', hi, rows, value⟩ := shows
  rw [hs] at hs'
  cases hs'
  have lt : r < k := by
    have listed := (List.getElem?_eq_some_iff.1 hr).1
    rcases rows with ⟨none, rfl⟩ | rfl
    · have enumerated : d.format.isEnumerated := by rw [hf]; rfl
      have named := (names_of_row linked nd hd hf he).1
      rwa [linked.names_eq nd hd enumerated named none he,
        (sound d hd).length_rowNames named] at listed
    · exact listed
  obtain ⟨g, v, deciding, hv, stands⟩ := ((value options.wikiField apart).2 f hget).2 r lt
  rw [(isText_of_decidingCell linked nd ha hd hf he parsed on deciding).value] at hv
  cases hv
  exact ⟨k, affix, g, hi, lt, deciding, stands⟩

end Runs

/-- A cell of a named row, as a reader gets it. -/
theorem get_of_row {s : Store} {missing : MissingValues} {other : Value} {table field name : String}
    {k r : Nat} {rows : OrderedMap String Nat} {sheet : Sheet} {f : Field} {v : Value}
    (count : s.rowCount? table = some k) (hrows : s.rowsOf? table = some rows)
    (hrow : rows.get? name = some r) (lt : r < k) (hs : s.tables.get? table = some (.sheet sheet))
    (hf : sheet.get? field = some f) (hv : f.values[r]? = some v) :
    Access.get ⟨s, missing⟩ other table field { name := some name } = .ok v := by
  have records : Access.records ⟨s, missing⟩ table = .ok sheet := by
    unfold Access.records
    rw [hs]
  have checked : Access.checkRow table k r = .ok r := by
    unfold Access.checkRow
    rw [if_pos (by omega), Int.toNat_natCast]
  have index : Access.rowIndex ⟨s, missing⟩ table { name := some name } = .ok r := by
    unfold Access.rowIndex Access.rowCount
    rw [count, hrows]
    simp only [Option.bind_some, hrow]
    exact checked
  unfold Access.get
  refine bind_eq_ok.2 ⟨sheet, records, bind_eq_ok.2 ⟨r, index, ?_⟩⟩
  simp only [hf, Access.valueAt, hv]

/-- **Fields of titles.** In a run with titles and without tables of titles, the field of titles of
an entity shows the cell that decides, with its escapes decoded if it is a STRING. The title of the
entity is the text of that cell as it is written, and none if the cell is a default that was filled
in when a mod added the row or the field. -/
theorem link_titleField {units : Units.Converter} {options : LinkOptions} {tables : List Draft}
    {predefined : Predefined} {s : Store} (parsed : ∀ b ∈ tables, b.Parsed)
    (h : (link units options tables predefined).result = .ok s) (on : options.enableWiki = true)
    (noLookup : ∀ b ∈ tables, b.format ≠ .wikiLookup) (apart : options.wikiField ≠ nameField)
    {d : Draft} (hd : d ∈ tables) (hf : d.format = .entities) {missing : MissingValues}
    (hasField : Access.hasField ⟨s, missing⟩ d.name options.wikiField) {name : String}
    (entity : Access.hasRowName ⟨s, missing⟩ d.name name) :
    ∃ r g, (s.rowsOf? d.name).bind (fun rows => rows.get? name) = some r ∧
      decidingCell d (modsOf tables d.name) (s.namesOf d.name) options.wikiField r = some g ∧
      Access.getString ⟨s, missing⟩ d.name options.wikiField { name := some name } =
        .ok (.text g.shown) ∧
      Access.wikiTitle ⟨s, missing⟩ name =
        if (lastGiven (givenCells d (modsOf tables d.name) (s.namesOf d.name) options.wikiField
          r)).isSome then g.text else "" := by
  obtain ⟨nd, n, a, hn, ha, rfl⟩ := link_eq_ok_iff.1 h
  have linked := linkNames_linked nd hn
  have enumerated : d.format.isEnumerated := by rw [hf]; rfl
  obtain ⟨rows, hrows, hc⟩ := (Option.any_eq_true _ _).1 entity
  obtain ⟨e, he, rfl⟩ := Option.map_eq_some_iff.1 hrows
  obtain ⟨r, hrow⟩ := Option.isSome_iff_exists.1 hc
  have hr := ((linked.inverse_of_table hd enumerated he).row_iff name r).1 hrow
  obtain ⟨sheet, hsheet, hc⟩ := (Option.any_eq_true _ _).1 hasField
  obtain ⟨f, hget⟩ := Option.isSome_iff_exists.1 hc
  have hs : a.tables.get? d.name = some (.sheet sheet) := by
    unfold Store.sheet? at hsheet
    split at hsheet
    · next found =>
      cases hsheet
      exact found
    · cases hsheet
  obtain ⟨k, affix, g, hi, lt, deciding, stands⟩ :=
    field_of_entity linked nd ha hd hf he hr parsed on apart hs hget
  have title := get?_wiki_of_entity linked nd ha hd hf he hr parsed on noLookup
  simp only [Store.namesOf, Store.rowsOf?, he, Option.map_some, Option.getD_some,
    Option.bind_some]
  refine ⟨r, g, hrow, deciding, ?_, ?_⟩
  · exact get_of_row (by simp only [Store.rowCount?, hi, Option.bind_some]) hrows hrow lt hs hget
      stands
  · show a.wiki.getD name "" = _
    rw [OrderedMap.getD, title]
    unfold decidingCell at deciding
    cases given : lastGiven (givenCells d (modsOf tables d.name) e.names options.wikiField r) with
    | some g' =>
      rw [given] at deciding
      cases deciding
      rfl
    | none => rfl

/-- Notes with titles and a default for them, and a mod that adds a note without one. -/
def Draft.notes : List Draft := readAll [
  ("Note", ["@DB_ENTITIES", "note\ten.wiki", "Type\tSTRING", "Default\tUntitled", "one\tFirst\\nnote",
    "two\t"]),
  ("MoreNotes", ["@DB_ENTITIES_MOD", "@MODIFIES=Note", "note\tpages", "Type\tINT", "three\t3"])]

/-- The text of a value that is one. -/
def Value.text? : Value → Option String
  | .text t => some t
  | _ => none

theorem eq_ok_of_text? {x : Except LookupError Value} {t : String}
    (h : x.toOption.bind Value.text? = some t) : x = .ok (.text t) := by
  obtain ⟨v, hv, ht⟩ := Option.bind_eq_some_iff.1 h
  cases x with
  | error e => cases hv
  | ok w =>
    cases hv
    cases v <;> cases ht
    rfl

theorem notes_noLookup : ∀ b ∈ Draft.notes, b.format ≠ .wikiLookup := by
  have formats : Draft.notes.map Draft.format = [.entities, .entitiesMod] := by decide +kernel
  intro b hb lookup
  have listed : TableFormat.wikiLookup ∈ Draft.notes.map Draft.format :=
    lookup ▸ List.mem_map_of_mem hb
  rw [formats] at listed
  revert listed
  decide

/-- The second note has the default for its title, as its field shows it. -/
theorem notes_titleField : ∃ s d r g,
    (link {} { enableWiki := true } Draft.notes ∅).result = .ok s ∧ d ∈ Draft.notes ∧
    d.name = "Note" ∧ (s.rowsOf? d.name).bind (fun rows => rows.get? "two") = some r ∧
    decidingCell d (modsOf Draft.notes d.name) (s.namesOf d.name) "en.wiki" r = some g ∧
    Access.getString ⟨s, {}⟩ d.name "en.wiki" { name := some "two" } = .ok (.text g.shown) ∧
    Access.wikiTitle ⟨s, {}⟩ "two" = if (lastGiven (givenCells d (modsOf Draft.notes d.name)
      (s.namesOf d.name) "en.wiki" r)).isSome then g.text else "" := by
  have parsed : ∀ d ∈ Draft.notes, d.Parsed := fun d => Draft.parsed_of_mem_readAll
  have first : Draft.notes.head?.map (fun d => (d.name, d.format)) = some ("Note", .entities) := by
    decide +kernel
  have run : ((link {} { enableWiki := true } Draft.notes ∅).result.toOption.map fun s =>
      (Access.hasField ⟨s, {}⟩ "Note" "en.wiki", Access.hasRowName ⟨s, {}⟩ "Note" "two")) =
      some (true, true) := by
    decide +kernel
  obtain ⟨d, hd, hdf⟩ := Option.map_eq_some_iff.1 first
  obtain ⟨s, h, hs⟩ := toOption_map_eq_some.1 run
  rw [Prod.mk.injEq] at hdf hs
  have mem : d ∈ Draft.notes := List.mem_of_mem_head? (by rw [hd]; rfl)
  rw [← hdf.1] at hs
  obtain ⟨r, g, hr, deciding, field, title⟩ :=
    link_titleField parsed h rfl notes_noLookup (by decide) mem hdf.2 hs.1 hs.2
  exact ⟨s, d, r, g, h, mem, hdf.1, hr, deciding, field, title⟩

/-- The title of the first note keeps the escape that its field decodes; the third note shows the
default in its field and has no title. -/
theorem notes_titles_differ : ∃ s,
    (link {} { enableWiki := true } Draft.notes ∅).result = .ok s ∧
    (∀ b ∈ Draft.notes, b.format ≠ .wikiLookup) ∧
    Access.getString ⟨s, {}⟩ "Note" "en.wiki" { name := some "one" } =
      .ok (.text "First\nnote") ∧ Access.wikiTitle ⟨s, {}⟩ "one" = "First\\nnote" ∧
    Access.getString ⟨s, {}⟩ "Note" "en.wiki" { name := some "three" } =
      .ok (.text "Untitled") ∧ Access.wikiTitle ⟨s, {}⟩ "three" = "" ∧
    ∀ name ∈ ["one", "three"], Access.getString ⟨s, {}⟩ "Note" "en.wiki" { name := some name } ≠
      .ok (.text (Access.wikiTitle ⟨s, {}⟩ name)) := by
  have run : ((link {} { enableWiki := true } Draft.notes ∅).result.toOption.map fun s =>
      ["one", "three"].map fun name =>
        ((Access.getString ⟨s, {}⟩ "Note" "en.wiki" { name := some name }).toOption.bind
          Value.text?, Access.wikiTitle ⟨s, {}⟩ name)) =
      some [(some "First\nnote", "First\\nnote"), (some "Untitled", "")] := by
    decide +kernel
  obtain ⟨s, h, hs⟩ := toOption_map_eq_some.1 run
  rw [List.map_cons, List.map_singleton] at hs
  simp only [List.cons.injEq, Prod.mk.injEq, and_true] at hs
  obtain ⟨⟨one, oneTitle⟩, three, threeTitle⟩ := hs
  have one := eq_ok_of_text? one
  have three := eq_ok_of_text? three
  refine ⟨s, h, notes_noLookup, one, oneTitle, three, threeTitle, ?_⟩
  rw [List.forall_mem_cons, List.forall_mem_singleton, one, oneTitle, three, threeTitle]
  simp

end TypedTables
