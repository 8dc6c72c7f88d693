import TypedTables.Proofs.ModSteps
import TypedTables.Proofs.References
/-!
# Titles

Three kinds of tables write into the one map of titles: tables of entities, tables of titles, and
mods of tables of entities. `titleCells` lists all that they give in the order of processing; the map
holds, under each name, the last of them that is not empty.

Titles are read by nobody while a run lasts. A run without them succeeds whenever the run with them
does, and finds the same in everything else.

Results:
* `addTitles_of_kept`, `writeRows_titles`: what the rows of a table record.
* `addTable_titles`, `addTables_titles`: what a table records, and all tables.
* `Linking.addTable_untitled`: the same table without titles.
* `link_titles`: the titles of a run that succeeds, and the run without them.
-/
namespace TypedTables

/-! ## Cells of titles -/

/-- The texts of a field, each with the name of its row; a cell without one has the empty text. -/
def Draft.titles (d : Draft) (field : String) : List (String × String) :=
  match d.column? field with
  | none => []
  | some c => d.rowNames.zip (c.cells.map fun raw => (d.textOf? raw).getD "")

/-- The titles of a dataset in the order of processing: those of the named tables of entities and of
the tables of titles, then those of the mods of tables of entities. -/
def titleCells (field : String) (tables : List Draft) : List (String × String) :=
  (tables.filter fun d => d.format = .entities ∧ d.rowNames ≠ [] ∨ d.format = .wikiLookup).flatMap
      (·.titles field) ++
    (tables.filter fun m =>
      tables.any fun d => d.format = .entities ∧ m.target? = some d.name).flatMap (·.titles field)

/-- The last text that is given to a name and not empty. -/
def lastTitle (cells : List (String × String)) (name : String) : Option String :=
  (cells.filter fun p => p.1 = name ∧ p.2 ≠ "").getLast?.map Prod.snd

theorem lastTitle_cons (p : String × String) (cells : List (String × String)) (name : String) :
    lastTitle (p :: cells) name =
      (lastTitle cells name).or (if p.1 = name ∧ p.2 ≠ "" then some p.2 else none) := by
  unfold lastTitle
  by_cases hp : p.1 = name ∧ p.2 ≠ ""
  · rw [List.filter_cons_of_pos (by simpa using hp), if_pos hp, List.getLast?_cons]
    cases (cells.filter fun p => p.1 = name ∧ p.2 ≠ "").getLast? <;> rfl
  · rw [List.filter_cons_of_neg (by simpa using hp), if_neg hp, Option.or_none]

/-- The titles with further ones, without those that are empty. -/
def recordTitles (wiki : OrderedMap String String) (cells : List (String × String)) :
    OrderedMap String String :=
  wiki.insertAll (cells.filter fun p => p.2 ≠ "")

theorem recordTitles_append (wiki : OrderedMap String String) (cells cells' : List (String × String)) :
    recordTitles wiki (cells ++ cells') = recordTitles (recordTitles wiki cells) cells' := by
  unfold recordTitles OrderedMap.insertAll
  rw [List.filter_append, List.foldl_append]

theorem get?_recordTitles (wiki : OrderedMap String String) (cells : List (String × String))
    (name : String) :
    (recordTitles wiki cells).get? name = (lastTitle cells name).or (wiki.get? name) := by
  induction cells generalizing wiki with
  | nil => rfl
  | cons p cells ih =>
    have step : (recordTitles wiki [p]).get? name =
        if p.1 = name ∧ p.2 ≠ "" then some p.2 else wiki.get? name := by
      unfold recordTitles
      by_cases hp : p.2 = ""
      · rw [List.filter_cons_of_neg (by simpa using hp), if_neg fun e => e.2 hp]
        rfl
      · rw [List.filter_cons_of_pos (by simpa using hp)]
        show (wiki.insert p.1 p.2).get? name = _
        rw [OrderedMap.get?_insert]
        simp only [ne_eq, hp, not_false_eq_true, and_true]
    rw [← List.singleton_append, recordTitles_append, ih, step, List.singleton_append, lastTitle_cons]
    split
    · cases lastTitle cells name <;> rfl
    · rw [Option.or_none]

/-! ## Texts -/

/-- A pooled scalar has the form of an INT. -/
theorem Raw.Fits.keeps_int {pool : StringPool} {type : FieldType} {raw : Raw}
    (h : raw.Fits pool type) (scalar : type.isArray = false) (pooled : type.base.isPooled) :
    raw = .empty ∨ raw.Keeps pool .int := by
  cases h with
  | empty => exact .inl rfl
  | scalar _ keeps =>
    right
    generalize type.base = base at keeps pooled
    cases keeps with
    | flag => cases pooled
    | number => cases pooled
    | pooled _ hn => exact .pooled rfl hn
  | array isArray =>
    rw [scalar] at isArray
    cases isArray

/-- A cell is blank exactly if its text is empty: number 0 and no other is that of the empty text. -/
theorem Draft.textOf?_eq_empty_iff {d : Draft} {raw : Raw}
    (h : raw = .empty ∨ raw.Keeps d.pool .int) : raw.isBlank ↔ d.textOf? raw = some "" := by
  rcases h with rfl | h
  · exact iff_of_true rfl rfl
  · cases h with
    | @pooled _ n _ hn =>
      show ((n : Int) == 0) = true ↔ d.pool.strings[n]? = some ""
      rw [beq_iff_eq, Int.natCast_eq_zero, List.getElem?_eq_some_iff]
      constructor
      · rintro rfl
        exact ⟨hn, rfl⟩
      · rintro ⟨_, same⟩
        have first : d.pool.strings[0] = "" := rfl
        have nd : d.pool.strings.Nodup := d.pool.nodup
        exact (List.Nodup.getElem_inj_iff nd).1 (same.trans first.symm)

variable {l : Linking} {d : Draft} {wiki wiki' : OrderedMap String String}

/-- The text of a cell is recorded unless it is empty. -/
theorem addTitle_of_kept {raw : Raw} (h : raw = .empty ∨ raw.Keeps d.pool .int)
    (wiki : OrderedMap String String) (name : String) :
    l.addTitle d wiki name raw = .ok (recordTitles wiki [(name, (d.textOf? raw).getD "")]) := by
  obtain ⟨t, ht, text⟩ := text_of_kept (l := l) h
  have blank := Draft.textOf?_eq_empty_iff h
  rw [ht, Option.some.injEq] at blank
  rw [addTitle_eq_ok_iff, ht, Option.getD_some]
  unfold recordTitles
  split
  · next hb => rw [List.filter_cons_of_neg (by simpa using blank.1 hb)]; rfl
  · next hb =>
    rw [List.filter_cons_of_pos (by simpa using fun e => hb (blank.2 e))]
    exact ⟨t, text, rfl⟩

theorem addTitles_of_kept {named : List (String × Raw)}
    (h : ∀ p ∈ named, p.2 = .empty ∨ p.2.Keeps d.pool .int) (wiki : OrderedMap String String) :
    l.addTitles d wiki named =
      .ok (recordTitles wiki (named.map fun p => (p.1, (d.textOf? p.2).getD ""))) := by
  induction named generalizing wiki with
  | nil => rfl
  | cons p named ih =>
    rw [List.forall_mem_cons] at h
    rw [Linking.addTitles, addTitle_of_kept h.1]
    show l.addTitles d (recordTitles wiki _) named = _
    rw [ih h.2, ← recordTitles_append]
    rfl

/-! ## Columns of titles -/

/-- The titles that a run takes from a table. -/
def Linking.titles (l : Linking) (d : Draft) : List (String × String) :=
  if l.options.enableWiki then d.titles l.options.wikiField else []

theorem titles_of_wikiColumn?_none (h : l.wikiColumn? d = .ok none) : l.titles d = [] := by
  unfold Linking.wikiColumn? at h
  unfold Linking.titles
  split at h
  · next off => rw [if_neg (by simpa using off)]
  · next on =>
    rw [if_pos (by simpa using on)]
    split at h
    · next absent =>
      rw [Draft.titles, show d.column? l.options.wikiField = none from absent]
    · split at h <;> cases h

theorem column?_of_wikiColumn? {c : Column} (h : l.wikiColumn? d = .ok (some c)) :
    l.options.enableWiki = true ∧ d.column? l.options.wikiField = some c := by
  unfold Linking.wikiColumn? at h
  split at h
  · cases h
  · next on =>
    split at h
    · cases h
    · next found =>
      split at h
      · cases h
        exact ⟨by simpa using on, found⟩
      · cases h

theorem titles_of_wikiColumn? {c : Column} (h : l.wikiColumn? d = .ok (some c)) :
    l.titles d = (d.rowNames.zip c.cells).map fun p => (p.1, (d.textOf? p.2).getD "") := by
  obtain ⟨on, found⟩ := column?_of_wikiColumn? h
  rw [Linking.titles, if_pos on, Draft.titles, found]
  dsimp only
  rw [List.zip_map_right]
  rfl

theorem Draft.titles_of_unnamed {d : Draft} (h : d.rowNames = []) (field : String) :
    d.titles field = [] := by
  unfold titles
  rw [h]
  split <;> rfl

theorem Draft.titles_of_columns_nil {d : Draft} (h : d.columns = []) (field : String) :
    d.titles field = [] := by
  unfold titles column?
  rw [h]
  rfl

theorem titles_of_nil (l : Linking) (h : ∀ field, d.titles field = []) : l.titles d = [] := by
  unfold Linking.titles
  rw [h, ite_self]

section Steps

variable {enumerations : OrderedMap String Enumeration} {a a' : Assembly} (wf : d.WellFormed)
include wf

theorem keeps_of_wikiColumn? {c : Column} (h : l.wikiColumn? d = .ok (some c)) :
    ∀ raw ∈ c.cells, raw = .empty ∨ raw.Keeps d.pool .int := by
  obtain ⟨mem, scalar, pooled⟩ := wikiColumn?_eq_ok h
  exact fun raw hraw => ((wf.columns c mem).cells_fit raw hraw).keeps_int scalar pooled

/-! ## Base tables -/

theorem addTitles_of_wikiColumn? {c : Column} {named : List (String × Raw)}
    (hc : l.wikiColumn? d = .ok (some c)) (hn : zipEven d.rowNames c.cells = .ok named)
    (wiki : OrderedMap String String) :
    l.addTitles d wiki named = .ok (recordTitles wiki (l.titles d)) := by
  rw [zip_of_zipEven hn, titles_of_wikiColumn? hc]
  exact addTitles_of_kept (fun p hp => keeps_of_wikiColumn? wf hc p.2 (List.of_mem_zip hp).2) wiki

theorem addSheet_titles {k : Nat} (h : l.addSheet a d = .ok (a', k)) :
    a'.wiki = recordTitles a.wiki (l.titles d) := by
  obtain ⟨s, -, h⟩ := bind_eq_ok.1 h
  dsimp only at h
  split at h
  · obtain ⟨column, hc, h⟩ := bind_eq_ok.1 h
    cases column with
    | none =>
      cases h
      rw [titles_of_wikiColumn?_none hc]
      rfl
    | some c =>
      obtain ⟨named, hn, h⟩ := bind_eq_ok.1 h
      rw [addTitles_of_wikiColumn? wf hc hn] at h
      cases h
      rfl
  · next unnamed =>
    cases h
    rw [titles_of_nil l (Draft.titles_of_unnamed (by simpa [Draft.isNamed_iff] using unnamed))]
    rfl

theorem addWikiLookup_titles (h : l.addWikiLookup a d = .ok a') :
    a'.wiki = recordTitles a.wiki (l.titles d) := by
  unfold Linking.addWikiLookup at h
  dsimp only at h
  split at h
  · next off =>
    cases h
    rw [Linking.titles, if_neg (by simpa using off)]
    rfl
  · obtain ⟨column, hc, h⟩ := bind_eq_ok.1 h
    cases column with
    | none => cases h
    | some c =>
      obtain ⟨named, hn, h⟩ := bind_eq_ok.1 h
      rw [addTitles_of_wikiColumn? wf hc hn] at h
      cases h
      rfl

end Steps

/-! ## Mods -/

section Mods

variable {name : String} {row : Nat} {st st' : Sheet × OrderedMap String String} {c : Column}

theorem writeRow_titles {cells : List (Column × Raw)}
    (kept : ∀ g ∈ cellsOf d c.name cells, g.raw = .empty ∨ g.raw.Keeps d.pool .int)
    (h : l.writeRow d (some c) name row st cells = .ok st') :
    st'.2 = recordTitles st.2
      ((cellsOf d c.name cells).map fun g => (name, (d.textOf? g.raw).getD "")) := by
  induction cells generalizing st with
  | nil =>
    cases h
    rfl
  | cons p cells ih =>
    obtain ⟨s, wiki, -, ht, h⟩ := writeRow_cons_eq_ok.1 h
    simp only [Option.any_some, beq_iff_eq] at ht
    by_cases titled : p.1.name = c.name
    · have given : cellsOf d c.name (p :: cells) = ⟨d, p.1, p.2⟩ :: cellsOf d c.name cells := by
        simp [cellsOf, titled]
      rw [given] at kept ⊢
      rw [List.forall_mem_cons] at kept
      rw [if_pos titled.symm, addTitle_of_kept kept.1] at ht
      cases ht
      rw [ih kept.2 h, List.map_cons]
      exact (recordTitles_append st.2 [_] _).symm
    · have other : cellsOf d c.name (p :: cells) = cellsOf d c.name cells := by
        simp [cellsOf, titled]
      rw [other] at kept ⊢
      rw [if_neg (Ne.symm titled)] at ht
      rw [ih kept h, ht]

theorem writeRow_none {cells : List (Column × Raw)}
    (h : l.writeRow d none name row st cells = .ok st') : st'.2 = st.2 := by
  induction cells generalizing st with
  | nil =>
    cases h
    rfl
  | cons p cells ih =>
    obtain ⟨s, wiki, -, ht, h⟩ := writeRow_cons_eq_ok.1 h
    exact (ih h).trans ht

/-- The rows of a mod with the cells of one column of it, as far as there are any. -/
theorem flatMap_zipIdx_cells {α : Type} (names : List String) (cells : List α) (k : Nat) :
    ((names.zipIdx k).flatMap fun r => (cells[r.2]?.map (r.1, ·)).toList) =
      names.zip (cells.drop k) := by
  induction names generalizing k with
  | nil => rfl
  | cons name names ih =>
    rw [List.zipIdx_cons, List.flatMap_cons, ih]
    by_cases hk : k < cells.length
    · rw [List.drop_eq_getElem_cons hk, List.getElem?_eq_getElem hk]
      rfl
    · rw [List.drop_eq_nil_of_le (by omega), List.drop_eq_nil_of_le (by omega),
        List.getElem?_eq_none (by omega)]
      simp

theorem writeRows_titles {t : Target} {rows : List (String × Nat)}
    (fields : (d.columns.map Column.name).Nodup) (hc : d.column? c.name = some c)
    (kept : ∀ raw ∈ c.cells, raw = .empty ∨ raw.Keeps d.pool .int)
    (h : l.writeRows d t (some c) st rows = .ok st') :
    st'.2 = recordTitles st.2 ((rows.flatMap fun r => (c.cells[r.2]?.map (r.1, ·)).toList).map
      fun p => (p.1, (d.textOf? p.2).getD "")) := by
  induction rows generalizing st with
  | nil =>
    cases h
    rfl
  | cons r rows ih =>
    obtain ⟨row, cells, st₁, -, hcells, h₁, h⟩ := writeRows_cons_eq_ok.1 h
    have given : cellsOf d c.name cells = (c.cells[r.2]?.map fun raw => ⟨d, c, raw⟩).toList := by
      rw [cellsOf_cellsAt fields hcells, Draft.cell?, hc]
      rfl
    have first : st₁.2 = recordTitles st.2 ((c.cells[r.2]?.map (r.1, ·)).toList.map
        fun p => (p.1, (d.textOf? p.2).getD "")) := by
      rw [writeRow_titles (fun g hg => ?_) h₁, given]
      · cases c.cells[r.2]? <;> rfl
      · rw [given, Option.mem_toList, Option.map_eq_some_iff] at hg
        obtain ⟨raw, hraw, rfl⟩ := hg
        exact kept raw (List.mem_of_getElem? hraw)
    rw [ih h, first, ← recordTitles_append, List.flatMap_cons, List.map_append]

theorem writeRows_none {t : Target} {rows : List (String × Nat)}
    (h : l.writeRows d t none st rows = .ok st') : st'.2 = st.2 := by
  induction rows generalizing st with
  | nil =>
    cases h
    rfl
  | cons r rows ih =>
    obtain ⟨row, cells, st₁, -, -, h₁, h⟩ := writeRows_cons_eq_ok.1 h
    exact (ih h).trans (writeRow_none h₁)

theorem modify_titles (wf : d.WellFormed) {t : Target} {s : Sheet}
    (h : l.modify d t s wiki = .ok st') : st'.2 = recordTitles wiki (l.titles d) := by
  obtain ⟨s₁, title, -, ht, h⟩ := modify_eq_ok_iff.1 h
  cases title with
  | none =>
    rw [titles_of_wikiColumn?_none ht]
    exact writeRows_none h
  | some c =>
    obtain ⟨-, found⟩ := column?_of_wikiColumn? ht
    have named : c.name = l.options.wikiField :=
      ((Draft.column?_eq_some wf.fields_nodup).1 found).2
    rw [writeRows_titles wf.fields_nodup (named ▸ found) (keeps_of_wikiColumn? wf ht) h,
      flatMap_zipIdx_cells, List.drop_zero, titles_of_wikiColumn? ht]

end Mods

/-! ## Tables -/

/-- Tables of these kinds are asked for titles. -/
def Draft.givesTitles (d : Draft) : Bool :=
  d.format = .entities ∨ d.format = .wikiLookup ∨ d.isMod

section Tables

variable {enumerations : OrderedMap String Enumeration} {a a' : Assembly}

theorem addMod_titles (wf : d.WellFormed) {target : String}
    (h : l.addMod enumerations a d target = .ok a') :
    a'.wiki = recordTitles a.wiki (l.titles d) := by
  obtain ⟨e, info, -, -, h⟩ := Linking.addMod_eq_ok_iff.1 h
  split at h
  · obtain ⟨none, rfl⟩ := h
    rw [titles_of_nil l (Draft.titles_of_columns_nil none)]
    rfl
  · obtain ⟨s, n, st, -, -, hm, rfl⟩ := h
    exact modify_titles wf hm

/-- **The titles of a table.** -/
theorem addTable_titles (wf : d.WellFormed) (h : (l.addTable enumerations a d).result = .ok a') :
    a'.wiki = recordTitles a.wiki (if d.givesTitles then l.titles d else []) := by
  have turn := Linking.addTable_eq_ok h
  have silent : ∀ wiki, recordTitles wiki [] = wiki := fun _ => rfl
  unfold Draft.givesTitles Draft.isMod Draft.format
  cases hc : d.content with
  | grid g =>
    rw [hc] at turn
    obtain ⟨v, hv⟩ := turn
    obtain ⟨_, -, hv⟩ := bind_eq_ok.1 hv
    cases hv
    rfl
  | records kind columns =>
    rw [hc] at turn
    cases kind with
    | entities =>
      obtain ⟨k, hk⟩ := turn
      exact addSheet_titles wf hk
    | anonymous =>
      obtain ⟨k, hk⟩ := turn
      have unnamed : d.rowNames = [] := wf.rows_anonymous (by rw [Draft.format, hc]; rfl)
      rw [addSheet_titles wf hk, titles_of_nil l (Draft.titles_of_unnamed unnamed)]
      rfl
    | mod target => exact addMod_titles wf turn
    | wikiLookup => exact addWikiLookup_titles wf turn
    | enumeration => rw [turn]; rfl

theorem addTables_titles {tables : List Draft} (wf : ∀ d ∈ tables, d.WellFormed)
    (h : (l.addTables enumerations a tables).result = .ok a') :
    a'.wiki = recordTitles a.wiki ((tables.filter Draft.givesTitles).flatMap l.titles) := by
  induction tables generalizing a with
  | nil =>
    cases h
    rfl
  | cons d tables ih =>
    rw [List.forall_mem_cons] at wf
    obtain ⟨a₁, h₁, h⟩ := Linking.addTables_cons_eq_ok.1 h
    rw [ih wf.2 h, addTable_titles wf.1 h₁, ← recordTitles_append]
    cases gives : d.givesTitles with
    | true => rw [List.filter_cons_of_pos gives, List.flatMap_cons]; rfl
    | false => rw [List.filter_cons_of_neg (by simp [gives])]; rfl

end Tables

/-! ## Without titles -/

namespace Linking

/-- The linking of the run without titles. -/
def untitled (l : Linking) : Linking := { l with options := { l.options with enableWiki := false } }

variable {st st' : Sheet × OrderedMap String String} {title : Option Column} {name : String}
  {row : Nat} {t : Target}

theorem writeRow_untitled {cells : List (Column × Raw)}
    (h : l.writeRow d title name row st cells = .ok st') (wiki : OrderedMap String String) :
    l.untitled.writeRow d none name row (st.1, wiki) cells = .ok (st'.1, wiki) := by
  induction cells generalizing st with
  | nil =>
    cases h
    rfl
  | cons p cells ih =>
    obtain ⟨s, _, hs, -, h⟩ := writeRow_cons_eq_ok.1 h
    exact writeRow_cons_eq_ok.2 ⟨s, wiki, hs, rfl, ih h⟩

theorem writeRows_untitled {rows : List (String × Nat)}
    (h : l.writeRows d t title st rows = .ok st') (wiki : OrderedMap String String) :
    l.untitled.writeRows d t none (st.1, wiki) rows = .ok (st'.1, wiki) := by
  induction rows generalizing st with
  | nil =>
    cases h
    rfl
  | cons r rows ih =>
    obtain ⟨row, cells, st₁, hrow, hcells, h₁, h⟩ := writeRows_cons_eq_ok.1 h
    exact writeRows_cons_eq_ok.2
      ⟨row, cells, (st₁.1, wiki), hrow, hcells, writeRow_untitled h₁ wiki, ih h⟩

theorem modify_untitled {s : Sheet} (h : l.modify d t s wiki = .ok st')
    (wiki' : OrderedMap String String) :
    l.untitled.modify d t s wiki' = .ok (st'.1, wiki') := by
  obtain ⟨s₁, title, h₁, -, hw⟩ := modify_eq_ok_iff.1 h
  exact modify_eq_ok_iff.2 ⟨s₁, none, h₁, rfl, writeRows_untitled hw wiki'⟩

variable {enumerations : OrderedMap String Enumeration} {a a' : Assembly}

theorem addSheet_untitled {k : Nat} (h : l.addSheet a d = .ok (a', k))
    (wiki : OrderedMap String String) :
    ∃ k', l.untitled.addSheet { a with wiki } d = .ok ({ a' with wiki }, k') := by
  obtain ⟨s, hs, tables, info⟩ := addSheet_eq_ok h
  refine ⟨s.size, bind_eq_ok.2 ⟨s, hs, ?_⟩⟩
  rw [tables, info]
  dsimp only
  split <;> rfl

theorem addWikiLookup_untitled (h : l.addWikiLookup a d = .ok a')
    (wiki : OrderedMap String String) :
    l.untitled.addWikiLookup { a with wiki } d = .ok { a' with wiki } := by
  obtain ⟨tables, info⟩ := addWikiLookup_eq_ok h
  rw [tables, info]
  rfl

theorem addMod_untitled {target : String} (h : l.addMod enumerations a d target = .ok a')
    (wiki : OrderedMap String String) :
    l.untitled.addMod enumerations { a with wiki } d target = .ok { a' with wiki } := by
  obtain ⟨e, info, he, hi, h⟩ := addMod_eq_ok_iff.1 h
  refine addMod_eq_ok_iff.2 ⟨e, info, he, hi, ?_⟩
  split at h
  · next enumeration =>
    obtain ⟨none, rfl⟩ := h
    rw [if_pos enumeration]
    exact ⟨none, rfl⟩
  · next entities =>
    obtain ⟨s, n, st, hs, hn, hm, rfl⟩ := h
    rw [if_neg entities]
    exact ⟨s, n, _, hs, hn, modify_untitled hm wiki, rfl⟩

theorem addTable_untitled (h : (l.addTable enumerations a d).result = .ok a')
    (wiki : OrderedMap String String) :
    (l.untitled.addTable enumerations { a with wiki } d).result = .ok { a' with wiki } := by
  have turn := addTable_eq_ok h
  rw [result_addTable]
  cases hc : d.content with
  | grid g =>
    rw [hc] at turn
    obtain ⟨v, hv⟩ := turn
    obtain ⟨_, resolved, hv⟩ := bind_eq_ok.1 hv
    cases hv
    rw [← l.grid_withOptions l.untitled.options] at resolved
    exact map_eq_ok.2 ⟨_, bind_eq_ok.2 ⟨v, resolved, rfl⟩, rfl⟩
  | records kind columns =>
    rw [hc] at turn
    cases kind with
    | entities | anonymous =>
      obtain ⟨k, hk⟩ := turn
      obtain ⟨k', hk'⟩ := addSheet_untitled hk wiki
      exact map_eq_ok.2 ⟨_, hk', rfl⟩
    | mod target => exact addMod_untitled turn wiki
    | wikiLookup => exact addWikiLookup_untitled turn wiki
    | enumeration => rw [turn]

theorem addTables_untitled {tables : List Draft}
    (h : (l.addTables enumerations a tables).result = .ok a') (wiki : OrderedMap String String) :
    (l.untitled.addTables enumerations { a with wiki } tables).result = .ok { a' with wiki } := by
  induction tables generalizing a with
  | nil =>
    cases h
    rfl
  | cons d tables ih =>
    obtain ⟨a₁, h₁, h⟩ := addTables_cons_eq_ok.1 h
    exact addTables_cons_eq_ok.2 ⟨{ a₁ with wiki }, addTable_untitled h₁ wiki, ih h⟩

end Linking

/-! ## Runs -/

theorem flatMap_filter_congr {α β : Type} {p q : α → Bool} {f : α → List β} {xs : List α}
    (h : ∀ x ∈ xs, p x ≠ q x → f x = []) : (xs.filter p).flatMap f = (xs.filter q).flatMap f := by
  induction xs with
  | nil => rfl
  | cons x xs ih =>
    rw [List.forall_mem_cons] at h
    have rest := ih h.2
    cases hp : p x <;> cases hq : q x <;> simp_all

section Runs

variable {units : Units.Converter} {options : LinkOptions} {tables : List Draft}
  {predefined : Predefined} {n : Names} {a : Assembly}
  (linked : Linked predefined.toList tables n)
  (nd : ((tables.filter (!·.isMod)).map Draft.name).Nodup)
  (ha : (Linking.addTables ⟨units, options, n.entities⟩ n.enumerations { info := n.info }
    (modsLast tables)).result = .ok a)
include linked nd ha

/-- A mod of an enumeration has no fields. -/
theorem columns_of_enumeration_mod {b m : Draft} (hb : b ∈ tables) (hf : b.format = .enumeration)
    (hm : m ∈ tables) (ht : m.target? = some b.name) : m.columns = [] := by
  obtain ⟨a₁, a₂, i, hi, hif, step⟩ :=
    exists_turn_of_mod linked nd ha hb (by rw [hf]; rfl) hm ht
  obtain ⟨e, i', -, hi', step⟩ := Linking.addMod_eq_ok_iff.1 step
  rw [hi] at hi'
  cases hi'
  rw [if_pos (hif.trans hf)] at step
  exact step.1

/-- The tables that give titles, in the order of processing, are those of `titleCells`. -/
theorem flatMap_givesTitles (field : String) :
    ((modsLast tables).filter Draft.givesTitles).flatMap (·.titles field) =
      titleCells field tables := by
  rw [modsLast, List.filter_append, List.flatMap_append, titleCells]
  congr 1
  · rw [List.filter_filter]
    refine flatMap_filter_congr fun d _ differ => ?_
    by_cases named : d.rowNames = []
    · exact Draft.titles_of_unnamed named field
    · refine absurd ?_ differ
      rw [Bool.eq_iff_iff]
      cases hf : d.format <;> simp [Draft.givesTitles, Draft.isMod, hf, named]
  · rw [List.filter_filter]
    refine flatMap_filter_congr fun m hm differ => ?_
    cases isMod : m.isMod with
    | false =>
      refine absurd ?_ differ
      simp [Draft.target?_eq_none isMod, isMod]
    | true =>
      obtain ⟨t, ht⟩ := Draft.isMod_iff.1 isMod
      obtain ⟨b, hb, enumerated, -, rfl⟩ := linked.target m hm t ht
      have other : b.format ≠ .entities := by
        intro entities
        refine differ ?_
        rw [Bool.eq_iff_iff]
        refine iff_of_true (by simp [Draft.givesTitles, isMod]) ?_
        exact List.any_eq_true.2 ⟨b, hb, by simp [entities, ht]⟩
      have enumeration : b.format = .enumeration := by
        cases hf : b.format <;> simp_all [TableFormat.isEnumerated]
      exact Draft.titles_of_columns_nil
        (columns_of_enumeration_mod linked nd ha hb enumeration hm ht) field

/-- Under a name stands the last title that is given to it and not empty. -/
theorem get?_wiki (wf : ∀ d ∈ tables, d.WellFormed) (on : options.enableWiki = true)
    (name : String) : a.wiki.get? name = lastTitle (titleCells options.wikiField tables) name := by
  have recorded := addTables_titles (fun d hd => wf d (mem_modsLast.1 hd)) ha
  have all : (Linking.mk units options n.entities).titles = (·.titles options.wikiField) := by
    funext d
    exact if_pos on
  rw [all, flatMap_givesTitles linked nd ha] at recorded
  rw [recorded, get?_recordTitles]
  exact Option.or_none

end Runs

/-- **Titles.** A run without titles records none. A run with titles records under a name the last
text that is given to it and not empty, and nothing if there is none; the same run without titles
succeeds too, and its store is the same in everything else. -/
theorem link_titles {units : Units.Converter} {options : LinkOptions} {tables : List Draft}
    {predefined : Predefined} {s : Store} (parsed : ∀ d ∈ tables, d.Parsed)
    (h : (link units options tables predefined).result = .ok s) :
    (options.enableWiki = false → s.wiki = ∅) ∧
    (options.enableWiki = true →
      (∀ name, s.wiki.get? name = lastTitle (titleCells options.wikiField tables) name) ∧
      (link units { options with enableWiki := false } tables predefined).result =
        .ok { s with wiki := ∅ }) := by
  obtain ⟨nd, n, a, hn, ha, rfl⟩ := link_eq_ok_iff.1 h
  have linked := linkNames_linked nd hn
  have wf : ∀ d ∈ tables, d.WellFormed := fun d hd => (parsed d hd).wellFormed
  refine ⟨fun off => ?_, fun on => ⟨get?_wiki linked nd ha wf on, ?_⟩⟩
  · have recorded := addTables_titles (fun d hd => wf d (mem_modsLast.1 hd)) ha
    have none : (Linking.mk units options n.entities).titles = fun _ => [] := by
      funext d
      exact if_neg (by simp [off])
    rw [none, List.flatMap_eq_nil_iff.2 fun _ _ => rfl] at recorded
    exact recorded
  · have untitled := Linking.addTables_untitled ha ∅
    exact link_eq_ok_iff.2 ⟨nd, n, _, hn, untitled, rfl⟩

/-- Birds, titles for them, and a mod that gives one of them another. -/
def Draft.birds : List Draft := readAll [
  ("MoreBirds", ["@DB_ENTITIES_MOD", "@MODIFIES=Bird", "bird\ten.wiki", "Type\tSTRING", "owl\tStrix",
    "wren\t", "crow\tCrow"]),
  ("Bird", ["@DB_ENTITIES", "bird\ten.wiki", "Type\tSTRING", "wren\tWren", "owl\t"]),
  ("Titles", ["@WIKI_LOOKUP", "bird\ten.wiki", "Type\tSTRING", "owl\tOwl", "kite\tKite"])]

/-- The mod comes last, though it stands first; its empty cell leaves the wren its title. -/
theorem birds_titles : ∃ s, (link {} { enableWiki := true } Draft.birds ∅).result = .ok s ∧
    titleCells "en.wiki" Draft.birds = [("wren", "Wren"), ("owl", ""), ("owl", "Owl"),
      ("kite", "Kite"), ("owl", "Strix"), ("wren", ""), ("crow", "Crow")] ∧
    s.wiki.get? "owl" = lastTitle (titleCells "en.wiki" Draft.birds) "owl" ∧
    (link {} {} Draft.birds ∅).result = .ok { s with wiki := ∅ } := by
  have run : ((link {} { enableWiki := true } Draft.birds ∅).result.toOption.map fun _ => ()) =
      some () := by
    decide +kernel
  obtain ⟨s, h, -⟩ := toOption_map_eq_some.1 run
  obtain ⟨titles, untitled⟩ := (link_titles (fun d => Draft.parsed_of_mem_readAll) h).2 rfl
  exact ⟨s, h, by decide +kernel, titles "owl", untitled⟩

end TypedTables
