import TypedTables.Proofs.KeptTexts
import TypedTables.Proofs.LayoutEdits
/-!
# Exchanged grids

A grid can be written down with its rows as columns: the directive for it exchanges rows and
columns, with their prefixes, before anything is checked or read. So the same table comes from the
content that is exchanged already, without the directive. Content with an empty column has no source
of its exchanged content, where a line for it would not be a row; of such content only outlines can
be compared.

Results:
* `GridContent.cell_exchanged`: what it is to exchange the content of a grid.
* `GridContent.readLayout_eq`, `GridContent.transposed_layout`: the layout of a content, and of the
  exchanged one.
* `readGrid_exchanged`, `ofOutline_exchanged`: the two ways to write down a grid.
* `TransposedSource.parse_iff`, `exchange_iff`: sources with the directive and without.
-/
namespace TypedTables

open TypedTables.Text (cutAt)

/-! ## The content of a grid -/

/-- Nothing moves if nothing is left out. -/
theorem getElem?_filterMap_of_isSome {α β : Type} {f : α → Option β} {l : List α}
    (h : ∀ a ∈ l, (f a).isSome) (i : Nat) : (l.filterMap f)[i]? = l[i]?.bind f := by
  have given := congrArg (·[i]?) (map_eq_map_some_iff.2 ⟨h, rfl⟩)
  simp only [List.getElem?_map] at given
  cases hl : l[i]? with
  | none =>
    rw [hl, Option.map_none, eq_comm, Option.map_eq_none_iff] at given
    exact given
  | some a =>
    rw [hl, Option.map_some, eq_comm, Option.map_eq_some_iff] at given
    obtain ⟨b, hb, e⟩ := given
    rw [hb, Option.bind_some, e]

/-- The content of a grid without blanks and comments: column names after a corner, then rows that
start with their names, all of one width. -/
structure GridContent where
  /-- the prefixes of the row names and of the column names, if the corner is not empty -/
  affixes : Option (String × String)
  columnNames : List String
  rows : List (String × List String)
  plain : ∀ p ∈ affixes, '\\' ∉ p.1.toList ∧ '\\' ∉ p.2.toList
  even : ∀ r ∈ rows, r.2.length = columnNames.length

namespace GridContent

/-- The corner is empty or has one backslash. -/
def corner (c : GridContent) : String :=
  match c.affixes with
  | none => ""
  | some (row, column) => row ++ "\\" ++ column

/-- The rows of cells, the names among them. -/
def lines (c : GridContent) : List (List String) :=
  (c.corner :: c.columnNames) :: c.rows.map fun r => r.1 :: r.2

/-- The cell of a row and a column, counted without the names. -/
def cell? (c : GridContent) (i j : Nat) : Option String := c.rows[i]?.bind (·.2[j]?)

/-- The content with rows and columns exchanged. -/
def exchanged (c : GridContent) : GridContent where
  affixes := c.affixes.map Prod.swap
  columnNames := c.rows.map Prod.fst
  rows := c.columnNames.zip (transpose c.columnNames.length (c.rows.map Prod.snd))
  plain p hp := by
    obtain ⟨q, hq, rfl⟩ := Option.map_eq_some_iff.1 hp
    exact (c.plain q hq).symm
  even r hr := by
    obtain ⟨j, hj, rfl⟩ := List.mem_iff_getElem.1 hr
    simp only [List.length_zip, transpose, List.length_map, List.length_range, Nat.min_self] at hj
    simp only [List.getElem_zip, transpose, List.getElem_map, List.getElem_range,
      List.filterMap_map, List.length_map]
    refine List.filterMap_length_eq_length.2 fun r hr => ?_
    simp [c.even r hr, hj]

/-- **Exchange.** Each cell stands in the row of its column. -/
theorem cell_exchanged (c : GridContent) (i j : Nat) : c.exchanged.cell? j i = c.cell? i j := by
  have width : ∀ cells ∈ c.rows.map Prod.snd, cells.length = c.columnNames.length :=
    List.forall_mem_map.2 c.even
  have row : c.cell? i j = (c.rows.map Prod.snd)[i]?.bind (·[j]?) := by
    rw [cell?, List.getElem?_map, Option.bind_map]
    rfl
  rw [row, cell?, exchanged]
  dsimp only
  by_cases hj : j < c.columnNames.length
  · have column : (c.columnNames.zip (transpose c.columnNames.length (c.rows.map Prod.snd)))[j]? =
        some (c.columnNames[j], (c.rows.map Prod.snd).filterMap (·[j]?)) :=
      List.getElem?_zip_eq_some.2 ⟨List.getElem?_eq_getElem hj, by simp [transpose, hj]⟩
    rw [column, Option.bind_some]
    refine getElem?_filterMap_of_isSome (fun cells hc => ?_) i
    simpa [width cells hc] using hj
  · have none : (c.columnNames.zip (transpose c.columnNames.length (c.rows.map Prod.snd)))[j]? =
        none := by
      rw [List.getElem?_eq_none_iff, List.length_zip]
      omega
    rw [none, Option.bind_none, eq_comm, Option.bind_eq_none_iff]
    intro cells hc
    rw [List.getElem?_eq_none_iff, width cells (List.mem_of_getElem? hc)]
    exact Nat.le_of_not_lt hj

end GridContent

/-! ## Layouts -/

theorem cutAt_append (sep : Char) {before : List Char} (h : sep ∉ before) (after : List Char) :
    cutAt sep (before ++ sep :: after) = (before, some after) := by
  induction before with
  | nil => rw [List.nil_append, cutAt, if_pos rfl]
  | cons c before ih =>
    rw [List.mem_cons, not_or] at h
    rw [List.cons_append, cutAt, if_neg (Ne.symm h.1), ih h.2]

/-- Rows apart in their names and the cells after them. -/
theorem parts_of_cells {rows : List Row} {named : List (String × List String)}
    (h : rows.map Row.cells = named.map fun r => r.1 :: r.2) :
    rows.map Row.head = named.map Prod.fst ∧ rows.map Row.rest = named.map Prod.snd := by
  rw [← List.forall₂_eq_eq_eq, List.forall₂_map_left_iff, List.forall₂_map_right_iff] at h
  exact ⟨(map_eq_of_forall₂ h fun _ _ e => (Row.head_rest e).1.symm).symm,
    (map_eq_of_forall₂ h fun _ _ e => (Row.head_rest e).2.symm).symm⟩

namespace GridContent

/-- How the content stands, if these are the lines to blame. -/
def layout (c : GridContent) (lines : List Nat) : Layout where
  rowAffix := (c.affixes.getD ("", "")).1
  columnAffix := (c.affixes.getD ("", "")).2
  rowNames := c.rows.map Prod.fst
  columnNames := c.columnNames
  cells := c.rows.map Prod.snd
  lines

theorem readCorner_eq (c : GridContent) (line : Nat) :
    readCorner line c.corner = .ok (c.affixes.getD ("", "")) := by
  unfold readCorner corner
  cases h : c.affixes with
  | none => rfl
  | some p =>
    obtain ⟨row, column⟩ := p
    have texts : (row ++ "\\" ++ column).toList = row.toList ++ '\\' :: column.toList := by
      simp [String.toList_append]
    have given : row ++ "\\" ++ column ≠ "" := by
      intro e
      rw [e] at texts
      simp at texts
    dsimp only
    rw [if_neg given, texts, cutAt_append _ (c.plain _ h).1]
    dsimp only
    rw [String.ofList_toList, String.ofList_toList]
    rfl

/-- The layout of the rows of a content. -/
theorem readLayout_eq (c : GridContent) {header : Row} {rows : List Row}
    (h : (header :: rows).map Row.cells = c.lines) :
    readLayout header rows = .ok (c.layout (rows.map Row.line)) := by
  rw [List.map_cons, lines, List.cons.injEq] at h
  obtain ⟨hheader, hrows⟩ := h
  obtain ⟨hhead, hrest⟩ := Row.head_rest hheader
  obtain ⟨heads, rests⟩ := parts_of_cells hrows
  unfold readLayout
  rw [hhead, hrest, heads, rests, c.readCorner_eq]
  rfl

/-- Exchanged in the layout or in the content, it is the same. -/
theorem transposed_layout (c : GridContent) (some : c.rows ≠ []) (lines : List Nat) (line : Nat) :
    (c.layout lines).transposed line =
      .ok (c.exchanged.layout (c.columnNames.map fun _ => line)) := by
  have width : ((c.rows.map Prod.snd).head?.map List.length).getD 0 = c.columnNames.length := by
    obtain ⟨r, rows, hr⟩ := List.exists_cons_of_ne_nil some
    rw [hr, List.map_cons, List.head?_cons, Option.map_some, Option.getD_some]
    exact c.even r (hr ▸ List.mem_cons_self)
  have square : exchange (c.rows.map Prod.snd) =
      .ok (transpose c.columnNames.length (c.rows.map Prod.snd)) := by
    unfold exchange
    dsimp only
    rw [width, if_pos]
    rw [List.all_eq_true, List.forall_mem_map]
    exact fun r hr => beq_iff_eq.2 (c.even r hr)
  have length : (transpose c.columnNames.length (c.rows.map Prod.snd)).length =
      c.columnNames.length := by simp [transpose]
  unfold Layout.transposed layout exchanged
  dsimp only
  rw [square, List.map_fst_zip length.ge, List.map_snd_zip length.le]
  cases c.affixes <;> rfl

end GridContent

/-! ## Grids -/

theorem readGrid_cons_iff {directives : OrderedMap Directive String} {header : Row}
    {rows : List Row} {p p' : StringPool} {answer : List String × Grid} :
    readGrid directives (header :: rows) p = .ok (answer, p') ↔
      ∃ l l', readLayout header rows = .ok l ∧ orientLayout directives header.line l = .ok l' ∧
        readLaidOut directives header.line l' p = .ok (answer, p') := by
  unfold readGrid
  dsimp only
  constructor
  · intro h
    obtain ⟨l, _, read, h⟩ := interning_bind_eq_ok.1 h
    obtain ⟨hl, rfl⟩ := interning_lift_eq_ok.1 read
    obtain ⟨l', _, oriented, h⟩ := interning_bind_eq_ok.1 h
    obtain ⟨ho, rfl⟩ := interning_lift_eq_ok.1 oriented
    exact ⟨l, l', hl, ho, h⟩
  · rintro ⟨l, l', hl, ho, h⟩
    exact interning_bind_eq_ok.2 ⟨l, p, interning_lift_eq_ok.2 ⟨hl, rfl⟩,
      interning_bind_eq_ok.2 ⟨l', p, interning_lift_eq_ok.2 ⟨ho, rfl⟩, h⟩⟩

/-- A grid has a column. -/
theorem readLaidOut_columnNames {directives : OrderedMap Directive String} {line : Nat} {l : Layout}
    {p p' : StringPool} {answer : List String × Grid}
    (h : readLaidOut directives line l p = .ok (answer, p')) : l.columnNames ≠ [] := by
  obtain ⟨_, _, -, h⟩ := interning_bind_eq_ok.1 h
  obtain ⟨_, _, hc, -⟩ := interning_bind_eq_ok.1 h
  exact (readAxisNames_eq_ok (interning_lift_eq_ok.1 hc).1).1

theorem Layout.columnNames_transposed {l l' : Layout} {line : Nat}
    (h : l.transposed line = .ok l') : l'.columnNames = l.rowNames := by
  obtain ⟨_, -, h⟩ := bind_eq_ok.1 h
  cases h
  rfl

/-- Two computations that answer as each other have the same answers. -/
theorem Threads.eq_ok_iff {ε α : Type} {x y : Interning ε α} (h : Threads Eq x y)
    (h' : Threads Eq y x) {p p' : StringPool} {a : α} : x p = .ok (a, p') ↔ y p = .ok (a, p') := by
  constructor
  · intro hx
    obtain ⟨⟨_, _⟩, hy, rfl, rfl⟩ := h p _ hx
    exact hy
  · intro hy
    obtain ⟨⟨_, _⟩, hx, rfl, rfl⟩ := h' p _ hy
    exact hx

/-- **The rows of a grid.** With the directive they give what the exchanged rows give without it. -/
theorem readGrid_exchanged (c : GridContent) {directives directives' : OrderedMap Directive String}
    (transposed : directives.contains .transpose) (plain : ¬ directives'.contains .transpose)
    (hd : ∀ d, d ≠ .transpose → directives.get? d = directives'.get? d) {rows rows' : List Row}
    (h : rows.map Row.cells = c.lines) (h' : rows'.map Row.cells = c.exchanged.lines)
    {p p' : StringPool} {answer : List String × Grid} :
    readGrid directives rows p = .ok (answer, p') ↔
      readGrid directives' rows' p = .ok (answer, p') := by
  obtain ⟨header, rows, rfl, -⟩ := List.map_eq_cons_iff.1 h
  obtain ⟨header', rows', rfl, -⟩ := List.map_eq_cons_iff.1 h'
  simp only [readGrid_cons_iff, c.readLayout_eq h, c.exchanged.readLayout_eq h', orientLayout,
    if_pos transposed, if_neg plain, Except.ok.injEq, exists_and_left, exists_eq_left']
  by_cases none : c.rows = []
  · -- there are no columns, and either way this is an error
    refine iff_of_false ?_ fun read => readLaidOut_columnNames read (by simp [GridContent.layout,
      GridContent.exchanged, none])
    rintro ⟨l, hl, read⟩
    refine readLaidOut_columnNames read ?_
    rw [Layout.columnNames_transposed hl, GridContent.layout, none]
    rfl
  · rw [c.transposed_layout none]
    simp only [Except.ok.injEq, exists_eq_left']
    have length : c.columnNames.length = rows'.length := by
      have := congrArg List.length h'
      simpa [GridContent.lines, GridContent.exchanged, transpose] using this.symm
    exact Threads.eq_ok_iff
      (readLaidOut_threads hd _ _ ⟨rfl, by simp [GridContent.layout, length]⟩)
      (readLaidOut_threads (fun d other => (hd d other).symm) _ _
        ⟨rfl, by simp [GridContent.layout, length]⟩)

/-! ## Outlines -/

namespace Outline

/-- The directives of a grid are those that a grid can have, with the type of its cells. -/
theorem checkDirectives_grid_iff {o : Outline} (grid : o.tableFormat = .grid) :
    o.checkDirectives = .ok () ↔
      (∀ d, o.directives.contains d → d ∈ TableFormat.grid.directives) ∧
        o.directives.contains .dataType := by
  unfold checkDirectives
  rw [grid]
  dsimp only
  cases illegal : o.directives.keys.find? fun d => !TableFormat.grid.directives.contains d with
  | some d =>
    refine iff_of_false (fun h => by cases h) fun legal => ?_
    have listed := legal.1 d ((o.directives.contains_iff d).2 (List.mem_of_find?_eq_some illegal))
    simpa [listed] using List.find?_some illegal
  | none =>
    rw [List.find?_eq_none] at illegal
    have legal : ∀ d, o.directives.contains d → d ∈ TableFormat.grid.directives := fun d hd => by
      simpa using illegal d ((o.directives.contains_iff d).1 hd)
    by_cases typed : o.directives.contains .dataType
    · rw [if_neg (by simp), if_neg (by simp [typed])]
      exact iff_of_true rfl ⟨legal, typed⟩
    · rw [if_neg (by simp), if_pos ⟨rfl, typed⟩]
      exact iff_of_false (fun h => by cases h) fun h => typed h.2

/-- The outlines are those of a grid, and say the same, but only the first that its rows and columns
are to be exchanged. -/
structure Untransposed (o o' : Outline) : Prop where
  format : ∃ given, o.format = some (.grid, given) ∧ o'.format = some (.grid, given)
  transposed : o.directives.contains .transpose
  plain : ¬ o'.directives.contains .transpose
  others : ∀ d, d ≠ .transpose → o.directives.get? d = o'.directives.get? d

namespace Untransposed

variable {o o' : Outline} (h : o.Untransposed o')
include h

theorem tableFormat : o.tableFormat = .grid ∧ o'.tableFormat = .grid := by
  obtain ⟨given, hf, hf'⟩ := h.format
  rw [Outline.tableFormat, Outline.tableFormat, hf, hf']
  exact ⟨rfl, rfl⟩

theorem tableName (name : String) : o.tableName name = o'.tableName name := by
  obtain ⟨given, hf, hf'⟩ := h.format
  rw [Outline.tableName, Outline.tableName, hf, hf']

theorem contains {d : Directive} (other : d ≠ .transpose) :
    o.directives.contains d = o'.directives.contains d := by
  rw [OrderedMap.contains, OrderedMap.contains, h.others d other]

/-- A grid may have the directive that one of them lacks. -/
theorem checkDirectives : o.checkDirectives = .ok () ↔ o'.checkDirectives = .ok () := by
  rw [checkDirectives_grid_iff h.tableFormat.1, checkDirectives_grid_iff h.tableFormat.2,
    h.contains (d := .dataType) nofun]
  refine and_congr_left fun _ => forall_congr' fun d => ?_
  by_cases hd : d = .transpose
  · subst hd
    exact iff_of_true (fun _ => by decide) (fun _ => by decide)
  · rw [h.contains hd]

end Untransposed

end Outline

theorem ofOutline_grid_iff {o : Outline} (grid : o.tableFormat = .grid) {name source : String}
    {d : Draft} :
    Draft.ofOutline o name source = .ok d ↔ o.checkDirectives = .ok () ∧
      ∃ rowNames g pool,
        readGrid o.directives o.rows StringPool.empty = .ok ((rowNames, g), pool) ∧
        { name := o.tableName name, source, pool, rowNames, rowCount := rowNames.length,
          entityAffix := "", content := .grid g } = d := by
  unfold Draft.ofOutline
  rw [grid]
  constructor
  · intro h
    obtain ⟨_, legal, h⟩ := bind_eq_ok.1 h
    obtain ⟨⟨⟨rowNames, g⟩, pool⟩, read, h⟩ := bind_eq_ok.1 h
    cases h
    exact ⟨legal, rowNames, g, pool, read, rfl⟩
  · rintro ⟨legal, rowNames, g, pool, read, rfl⟩
    exact bind_eq_ok.2 ⟨(), legal, bind_eq_ok.2 ⟨_, read, rfl⟩⟩

/-- **Outlines.** Outlines with exchanged content are accepted together, as the same table. -/
theorem ofOutline_exchanged (c : GridContent) {o o' : Outline} (h : o.Untransposed o')
    (rows : o.rows.map Row.cells = c.lines) (rows' : o'.rows.map Row.cells = c.exchanged.lines)
    (name source : String) (d : Draft) :
    Draft.ofOutline o name source = .ok d ↔ Draft.ofOutline o' name source = .ok d := by
  simp only [ofOutline_grid_iff h.tableFormat.1, ofOutline_grid_iff h.tableFormat.2,
    h.checkDirectives, h.tableName, readGrid_exchanged c h.transposed h.plain h.others rows rows']

/-! ## Sources -/

/-- What the directive lines of a source say, each of which says something. -/
theorem Outline.told_of_read {o : Outline} {lines : List String}
    (h : Outline.read lines = .ok (some o)) :
    (∀ cells ∈ directivesOf lines, (saying? cells).isSome) ∧
      o.Told ((directivesOf lines).filterMap saying?) := by
  obtain ⟨said, hsaid, told⟩ := (Outline.reads_of_read h).told
  obtain ⟨known, rfl⟩ := map_eq_map_some_iff.1 hsaid
  exact ⟨known, told⟩

theorem Outline.Told.untransposed {o o' : Outline} {argument given : String} {said : List Saying}
    (h : o.Told (.directive .transpose argument :: said)) (h' : o'.Told said)
    (grid : .format .grid given ∈ said) : o.Untransposed o' where
  format := ⟨given, (h.format _ _).2 (List.mem_cons_of_mem _ grid), (h'.format _ _).2 grid⟩
  transposed := Option.isSome_iff_exists.2 ⟨_, (h.directives _ _).2 List.mem_cons_self⟩
  plain transposed := by
    obtain ⟨argument', ha⟩ := Option.isSome_iff_exists.1 transposed
    have nodup := h.nodup
    rw [List.map_cons, List.nodup_cons] at nodup
    exact nodup.1 (List.mem_map.2 ⟨_, (h'.directives _ argument').1 ha, rfl⟩)
  others d other := Option.ext fun a => by
    rw [h.directives, h'.directives, List.mem_cons]
    exact or_iff_right fun e => other (Saying.directive.inj e).1

/-- A source of a grid whose rows and columns are to be exchanged, and one of the exchanged content
with the same directives but that. -/
structure TransposedSource (c : GridContent) (lines lines' : List String) : Prop where
  directives : ∃ cells argument, saying? cells = some (.directive .transpose argument) ∧
    (directivesOf lines).Perm (cells :: directivesOf lines')
  plain : ∀ cells ∈ directivesOf lines', ∀ argument,
    saying? cells ≠ some (.directive .transpose argument)
  grid : ∃ cells ∈ directivesOf lines', ∃ given, saying? cells = some (.format .grid given)
  even : EvenLines (contentsOf lines)
  even' : EvenLines (contentsOf lines')
  rows : rowsOf (contentsOf lines) = c.lines
  rows' : rowsOf (contentsOf lines') = c.exchanged.lines

namespace TransposedSource

variable {c : GridContent} {lines lines' : List String} (h : TransposedSource c lines lines')
include h

/-- One of the sources says one thing more. -/
theorem said : ∃ argument, ((directivesOf lines).filterMap saying?).Perm
    (.directive .transpose argument :: (directivesOf lines').filterMap saying?) := by
  obtain ⟨cells, argument, hs, p⟩ := h.directives
  have := p.filterMap saying?
  rw [List.filterMap_cons_some hs] at this
  exact ⟨argument, this⟩

/-- The sources are read together. -/
theorem read_iff : (∃ o, Outline.read lines = .ok (some o)) ↔
    ∃ o, Outline.read lines' = .ok (some o) := by
  obtain ⟨cells, argument, hs, p⟩ := h.directives
  obtain ⟨argument, q⟩ := h.said
  constructor
  · rintro ⟨o, ho⟩
    obtain ⟨known, told⟩ := Outline.told_of_read ho
    have nodup := (told.perm q).nodup
    rw [List.map_cons, List.nodup_cons] at nodup
    exact Outline.exists_read (map_eq_map_some_iff.2 ⟨fun cells' hc =>
      known cells' (p.mem_iff.2 (List.mem_cons_of_mem _ hc)), rfl⟩) nodup.2 h.even'
  · rintro ⟨o, ho⟩
    obtain ⟨known, told⟩ := Outline.told_of_read ho
    refine Outline.exists_read (map_eq_map_some_iff.2 ⟨fun cells' hc => ?_, rfl⟩)
      ((q.map Saying.topic).nodup_iff.2 ?_) h.even
    · rcases List.mem_cons.1 (p.mem_iff.1 hc) with rfl | hc
      · exact hs ▸ rfl
      · exact known cells' hc
    · rw [List.map_cons, List.nodup_cons]
      refine ⟨fun transposed => ?_, told.nodup⟩
      obtain ⟨s, hm, ht⟩ := List.mem_map.1 transposed
      obtain ⟨cells', hc, hs'⟩ := List.mem_filterMap.1 hm
      cases s with
      | format => cases ht
      | directive d argument' =>
        cases ht
        exact h.plain cells' hc argument' hs'

theorem untransposed {o o' : Outline} (ho : Outline.read lines = .ok (some o))
    (ho' : Outline.read lines' = .ok (some o')) : o.Untransposed o' := by
  obtain ⟨argument, q⟩ := h.said
  obtain ⟨cells, hc, given, hs⟩ := h.grid
  exact ((Outline.told_of_read ho).2.perm q).untransposed (Outline.told_of_read ho').2
    (List.mem_filterMap.2 ⟨cells, hc, hs⟩)

/-- **Sources.** They are accepted together, as the same table. -/
theorem parse_iff (name source : String) (d : Draft) :
    Draft.parse lines name source = .ok (some d) ↔
      Draft.parse lines' name source = .ok (some d) := by
  have same : ∀ {o o'}, Outline.read lines = .ok (some o) → Outline.read lines' = .ok (some o') →
      ∀ source, (Draft.ofOutline o name source = .ok d ↔ Draft.ofOutline o' name source = .ok d) :=
    fun ho ho' source => ofOutline_exchanged c (h.untransposed ho ho')
      ((Outline.reads_of_read ho).holds.rows.trans h.rows)
      ((Outline.reads_of_read ho').holds.rows.trans h.rows') name source d
  rw [Draft.parse_eq_some_iff, Draft.parse_eq_some_iff]
  constructor
  · rintro ⟨o, ho, hd⟩
    obtain ⟨o', ho'⟩ := h.read_iff.1 ⟨o, ho⟩
    exact ⟨o', ho', (same ho ho' _).1 hd⟩
  · rintro ⟨o', ho', hd⟩
    obtain ⟨o, ho⟩ := h.read_iff.2 ⟨o', ho'⟩
    exact ⟨o, ho, (same ho ho' _).2 hd⟩

end TransposedSource

/-- **Exchange.** The directive that exchanges rows and columns is the exchange of the content: with
whatever other directives, the content with it and the exchanged content without it are accepted
together, as the same table, and so are the sources that hold them. -/
theorem exchange_iff (c : GridContent) (name source : String) (d : Draft) :
    (∀ o o' : Outline, o.Untransposed o' → o.rows.map Row.cells = c.lines →
      o'.rows.map Row.cells = c.exchanged.lines →
      (Draft.ofOutline o name source = .ok d ↔ Draft.ofOutline o' name source = .ok d)) ∧
    ∀ lines lines' : List String, TransposedSource c lines lines' →
      (Draft.parse lines name source = .ok (some d) ↔
        Draft.parse lines' name source = .ok (some d)) :=
  ⟨fun _ _ h rows rows' => ofOutline_exchanged c h rows rows' name source d,
    fun _ _ h => h.parse_iff name source d⟩

/-- Distances of moons from their planets, with the planets in the rows or in the columns. -/
def moonDistances : GridContent where
  affixes := some ("PLANET_", "MOON_")
  columnNames := ["LUNA", "PHOBOS", "DEIMOS"]
  rows := [("EARTH", ["384400", "", ""]), ("MARS", ["", "9376", "23463"])]
  plain := by
    rintro _ ⟨⟩
    decide
  even := by decide

/-- The distances come from either source, and from either outline. -/
theorem moonDistances_exchanged : ∃ d o o',
    Draft.ofOutline o "distances" "moons" = .ok d ∧
    Draft.ofOutline o' "distances" "moons" = .ok d ∧
    Draft.parse ["@ENUM_X_ENUM", "@DATA_TYPE=FLOAT", "@TRANSPOSE", "@DATA_UNIT=km",
      "PLANET_\\MOON_\tLUNA\tPHOBOS\tDEIMOS", "EARTH\t384400\t\t", "MARS\t\t9376\t23463"]
      "distances" "moons" = .ok (some d) ∧
    Draft.parse ["@ENUM_X_ENUM", "@DATA_TYPE=FLOAT", "@DATA_UNIT=km",
      "MOON_\\PLANET_\tEARTH\tMARS", "LUNA\t384400\t", "PHOBOS\t\t9376", "DEIMOS\t\t23463"]
      "distances" "moons" = .ok (some d) ∧
    d.rowNames = ["MOON_LUNA", "MOON_PHOBOS", "MOON_DEIMOS"] := by
  generalize hlines : ["@ENUM_X_ENUM", "@DATA_TYPE=FLOAT", "@TRANSPOSE", "@DATA_UNIT=km",
    "PLANET_\\MOON_\tLUNA\tPHOBOS\tDEIMOS", "EARTH\t384400\t\t", "MARS\t\t9376\t23463"] = lines
  generalize hlines' : ["@ENUM_X_ENUM", "@DATA_TYPE=FLOAT", "@DATA_UNIT=km",
    "MOON_\\PLANET_\tEARTH\tMARS", "LUNA\t384400\t", "PHOBOS\t\t9376", "DEIMOS\t\t23463"] = lines'
  have h : TransposedSource moonDistances lines lines' := by
    subst hlines hlines'
    exact {
      directives := ⟨["@TRANSPOSE"], "", rfl, by decide +kernel⟩
      plain := by
        rw [show directivesOf _ = [["@ENUM_X_ENUM"], ["@DATA_TYPE=FLOAT"], ["@DATA_UNIT=km"]] by
          decide +kernel]
        simp only [List.forall_mem_cons]
        exact ⟨nofun, nofun, nofun, nofun⟩
      grid := ⟨["@ENUM_X_ENUM"], by decide +kernel, "", rfl⟩
      even := by unfold EvenLines; decide +kernel
      even' := by unfold EvenLines; decide +kernel
      rows := by decide +kernel
      rows' := by decide +kernel }
  have run : ((Draft.parse lines "distances" "moons").toOption.map fun d =>
      d.map Draft.rowNames) = some (some ["MOON_LUNA", "MOON_PHOBOS", "MOON_DEIMOS"]) := by
    subst hlines
    decide +kernel
  obtain ⟨d, parsed, hd⟩ := toOption_map_eq_some.1 run
  obtain ⟨d, rfl, names⟩ := Option.map_eq_some_iff.1 hd
  have parsed' := ((exchange_iff moonDistances _ _ d).2 _ _ h).1 parsed
  obtain ⟨o, ho, drawn⟩ := Draft.parse_eq_some_iff.1 parsed
  obtain ⟨o', ho', -⟩ := Draft.parse_eq_some_iff.1 parsed'
  have drawn' := ((exchange_iff moonDistances _ _ d).1 o o' (h.untransposed ho ho')
    ((Outline.reads_of_read ho).holds.rows.trans h.rows)
    ((Outline.reads_of_read ho').holds.rows.trans h.rows')).1 drawn
  exact ⟨d, o, o', drawn, drawn', parsed, parsed', names⟩

end TypedTables
