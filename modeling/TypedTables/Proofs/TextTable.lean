import Mathlib.Tactic.MkIffOfInductiveProp
import TypedTables.Proofs.LineText
import TypedTables.Proofs.ParsedDraft
import TypedTables.Text.Escape
/-!
# Tables of texts

A table of named rows whose fields are texts, as it is written: a line of field names, a line of
types, and a line for each row, with tabs between the cells. A text can be written if reading cleans
nothing off it, and a name if it announces nothing.

Results:
* `CellText.cleanCell`: what cleaning a cell leaves alone.
* `WrittenLine.contentCells?`: a written line is read as the cells that were written.
* `TextTable.exists_outline`: every line of a written table becomes a row.
-/
namespace TypedTables

open TypedTables.Text (isBlank isBlankText)

/-! ## Texts -/

/-- A text that is the text of the cell that it is written in. -/
@[mk_iff]
structure CellText (s : String) : Prop where
  tabless : '\t' ∉ s.toList
  head : ∀ c ∈ s.toList.head?, ¬ isBlank c ∧ c ≠ '"' ∧ c ≠ '\''
  last : ∀ c ∈ s.toList.getLast?, ¬ isBlank c

instance : DecidablePred CellText := fun s =>
  decidable_of_iff ('\t' ∉ s.toList ∧
    (s.toList.head?.all fun c => !isBlank c && c != '"' && c != '\'') ∧
    s.toList.getLast?.all fun c => !isBlank c) (by
      simp [cellText_iff, Option.all_eq_true, and_assoc])

theorem CellText.empty : CellText "" := by decide

namespace CellText

variable {s : String} (h : CellText s)
include h

theorem cleanCell : cleanCell s.toList = s.toList := by
  have head : ∀ c ∈ s.toList.head?, ¬ isBlank c := fun c hc => (h.head c hc).1
  have trimmed : Text.trim s.toList = s.toList := Text.dropAroundWhile_eq_self head h.last
  unfold TypedTables.cleanCell
  rw [trimmed]
  cases hs : s.toList with
  | nil => rfl
  | cons c r =>
    obtain ⟨-, double, single⟩ := h.head c (by rw [hs]; rfl)
    dsimp only
    rw [if_neg fun e => double e.1, if_neg single]

theorem cellText : cellText s.toList = s := by
  rw [TypedTables.cellText, h.cleanCell, String.ofList_toList]

/-- A text that is not empty is not blank either. -/
theorem not_blank (ne : s ≠ "") : ¬ isBlankText s.toList := by
  intro blank
  cases hs : s.toList with
  | nil => exact ne (String.toList_inj.1 hs)
  | cons c r =>
    rw [isBlankText, List.all_eq_true] at blank
    exact (h.head c (by rw [hs]; rfl)).1 (blank c (by rw [hs]; exact List.mem_cons_self))

theorem not_comment (plain : s.toList.head? ≠ some '#') : ¬ isComment s.toList := by
  rw [isComment_iff, ← List.head?_eq_getElem?]
  rintro (hash | ⟨double | single, -⟩)
  · exact plain hash
  · exact (h.head _ double).2.1 rfl
  · exact (h.head _ single).2.2 rfl

end CellText

theorem isBlank_of_isLineEnd {c : Char} (h : isLineEnd c) : isBlank c := by
  rw [isLineEnd, Bool.or_eq_true, beq_iff_eq, beq_iff_eq] at h
  rcases h with rfl | rfl <;> decide

theorem joinable_of_cellTexts {cells : List String} (ne : cells ≠ [])
    (texts : ∀ c ∈ cells, CellText c) : Joinable (cells.map String.toList) where
  ne_nil e := ne (List.map_eq_nil_iff.1 e)
  tabless _ hc := by
    obtain ⟨s, hs, rfl⟩ := List.mem_map.1 hc
    exact (texts s hs).tabless
  last _ hc c hl he := by
    obtain ⟨s, hs, rfl⟩ := List.mem_map.1 (List.mem_of_getLast? hc)
    exact (texts s hs).last c hl (isBlank_of_isLineEnd he)

/-- Texts that make a line of content. -/
structure WrittenLine (cells : List String) : Prop where
  texts : ∀ c ∈ cells, CellText c
  given : ∃ c ∈ cells, c ≠ ""
  /-- the first cell announces neither a comment nor a directive -/
  first : ∀ c ∈ cells.head?, c.toList.head? ≠ some '#' ∧ c.toList.head? ≠ some '@'

namespace WrittenLine

variable {cells : List String} (h : WrittenLine cells)
include h

theorem isContent : IsContent (cells.map String.toList) := by
  obtain ⟨c, hc, ne⟩ := h.given
  refine ⟨joinable_of_cellTexts (List.ne_nil_of_mem hc) h.texts, fun blank => ?_,
    fun cell hcell => ?_, fun cell hcell => ?_⟩
  · rw [List.all_eq_true] at blank
    exact (h.texts c hc).not_blank ne (blank _ (List.mem_map_of_mem hc))
  all_goals
    rw [List.head?_map] at hcell
    obtain ⟨s, hs, rfl⟩ := Option.map_eq_some_iff.1 hcell
    have text := h.texts s (List.mem_of_mem_head? hs)
  · exact text.not_comment (h.first s hs).1
  · rw [text.cleanCell]
    exact (h.first s hs).2

/-- **Written lines.** They are read as they were written. -/
theorem contentCells? : contentCells? ("\t".intercalate cells) = some cells := by
  have line : "\t".intercalate cells =
      String.ofList (joinCells (cells.map String.toList) ++ []) := by
    rw [← String.toList_inj, String.toList_intercalate, List.append_nil, String.toList_ofList,
      String.toList_ofList]
    rfl
  rw [line, contentCells?_join h.isContent.toJoinable (List.forall_mem_nil _)]
  refine ⟨h.isContent, ?_⟩
  rw [List.map_map]
  exact (List.map_id cells).symm.trans
    (List.map_congr_left fun s hs => (h.texts s hs).cellText.symm)

end WrittenLine

/-- Lines of which each is content. -/
theorem contentsOf_written {grid : List (List String)} (written : ∀ cells ∈ grid, WrittenLine cells) :
    contentsOf (grid.map fun cells => "\t".intercalate cells) = grid ∧
      directivesOf (grid.map fun cells => "\t".intercalate cells) = [] := by
  constructor
  · rw [contentsOf, List.filterMap_map]
    exact (List.filterMap_congr fun cells hc => (written cells hc).contentCells?).trans
      List.filterMap_some
  · rw [directivesOf, List.filterMap_eq_nil_iff, List.forall_mem_map]
    exact fun cells hc => directiveCells?_eq_none (written cells hc).contentCells?

/-! ## Tables -/

/-- A field of texts. -/
structure TextField where
  name : String
  /-- whether a backslash in its cells is a backslash -/
  verbatim : Bool
  deriving DecidableEq, Repr

namespace TextField

def type (f : TextField) : FieldType := ⟨if f.verbatim then .stringName else .string, false⟩

/-- What the text of a cell stands for. -/
def stored (f : TextField) (text : String) : String :=
  if f.verbatim then text else Text.unescaped text

end TextField

/-- A text that can name a field. -/
@[mk_iff]
structure FieldNameText (s : String) : Prop extends CellText s where
  ne_empty : s ≠ ""
  free : s ≠ nameField
  /-- the column is not one of comments -/
  no_comment : s.toList.head? ≠ some '#'

instance : DecidablePred FieldNameText := fun s => decidable_of_iff' _ (fieldNameText_iff s)

/-- A text that can name a row. -/
@[mk_iff]
structure RowNameText (s : String) : Prop extends CellText s where
  ne_empty : s ≠ ""
  /-- the line is no comment -/
  no_comment : s.toList.head? ≠ some '#'
  no_directive : s.toList.head? ≠ some '@'
  /-- the row is not one of the header -/
  no_header : headerRow? s = none

instance : DecidablePred RowNameText := fun s => decidable_of_iff' _ (rowNameText_iff s)

/-- A table of texts: its fields, and its rows with their names and cells. -/
structure TextTable where
  fields : List TextField
  rows : List (String × List String)
  fields_ne_nil : fields ≠ []
  rows_ne_nil : rows ≠ []
  fields_nodup : (fields.map TextField.name).Nodup
  rows_nodup : (rows.map Prod.fst).Nodup
  fieldName : ∀ f ∈ fields, FieldNameText f.name
  rowName : ∀ r ∈ rows, RowNameText r.1
  /-- every row has one cell a field -/
  even : ∀ r ∈ rows, r.2.length = fields.length
  cell : ∀ r ∈ rows, ∀ text ∈ r.2, CellText text

/-- How the type of a field is written. -/
theorem TextField.type_text (f : TextField) :
    f.type.text = if f.verbatim then "STRING_NAME" else "STRING" := by
  obtain ⟨name, verbatim⟩ := f
  cases verbatim <;> rfl

theorem TextField.cellText_type (f : TextField) : CellText f.type.text := by
  rw [f.type_text]
  split <;> decide

/-- Nothing is dropped if no column is one of comments. -/
theorem dropComments_replicate_false {n : Nat} {cells : List String} (h : cells.length = n) :
    dropComments (List.replicate n false) cells = cells := by
  subst h
  induction cells with
  | nil => rfl
  | cons cell cells ih =>
    rw [List.length_cons, List.replicate_succ, dropComments, List.zip_cons_cons,
      List.filterMap_cons_some (by rfl), ← dropComments, ih]

namespace TextTable

variable (t : TextTable)

def rowNames : List String := t.rows.map Prod.fst

/-- The cell of a row and a field, both by their places. -/
def cell? (i j : Nat) : Option String := t.rows[i]?.bind fun r => r.2[j]?

/-- The cells of each line: the field names, the types, the rows. -/
def grid : List (List String) :=
  ("" :: t.fields.map TextField.name) ::
    ("Type" :: t.fields.map fun f => f.type.text) :: t.rows.map fun r => r.1 :: r.2

/-- The lines of the table. -/
def lines : List String := t.grid.map fun cells => "\t".intercalate cells

/-! ### Lines -/

theorem written_of_mem_grid : ∀ cells ∈ t.grid, WrittenLine cells := by
  obtain ⟨f, hf⟩ := List.exists_mem_of_ne_nil _ t.fields_ne_nil
  have type : CellText "Type" := by decide
  refine List.forall_mem_cons.2 ⟨⟨List.forall_mem_cons.2 ⟨.empty, ?_⟩, ⟨f.name, ?_, ?_⟩, ?_⟩,
    List.forall_mem_cons.2 ⟨⟨List.forall_mem_cons.2 ⟨type, ?_⟩, ⟨"Type", ?_, by decide⟩, ?_⟩, ?_⟩⟩
  · exact List.forall_mem_map.2 fun g hg => (t.fieldName g hg).toCellText
  · exact List.mem_cons_of_mem _ (List.mem_map_of_mem hf)
  · exact (t.fieldName f hf).ne_empty
  · rintro _ ⟨⟩
    decide
  · exact List.forall_mem_map.2 fun g _ => g.cellText_type
  · exact List.mem_cons_self
  · rintro _ ⟨⟩
    decide
  · rw [List.forall_mem_map]
    intro r hr
    have name := t.rowName r hr
    refine ⟨List.forall_mem_cons.2 ⟨name.toCellText, t.cell r hr⟩,
      ⟨r.1, List.mem_cons_self, name.ne_empty⟩, ?_⟩
    rintro _ ⟨⟩
    exact ⟨name.no_comment, name.no_directive⟩

theorem marks_grid : marksOf t.grid = List.replicate (t.fields.length + 1) false := by
  show commentMarks ("" :: t.fields.map TextField.name) = _
  rw [commentMarks, List.map_cons, List.map_map, List.replicate_succ, ← List.map_const']
  refine congrArg₂ _ (by decide) (List.map_congr_left fun f hf => ?_)
  exact decide_eq_false (t.fieldName f hf).no_comment

theorem length_of_mem_grid : ∀ cells ∈ t.grid, cells.length = t.fields.length + 1 := by
  refine List.forall_mem_cons.2 ⟨by simp, List.forall_mem_cons.2 ⟨by simp, ?_⟩⟩
  rw [List.forall_mem_map]
  exact fun r hr => congrArg Nat.succ (t.even r hr)

/-- No line of the table is empty. -/
theorem rowsOf_grid : rowsOf t.grid = t.grid := by
  have kept : t.grid.map (dropComments (marksOf t.grid)) = t.grid := by
    rw [marks_grid]
    exact (List.map_congr_left fun cells hc =>
      dropComments_replicate_false (t.length_of_mem_grid cells hc)).trans (List.map_id _)
  rw [rowsOf, keptRows, kept, List.filter_eq_self]
  intro cells hc
  obtain ⟨c, mem, ne⟩ := (t.written_of_mem_grid cells hc).given
  rw [Bool.not_eq_true', List.all_eq_false]
  exact ⟨c, mem, by simpa using ne⟩

/-- What is read of the lines: no directive, and a row for each line. -/
theorem exists_outline : ∃ o, Outline.read t.lines = .ok (some o) ∧ o.format = none ∧
    (∀ d, o.directives.get? d = none) ∧ o.width = t.fields.length + 1 ∧
    o.rows.map Row.cells = t.grid := by
  obtain ⟨contents, directives⟩ := contentsOf_written t.written_of_mem_grid
  have even : EvenLines (contentsOf t.lines) := by
    rw [lines, contents, EvenLines, marks_grid, List.length_replicate]
    exact t.length_of_mem_grid
  have silent : (directivesOf t.lines).map saying? = ([] : List Saying).map some := by
    rw [lines, directives]
    rfl
  obtain ⟨o, ho⟩ := Outline.exists_read silent List.nodup_nil even
  obtain ⟨⟨said, hsaid, told⟩, holds⟩ := Outline.reads_of_read ho
  rw [lines, directives, List.map_nil, eq_comm, List.map_eq_nil_iff] at hsaid
  subst hsaid
  rw [lines, contents] at holds
  refine ⟨o, ho, Option.eq_none_iff_forall_ne_some.2 fun f hf => ?_, fun d =>
    Option.eq_none_iff_forall_ne_some.2 fun a ha => ?_, ?_, ?_⟩
  · exact absurd ((told.format f.1 f.2).1 hf) List.not_mem_nil
  · exact absurd ((told.directives d a).1 ha) List.not_mem_nil
  · rw [Outline.width, holds.comments]
    show (marksOf t.grid).count false = _
    rw [marks_grid, List.count_replicate_self]
  · rw [holds.rows, rowsOf_grid]

end TextTable

end TypedTables
