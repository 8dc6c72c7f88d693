import TypedTables.Proofs.RereadCells
/-!
# Filled defaults

What a field holds in its empty cells is said once, in the row of defaults. The table is the same
when the cell that stands there is copied into any of them, just as it is written.

Results:
* `keptRows_fills`: content lines with a text in some empty cells are rows with that text.
* `FillsCell.contents`: lines with a cell copied into them.
* `parse_of_filled`: the table of such a source.
-/
namespace TypedTables

/-! ## Cells of content lines -/

theorem dropComments_cons (mark : Bool) (marks : List Bool) (text : String) (texts : List String) :
    dropComments (mark :: marks) (text :: texts) =
      if mark then dropComments marks texts else text :: dropComments marks texts := by
  cases mark <;> rfl

/-- Without the columns of comments a cell moves up. -/
theorem dropComments_set (t : String) {marks : List Bool} {k : Nat} (hk : marks[k]? = some false)
    (texts : List String) :
    dropComments marks (texts.set k t) =
        (dropComments marks texts).set ((marks.take k).count false) t ∧
      (dropComments marks texts)[(marks.take k).count false]? = texts[k]? := by
  induction marks generalizing k texts with
  | nil => cases hk
  | cons mark marks ih =>
    cases texts with
    | nil => simp [dropComments]
    | cons text texts =>
      cases k with
      | zero =>
        cases hk
        exact ⟨rfl, rfl⟩
      | succ k =>
        obtain ⟨set, get⟩ := ih (by simpa using hk) texts
        rw [List.set_cons_succ, dropComments_cons, dropComments_cons, set, List.take_succ_cons,
          List.getElem?_cons_succ, ← get]
        cases mark with
        | true => exact ⟨by simp, by simp⟩
        | false => exact ⟨by simp, by simp⟩

/-- A line of texts is another, or has a text in an empty cell at place `k`; it has to be a row
without it. -/
def FillsText (marks : List Bool) (k : Nat) (t : String) (texts texts' : List String) : Prop :=
  texts' = texts ∨
    (∃ text ∈ dropComments marks texts, text ≠ "") ∧ texts[k]? = some "" ∧ texts' = texts.set k t

theorem exists_beside {texts : List String} {k : Nat}
    (given : ∃ text ∈ texts, text ≠ "") (empty : texts[k]? = some "") :
    ∃ i ≠ k, ∃ text, texts[i]? = some text ∧ text ≠ "" := by
  obtain ⟨text, mem, some⟩ := given
  obtain ⟨i, hi⟩ := List.mem_iff_getElem?.1 mem
  refine ⟨i, ?_, text, hi, some⟩
  rintro rfl
  exact some (Option.some.inj (hi.symm.trans empty))

theorem keptRows_singleton {marks : List Bool} {texts : List String}
    (given : ∃ text ∈ dropComments marks texts, text ≠ "") :
    keptRows marks [texts] = [dropComments marks texts] := by
  obtain ⟨text, mem, some⟩ := given
  rw [keptRows, List.map_singleton, List.filter_cons_of_pos, List.filter_nil]
  rw [Bool.not_eq_true', List.all_eq_false]
  exact ⟨text, mem, by simpa using some⟩

/-- **Rows.** A line that is a row stays one, with the text in the cell of its field. -/
theorem keptRows_fills {marks : List Bool} {k j : Nat} {t : String} (hk : marks[k]? = some false)
    (hj : (marks.take k).count false = j + 1) {contents contents' : List (List String)}
    (h : List.Forall₂ (FillsText marks k t) contents contents') :
    List.Forall₂ (FillsField j t) (keptRows marks contents) (keptRows marks contents') := by
  induction h with
  | nil => exact .nil
  | @cons texts texts' contents contents' hc _ ih =>
    rw [← List.singleton_append, keptRows_append, ← List.singleton_append (l := contents'),
      keptRows_append]
    refine List.rel_append ?_ ih
    rcases hc with rfl | ⟨given, empty, rfl⟩
    · exact List.forall₂_same.2 fun _ _ => .inl rfl
    obtain ⟨set, get⟩ := dropComments_set t hk texts
    rw [hj] at set get
    rw [empty] at get
    -- the text that makes the line a row is another than the one that is replaced
    obtain ⟨i, other, text, hi, some⟩ := exists_beside given get
    have given' : ∃ text ∈ dropComments marks (texts.set k t), text ≠ "" :=
      ⟨text, set ▸ List.mem_of_getElem? (List.getElem?_set_ne (Ne.symm other) ▸ hi), some⟩
    rw [keptRows_singleton given, keptRows_singleton given', set]
    exact .cons (.inr ⟨get, rfl⟩) .nil

/-! ## Lines -/

theorem mem_of_mem_dropComments {marks : List Bool} {texts : List String} {text : String}
    (h : text ∈ dropComments marks texts) : text ∈ texts := by
  obtain ⟨p, hp, ht⟩ := List.mem_filterMap.1 h
  split at ht <;> cases ht
  exact (List.of_mem_zip hp).2

/-- A line is another, or has a cell in the place of an empty one in a row. -/
inductive FillsCell (marks : List Bool) (k : Nat) (cell : List Char) : String → String → Prop where
  | same (line : String) : FillsCell marks k cell line line
  | filled {line : String} {texts : List String} (content : contentCells? line = some texts)
      (row : ∃ text ∈ dropComments marks texts, text ≠ "") (empty : texts[k]? = some "") :
      FillsCell marks k cell line (replaceCell k cell line)

namespace FillsCell

variable {marks : List Bool} {k : Nat} {cell : List Char} {origin : String}

/-- A directive stays, and content is filled as the line is. -/
theorem line (pos : 1 ≤ k) (hk : (cutCells origin)[k]? = some cell) {line line' : String}
    (even : ∀ texts, contentCells? line = some texts → (cutCells origin).length = texts.length)
    (h : FillsCell marks k cell line line') :
    directiveCells? line = directiveCells? line' ∧
      Option.Rel (FillsText marks k (cellText cell)) (contentCells? line)
        (contentCells? line') := by
  cases h with
  | same =>
    refine ⟨rfl, ?_⟩
    cases contentCells? line with
    | none => exact .none
    | some texts => exact .some (.inl rfl)
  | filled content row empty =>
    obtain ⟨text, mem, some⟩ := row
    have content' := contentCells?_replaceCell content (even _ content) pos hk
      (exists_beside ⟨text, mem_of_mem_dropComments mem, some⟩ empty)
    rw [directiveCells?_eq_none content, directiveCells?_eq_none content', content, content']
    exact ⟨rfl, .some (.inr ⟨⟨text, mem, some⟩, empty, rfl⟩)⟩

/-- **Lines.** Copies of a cell, where it stands in a line as long as theirs. -/
theorem contents (pos : 1 ≤ k) (hk : (cutCells origin)[k]? = some cell)
    {lines lines' : List String}
    (even : ∀ texts ∈ contentsOf lines, (cutCells origin).length = texts.length)
    (h : List.Forall₂ (FillsCell marks k cell) lines lines') :
    directivesOf lines = directivesOf lines' ∧
      List.Forall₂ (FillsText marks k (cellText cell)) (contentsOf lines) (contentsOf lines') := by
  have long : ∀ line ∈ lines, ∀ texts, contentCells? line = some texts →
      (cutCells origin).length = texts.length := fun line hl texts ht =>
    even texts (List.mem_filterMap.2 ⟨line, hl, ht⟩)
  have filled := (List.forall₂_and_left _ _).2 ⟨long, h⟩
  refine ⟨?_, List.rel_filterMap (fun line line' hl => (hl.2.line pos hk hl.1).2) filled⟩
  rw [← List.forall₂_eq_eq_eq]
  refine List.rel_filterMap (fun line line' hl => ?_) filled
  rw [(hl.2.line pos hk hl.1).1]
  cases directiveCells? line' with
  | none => exact .none
  | some _ => exact .some rfl

end FillsCell

/-! ## Sources -/

/-- The first lines of a source hold its field names and header rows, and the others its content
rows. -/
structure HeaderSplit (head body : List String) : Prop where
  header : ∃ names hs, rowsOf (contentsOf head) = names :: hs ∧ ∀ cells ∈ hs, IsHeaderRow cells
  stop : ∀ cells ∈ (keptRows (marksOf (contentsOf head)) (contentsOf body)).head?,
    ¬ IsHeaderRow cells

/-- The lines have a row of defaults after the field names, with this cell at place `k`. -/
inductive GivesDefault (k : Nat) (cell : List Char) : List String → Prop where
  | row {front : List String} {line : String} (back : List String) {texts : List String}
      (fields : rowsOf (contentsOf front) ≠ []) (content : contentCells? line = some texts)
      (start : (dropComments (marksOf (contentsOf front)) texts).head? =
        some HeaderRow.default.keyword)
      (place : (cutCells line)[k]? = some cell) : GivesDefault k cell (front ++ line :: back)

theorem HeaderSplit.ne_nil {head body : List String} (h : HeaderSplit head body) :
    contentsOf head ≠ [] := by
  obtain ⟨names, hs, rows, -⟩ := h.header
  intro none
  rw [none] at rows
  cases rows

/-- The cell comes from a content line. -/
theorem GivesDefault.exists_line {k : Nat} {cell : List Char} {head : List String}
    (h : GivesDefault k cell head) : ∃ line, (cutCells line)[k]? = some cell ∧
      ∃ texts ∈ contentsOf head, texts.length = (cutCells line).length := by
  cases h with
  | @row front line back texts _ content _ found =>
    refine ⟨line, found, texts, ?_, ?_⟩
    · rw [contentsOf_append, contentsOf_cons content]
      simp
    · rw [(contentCells?_eq_some_iff.1 content).2, List.length_map]

/-- The text of the default, in the header row that gives it. -/
theorem GivesDefault.exists_row {k j : Nat} {cell : List Char} {head : List String}
    (h : GivesDefault k cell head) {names : List String} {hs : List (List String)}
    (rows : rowsOf (contentsOf head) = names :: hs)
    (place : (marksOf (contentsOf head))[k]? = some false)
    (hj : ((marksOf (contentsOf head)).take k).count false = j + 1) :
    ∃ default ∈ hs, default.head? = some HeaderRow.default.keyword ∧
      default[j + 1]? = some (cellText cell) := by
  cases h with
  | @row front line back texts fields content start found =>
    obtain ⟨first, others, hfront⟩ := List.exists_cons_of_ne_nil fields
    have ne : contentsOf front ≠ [] := fun none => fields (by rw [none]; rfl)
    rw [contentsOf_append, marksOf_append ne] at place hj
    have given : ∃ text ∈ dropComments (marksOf (contentsOf front)) texts, text ≠ "" :=
      ⟨_, List.mem_of_head? start, by decide⟩
    rw [contentsOf_append, contentsOf_cons content, rowsOf_append ne, hfront,
      ← List.singleton_append (l := contentsOf back), keptRows_append, keptRows_singleton given,
      List.cons_append, List.cons.injEq] at rows
    refine ⟨_, by rw [← rows.2]; simp, start, ?_⟩
    rw [← hj, (dropComments_set "" place texts).2, (contentCells?_eq_some_iff.1 content).2,
      List.getElem?_map, found, Option.map_some]

/-- **Defaults.** A source whose empty cells of a field hold copies of its default cell. -/
theorem parse_of_filled {head body body' : List String} {name source : String} {d : Draft} {k : Nat}
    {cell : List Char} (h : Draft.parse (head ++ body) name source = .ok (some d))
    (fields : d.columns ≠ []) (split : HeaderSplit head body)
    (place : (marksOf (contentsOf head))[k]? = some false)
    (field : false ∈ (marksOf (contentsOf head)).take k) (default : GivesDefault k cell head)
    (filled : List.Forall₂ (FillsCell (marksOf (contentsOf head)) k cell) body body') :
    Draft.parse (head ++ body') name source = .ok (some d) := by
  have ne := split.ne_nil
  obtain ⟨names, hs, rows, header⟩ := split.header
  have marks := marksOf_contentsOf_append ne
  have rowsOf_eq : ∀ lines, rowsOf (contentsOf (head ++ lines)) =
      names :: (hs ++ keptRows (marksOf (contentsOf head)) (contentsOf lines)) := fun lines => by
    rw [rowsOf_contentsOf_append ne, rows, List.cons_append]
  have even := evenLines_of_parse h
  rw [EvenLines, marks, contentsOf_append, List.forall_mem_append] at even
  obtain ⟨j, hj⟩ := Nat.exists_eq_succ_of_ne_zero (List.count_pos_iff.2 field).ne'
  have pos : 1 ≤ k := Nat.one_le_iff_ne_zero.2 fun zero => by
    rw [zero] at field
    cases field
  -- the lines with the copies are content lines of the same width
  obtain ⟨origin, found, texts, mem, width⟩ := default.exists_line
  obtain ⟨directives, contents⟩ := FillsCell.contents pos found
    (fun cells hc => by rw [← width, even.1 texts mem, even.2 cells hc]) filled
  have even' : ∀ cells ∈ contentsOf body', cells.length = (marksOf (contentsOf head)).length := by
    intro cells hc
    obtain ⟨cells₁, hc₁, fills⟩ := exists_of_forall₂ contents.flip hc
    rw [← even.2 cells₁ hc₁]
    rcases fills with rfl | ⟨-, -, rfl⟩
    · rfl
    · exact List.length_set
  have frame : SameFrame (head ++ body) (head ++ body') := by
    refine ⟨?_, ?_, by rw [marks, marks]⟩
    · rw [directivesOf_append, directivesOf_append, directives]
    · rw [EvenLines, marks, contentsOf_append, List.forall_mem_append]
      exact ⟨even.1, even'⟩
  obtain ⟨o, ho, hd⟩ := Draft.parse_eq_some_iff.1 h
  obtain ⟨o', ho', reads', alike⟩ := frame.exists_read ho
  obtain ⟨records, named⟩ := columns_ofOutline hd fields
  have hrows := (Outline.reads_of_read ho).holds.rows
  have hrows' := reads'.holds.rows
  rw [rowsOf_eq] at hrows hrows'
  obtain ⟨row, given, start, text⟩ := default.exists_row rows place hj
  obtain ⟨_, hd', rfl⟩ := ofOutline_follows alike
    (readRecords_filled named hrows hrows' header split.stop given start text
      (keptRows_fills place hj contents))
    (fun grid => absurd grid records) _ _ d hd
  exact Draft.parse_eq_some_iff.2 ⟨o', ho', hd'⟩

/-- The fields of dogs, with colors that most of them have. -/
def dogHeader : List String :=
  ["@DB_ENTITIES", "\t#\tcolors\tage", "Type\t\tARRAY[STRING]\tINT",
    "Default\t\t\"red, blue\"\t", "Prefix\t\tCOLOR_\t"]

/-- Dogs, and the same dogs when the colors of one of them are written out. -/
theorem dogs_filled : ∃ d,
    Draft.parse (dogHeader ++ ["Rex\tgood\t\t3", "Ada\t\tgreen\t", "Max\t\t\t"]) "Dog" =
      .ok (some d) ∧
    Draft.parse (dogHeader ++ ["Rex\tgood\t\"red, blue\"\t3", "Ada\t\tgreen\t", "Max\t\t\t"])
      "Dog" = .ok (some d) ∧
    d.pool.added = ["COLOR_red", "COLOR_blue", "3", "COLOR_green"] := by
  have run : ((Draft.parse (dogHeader ++ ["Rex\tgood\t\t3", "Ada\t\tgreen\t", "Max\t\t\t"])
      "Dog").toOption.map fun d => d.map fun d => (d.columns.map Column.name, d.pool.added)) =
      some (some (["colors", "age"], ["COLOR_red", "COLOR_blue", "3", "COLOR_green"])) := by
    decide +kernel
  obtain ⟨d, parsed, hd⟩ := toOption_map_eq_some.1 run
  obtain ⟨d, rfl, read⟩ := Option.map_eq_some_iff.1 hd
  obtain ⟨names, pool⟩ := Prod.mk.inj read
  have fields : d.columns ≠ [] := fun none => by simp [none] at names
  have split : HeaderSplit dogHeader ["Rex\tgood\t\t3", "Ada\t\tgreen\t", "Max\t\t\t"] := {
    header := ⟨["", "colors", "age"], [["Type", "ARRAY[STRING]", "INT"],
      ["Default", "red, blue", ""], ["Prefix", "COLOR_", ""]], by decide +kernel,
      by unfold IsHeaderRow; decide +kernel⟩
    stop := by unfold IsHeaderRow; decide +kernel }
  have default : GivesDefault 2 "\"red, blue\"".toList
      (["@DB_ENTITIES", "\t#\tcolors\tage", "Type\t\tARRAY[STRING]\tINT"] ++
        "Default\t\t\"red, blue\"\t" :: ["Prefix\t\tCOLOR_\t"]) :=
    .row _ (by decide +kernel) (show _ = some ["Default", "", "red, blue", ""] by decide +kernel)
      (by decide +kernel) (by decide +kernel)
  have place : (marksOf (contentsOf dogHeader))[2]? = some false := by decide +kernel
  have field : false ∈ (marksOf (contentsOf dogHeader)).take 2 := by decide +kernel
  have written : replaceCell 2 "\"red, blue\"".toList "Rex\tgood\t\t3" =
      "Rex\tgood\t\"red, blue\"\t3" := by
    decide +kernel
  have filled : FillsCell (marksOf (contentsOf dogHeader)) 2 "\"red, blue\"".toList
      "Rex\tgood\t\t3" (replaceCell 2 "\"red, blue\"".toList "Rex\tgood\t\t3") := by
    refine .filled (show _ = some ["Rex", "good", "", "3"] by decide +kernel) ?_ ?_
    · decide +kernel
    · decide +kernel
  rw [written] at filled
  exact ⟨d, parsed, parse_of_filled parsed fields split place field default
    (.cons filled (.cons (.same _) (.cons (.same _) .nil))), pool⟩

end TypedTables
