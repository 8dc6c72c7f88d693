import Mathlib.Data.List.Forall2
import Mathlib.Data.List.InsertIdx
import Mathlib.Data.List.Perm.Basic
import Mathlib.Logic.Relation
import TypedTables.Proofs.LineNumbers
import TypedTables.Proofs.LineText
import TypedTables.Proofs.ParsedDraft
/-!
# Layout

A source can be laid out in many ways: with blank lines and comments, with columns of comments,
with its directives at the top or elsewhere, with its header rows in any order. None of this shows
in the table.

Results:
* `parse_of_sameRows`: what a table depends on.
* `parse_of_layoutEdit`: one change of the layout.
* `parse_layoutEdits`: any number of changes.
-/
namespace TypedTables

open TypedTables.Text (isBlankText)

/-! ## Changes of the layout -/

/-- The cells are those of a header row. -/
def IsHeaderRow (cells : List String) : Prop := headerRow? (cells.headD "") ≠ none

def isDirective (line : String) : Bool := (directiveCells? line).isSome

/-- `line'` is `line`, with one more cell at place `k` if it is a content line. -/
inductive AddsCell (k : Nat) : String → String → Prop where
  | other {line : String} (h : contentCells? line = none) : AddsCell k line line
  | content {line : String} {cells : List String} (h : contentCells? line = some cells)
      {cell : List Char} (plain : PlainCell cell) : AddsCell k line (insertCell k cell line)

/-- One change of the layout of a source; `named` if the source has a row of field names. -/
inductive LayoutEdit (named : Prop) : List String → List String → Prop where
  /-- line feeds and carriage returns after a line -/
  | lineEnd (before : List String) (line : String) (after : List String) {ending : List Char}
      (h : ∀ c ∈ ending, isLineEnd c) :
      LayoutEdit named (before ++ line :: after)
        (before ++ (line ++ String.ofList ending) :: after)
  /-- a line that is blank or begins as a comment does -/
  | noise (before : List String) {line : String} (after : List String)
      (h : isBlankText line.toList ∨ isComment line.toList) :
      LayoutEdit named (before ++ after) (before ++ line :: after)
  /-- directives in another order and between other lines -/
  | directives {lines lines' : List String}
      (moved : (lines.filter isDirective).Perm (lines'.filter isDirective))
      (others : (lines.filter fun l => !isDirective l) = lines'.filter fun l => !isDirective l) :
      LayoutEdit named lines lines'
  /-- a column of comments after the first column -/
  | column {before after after' : List String} {first : String} {cells : List String} {k : Nat}
      {cell : List Char} (start : contentsOf before = [])
      (content : contentCells? first = some cells) (pos : 1 ≤ k) (inside : k ≤ cells.length)
      (plain : PlainCell cell) (comment : (cleanCell cell).head? = some '#')
      (rest : List.Forall₂ (AddsCell k) after after') :
      LayoutEdit named (before ++ first :: after) (before ++ insertCell k cell first :: after')
  /-- a row of empty cells after the first content line -/
  | emptyRow {before : List String} {line : String} (after : List String) {first : List String}
      (start : (contentsOf before).head? = some first)
      (width : (cutCells line).length = first.length)
      (empty : ∀ cell ∈ cutCells line, cleanCell cell = []) :
      LayoutEdit named (before ++ after) (before ++ line :: after)
  /-- header rows in another order -/
  | header {before block block' : List String} (after : List String) {names : List String}
      {hs : List (List String)} (fields : named) (first : rowsOf (contentsOf before) = [names])
      (rows : rowsOf (contentsOf (before ++ block)) = names :: hs)
      (header : ∀ cells ∈ hs, IsHeaderRow cells) (p : block.Perm block') :
      LayoutEdit named (before ++ block ++ after) (before ++ block' ++ after)

/-! ## What a table depends on -/

theorem Outline.Told.alike {o o' : Outline} {said : List Saying} (h : o.Told said)
    (h' : o'.Told said) (width : o.width = o'.width) : o.Alike o' where
  format := Option.ext fun ⟨f, name⟩ => (h.format f name).trans (h'.format f name).symm
  directives d := Option.ext fun a => (h.directives d a).trans (h'.directives d a).symm
  width := width

/-- The lines have the same directives, and content of the same width besides comments. -/
structure SameFrame (lines lines' : List String) : Prop where
  directives : (directivesOf lines).Perm (directivesOf lines')
  even : EvenLines (contentsOf lines')
  width : (marksOf (contentsOf lines)).count false = (marksOf (contentsOf lines')).count false

theorem Outline.Reads.width {o : Outline} {lines : List String} (h : o.Reads lines) :
    o.width = (marksOf (contentsOf lines)).count false := by
  rw [Outline.width, h.holds.comments, marksOf]

/-- A source with the same frame can be read as well, and its outline says the same. -/
theorem SameFrame.exists_read {lines lines' : List String} (h : SameFrame lines lines')
    {o : Outline} (ho : Outline.read lines = .ok (some o)) :
    ∃ o', Outline.read lines' = .ok (some o') ∧ o'.Reads lines' ∧ o.Alike o' := by
  have reads := Outline.reads_of_read ho
  obtain ⟨said, hsaid, told⟩ := reads.told
  obtain ⟨known, rfl⟩ := map_eq_map_some_iff.1 hsaid
  have told := told.perm (h.directives.filterMap saying?)
  have hsaid' := map_eq_map_some_iff.2
    ⟨fun cells hc => known cells (h.directives.mem_iff.2 hc), rfl⟩
  obtain ⟨o', ho'⟩ := Outline.exists_read hsaid' told.nodup h.even
  have reads' := Outline.reads_of_read ho'
  obtain ⟨said', hsaid'', told'⟩ := reads'.told
  obtain ⟨-, rfl⟩ := map_eq_map_some_iff.1 hsaid''
  exact ⟨o', ho', reads', told.alike told' (by rw [reads.width, reads'.width, h.width])⟩

/-- **Dependence.** A table depends on the frame of its source and on its rows only. -/
theorem parse_of_sameRows {lines lines' : List String} {name source : String} {d : Draft}
    (h : Draft.parse lines name source = .ok (some d)) (frame : SameFrame lines lines')
    (rows : rowsOf (contentsOf lines) = rowsOf (contentsOf lines')) :
    Draft.parse lines' name source = .ok (some d) := by
  obtain ⟨o, ho, hd⟩ := Draft.parse_eq_some_iff.1 h
  obtain ⟨o', ho', reads', alike⟩ := frame.exists_read ho
  have hrows : List.Forall₂ Row.Alike o.rows o'.rows := by
    rw [alike_iff, (Outline.reads_of_read ho).holds.rows, reads'.holds.rows, rows]
  obtain ⟨_, hd', rfl⟩ := ofOutline_follows alike (readRecords_threads _ hrows)
    (fun _ => readGrid_threads alike.directives hrows) _ _ d hd
  exact Draft.parse_eq_some_iff.2 ⟨o', ho', hd'⟩

/-- What is said when a source has been parsed: its content lines are equally long. -/
theorem evenLines_of_parse {lines : List String} {name source : String} {d : Draft}
    (h : Draft.parse lines name source = .ok (some d)) : EvenLines (contentsOf lines) := by
  obtain ⟨o, ho, -⟩ := Draft.parse_eq_some_iff.1 h
  exact (Outline.reads_of_read ho).holds.even

/-! ## Lines -/

theorem directivesOf_append (lines more : List String) :
    directivesOf (lines ++ more) = directivesOf lines ++ directivesOf more := List.filterMap_append

theorem contentsOf_append (lines more : List String) :
    contentsOf (lines ++ more) = contentsOf lines ++ contentsOf more := List.filterMap_append

/-- The first content line tells of the lines after it which of their columns are comments. -/
theorem marksOf_contentsOf_append {head : List String} (ne : contentsOf head ≠ [])
    (lines : List String) : marksOf (contentsOf (head ++ lines)) = marksOf (contentsOf head) := by
  rw [contentsOf_append, marksOf_append ne]

theorem rowsOf_contentsOf_append {head : List String} (ne : contentsOf head ≠ [])
    (lines : List String) : rowsOf (contentsOf (head ++ lines)) =
      rowsOf (contentsOf head) ++ keptRows (marksOf (contentsOf head)) (contentsOf lines) := by
  rw [contentsOf_append, rowsOf_append ne]

theorem contentsOf_cons {line : String} {cells : List String} (h : contentCells? line = some cells)
    (lines : List String) : contentsOf (line :: lines) = cells :: contentsOf lines :=
  List.filterMap_cons_some h

theorem directivesOf_insert {line : String} (h : directiveCells? line = none)
    (before after : List String) :
    directivesOf (before ++ line :: after) = directivesOf (before ++ after) := by
  rw [directivesOf_append, directivesOf_append, directivesOf, directivesOf, directivesOf,
    List.filterMap_cons_none h]

/-- Lines that are for the same give the same table. -/
theorem parse_of_sameLines {lines lines' : List String} {name source : String} {d : Draft}
    (h : Draft.parse lines name source = .ok (some d))
    (directives : (directivesOf lines).Perm (directivesOf lines'))
    (contents : contentsOf lines = contentsOf lines') :
    Draft.parse lines' name source = .ok (some d) :=
  parse_of_sameRows h ⟨directives, contents ▸ evenLines_of_parse h, by rw [contents]⟩ (by rw [contents])

/-- A line that is noise is not noticed. -/
theorem parse_of_noise {before after : List String} {line name source : String} {d : Draft}
    (h : Draft.parse (before ++ after) name source = .ok (some d)) (noise : Line.of line = .noise) :
    Draft.parse (before ++ line :: after) name source = .ok (some d) := by
  refine parse_of_sameLines h ?_ ?_
  · rw [directivesOf_insert (by rw [directiveCells?, noise])]
  · rw [contentsOf_append, contentsOf_append, contentsOf, contentsOf, contentsOf,
      List.filterMap_cons_none (by rw [contentCells?, noise])]

/-- The end of a line is not noticed. -/
theorem parse_of_lineEnd {before after : List String} {line name source : String} {d : Draft}
    (h : Draft.parse (before ++ line :: after) name source = .ok (some d)) {ending : List Char}
    (he : ∀ c ∈ ending, isLineEnd c) :
    Draft.parse (before ++ (line ++ String.ofList ending) :: after) name source = .ok (some d) := by
  have same := Line.of_append_lineEnd line he
  refine parse_of_sameLines h ?_ ?_
  · simp only [directivesOf, List.filterMap_append, List.filterMap_cons, directiveCells?, same]
    exact .refl _
  · simp only [contentsOf, List.filterMap_append, List.filterMap_cons, contentCells?, same]

theorem directivesOf_eq (lines : List String) :
    directivesOf lines = (lines.filter isDirective).filterMap directiveCells? := by
  rw [directivesOf, List.filterMap_filter]
  refine List.filterMap_congr fun line _ => ?_
  cases h : directiveCells? line <;> simp [isDirective, h]

theorem contentsOf_eq (lines : List String) :
    contentsOf lines = (lines.filter fun line => !isDirective line).filterMap contentCells? := by
  rw [contentsOf, List.filterMap_filter]
  refine List.filterMap_congr fun line _ => ?_
  unfold isDirective directiveCells? contentCells?
  cases Line.of line <;> rfl

/-- **Directives.** It does not matter where they stand. -/
theorem parse_of_directives {lines lines' : List String} {name source : String} {d : Draft}
    (h : Draft.parse lines name source = .ok (some d))
    (moved : (lines.filter isDirective).Perm (lines'.filter isDirective))
    (others : (lines.filter fun l => !isDirective l) = lines'.filter fun l => !isDirective l) :
    Draft.parse lines' name source = .ok (some d) := by
  refine parse_of_sameLines h ?_ ?_
  · rw [directivesOf_eq, directivesOf_eq]
    exact moved.filterMap _
  · rw [contentsOf_eq, contentsOf_eq, others]

/-! ## Columns of comments -/

/-- With one more cell at place `k`. -/
def Widened (k : Nat) (cells cells' : List String) : Prop := ∃ cell, cells' = cells.insertIdx k cell

theorem AddsCell.contents {k : Nat} (pos : 1 ≤ k) {lines lines' : List String}
    (h : List.Forall₂ (AddsCell k) lines lines') :
    List.Forall₂ (Widened k) (contentsOf lines) (contentsOf lines') := by
  induction h with
  | nil => exact .nil
  | cons adds _ ih =>
    cases adds with
    | other none =>
      rwa [contentsOf, contentsOf, List.filterMap_cons_none none, List.filterMap_cons_none none]
    | content some plain =>
      rw [contentsOf_cons some, contentsOf_cons (contentCells?_insertCell some pos plain)]
      exact .cons ⟨_, rfl⟩ ih

theorem AddsCell.directives {k : Nat} (pos : 1 ≤ k) {lines lines' : List String}
    (h : List.Forall₂ (AddsCell k) lines lines') : directivesOf lines = directivesOf lines' := by
  induction h with
  | nil => rfl
  | cons adds _ ih =>
    rw [directivesOf, directivesOf, List.filterMap_cons, List.filterMap_cons]
    rw [directivesOf, directivesOf] at ih
    cases adds with
    | other => rw [ih]
    | content some plain =>
      rw [directiveCells?_eq_none some,
        directiveCells?_eq_none (contentCells?_insertCell some pos plain)]
      exact ih

theorem commentMarks_insertIdx (k : Nat) (cells : List String) {cell : List Char}
    (comment : (cleanCell cell).head? = some '#') :
    commentMarks (cells.insertIdx k (cellText cell)) = (commentMarks cells).insertIdx k true := by
  rw [commentMarks, List.map_insertIdx, cellText, String.toList_ofList, comment]
  rfl

/-- A cell of a column of comments is dropped again. -/
theorem dropComments_insertIdx {marks : List Bool} {cells : List String}
    (even : cells.length = marks.length) (k : Nat) (cell : String) :
    dropComments (marks.insertIdx k true) (cells.insertIdx k cell) = dropComments marks cells := by
  induction k generalizing marks cells with
  | zero => rfl
  | succ k ih =>
    cases marks with
    | nil =>
      rw [List.eq_nil_of_length_eq_zero even]
      rfl
    | cons mark marks =>
      cases cells with
      | nil => cases even
      | cons first cells =>
        rw [List.insertIdx_succ_cons, List.insertIdx_succ_cons, dropComments, dropComments,
          List.zip_cons_cons, List.zip_cons_cons, List.filterMap_cons, List.filterMap_cons,
          ← dropComments, ← dropComments, ih (Nat.succ.inj even)]

/-- Content lines of one width still have one when each gets a cell of comment. -/
theorem Widened.frame {k : Nat} {marks : List Bool} (inside : k ≤ marks.length)
    {contents contents' : List (List String)} (h : List.Forall₂ (Widened k) contents contents')
    (even : ∀ cells ∈ contents, cells.length = marks.length) :
    (∀ cells ∈ contents', cells.length = (marks.insertIdx k true).length) ∧
      contents.map (dropComments marks) = contents'.map (dropComments (marks.insertIdx k true)) := by
  induction h with
  | nil => exact ⟨by simp, rfl⟩
  | cons wider _ ih =>
    obtain ⟨cell, rfl⟩ := wider
    rw [List.forall_mem_cons] at even
    obtain ⟨lengths, rows⟩ := ih even.2
    refine ⟨List.forall_mem_cons.2 ⟨?_, lengths⟩, ?_⟩
    · rw [List.length_insertIdx_of_le_length (even.1 ▸ inside),
        List.length_insertIdx_of_le_length inside, even.1]
    · rw [List.map_cons, List.map_cons, dropComments_insertIdx even.1, rows]

/-- **Comments.** A column of comments after the first column is not noticed. -/
theorem parse_of_column {before after after' : List String} {first name source : String}
    {cells : List String} {d : Draft} {k : Nat} {cell : List Char}
    (h : Draft.parse (before ++ first :: after) name source = .ok (some d))
    (start : contentsOf before = []) (content : contentCells? first = some cells) (pos : 1 ≤ k)
    (inside : k ≤ cells.length) (plain : PlainCell cell)
    (comment : (cleanCell cell).head? = some '#') (rest : List.Forall₂ (AddsCell k) after after') :
    Draft.parse (before ++ insertCell k cell first :: after') name source = .ok (some d) := by
  have even := evenLines_of_parse h
  have adds : List.Forall₂ (AddsCell k) (first :: after) (insertCell k cell first :: after') :=
    .cons (.content content plain) rest
  have contents : contentsOf (before ++ first :: after) = cells :: contentsOf after := by
    rw [contentsOf_append, start, List.nil_append, contentsOf_cons content]
  have contents' : contentsOf (before ++ insertCell k cell first :: after') =
      cells.insertIdx k (cellText cell) :: contentsOf after' := by
    rw [contentsOf_append, start, List.nil_append,
      contentsOf_cons (contentCells?_insertCell content pos plain)]
  have marks : marksOf (contentsOf (before ++ insertCell k cell first :: after')) =
      (marksOf (contentsOf (before ++ first :: after))).insertIdx k true := by
    rw [contents, contents']
    exact commentMarks_insertIdx k cells comment
  have width : k ≤ (marksOf (contentsOf (before ++ first :: after))).length := by
    rw [← even cells (by rw [contents]; exact List.mem_cons_self)]
    exact inside
  have wider : List.Forall₂ (Widened k) (contentsOf (before ++ first :: after))
      (contentsOf (before ++ insertCell k cell first :: after')) := by
    rw [contents, contents']
    exact .cons ⟨_, rfl⟩ (AddsCell.contents pos rest)
  obtain ⟨even', rows⟩ := Widened.frame width wider even
  refine parse_of_sameRows h ⟨?_, by rwa [EvenLines, marks], ?_⟩ ?_
  · rw [directivesOf_append, directivesOf_append, AddsCell.directives pos adds]
  · rw [marks, (List.perm_insertIdx true _ width).count_eq, List.count_cons_of_ne (by decide)]
  · rw [rowsOf, rowsOf, keptRows, keptRows, marks, rows]

/-! ## Empty rows -/

theorem dropComments_replicate (marks : List Bool) (n : Nat) :
    (dropComments marks (List.replicate n "")).all (· = "") := by
  rw [List.all_eq_true]
  intro cell hc
  obtain ⟨⟨mark, text⟩, hp, hcell⟩ := List.mem_filterMap.1 hc
  have empty := List.eq_of_mem_replicate (List.of_mem_zip hp).2
  split at hcell
  · cases hcell
  · cases hcell
    exact decide_eq_true empty

/-- **Empty rows.** A row of empty cells after the first content line is not noticed. -/
theorem parse_of_emptyRow {before after : List String} {line name source : String} {d : Draft}
    (h : Draft.parse (before ++ after) name source = .ok (some d)) {first : List String}
    (start : (contentsOf before).head? = some first)
    (width : (cutCells line).length = first.length)
    (empty : ∀ cell ∈ cutCells line, cleanCell cell = []) :
    Draft.parse (before ++ line :: after) name source = .ok (some d) := by
  have ne : contentsOf before ≠ [] := fun none => by rw [none] at start; cases start
  have cells : (cutCells line).map cellText = List.replicate first.length "" := by
    rw [← width, List.map_eq_replicate_iff]
    intro cell hc
    rw [cellText, empty cell hc]
  rcases Line.of_emptyCells empty with noise | content
  · exact parse_of_noise h noise
  rw [cells] at content
  have even := evenLines_of_parse h
  have contents : contentsOf (before ++ line :: after) =
      contentsOf before ++ [List.replicate first.length ""] ++ contentsOf after := by
    rw [contentsOf_append, contentsOf_cons (by rw [contentCells?, content]), List.append_assoc,
      List.singleton_append]
  rw [contentsOf_append] at even
  have marks := marksOf_contentsOf_append ne (line :: after)
  rw [EvenLines, marksOf_append ne, List.forall_mem_append] at even
  refine parse_of_sameRows h ⟨?_, ?_, ?_⟩ ?_
  · rw [directivesOf_insert (by rw [directiveCells?, content])]
  · rw [EvenLines, marks, contents, List.forall_mem_append, List.forall_mem_append,
      List.forall_mem_singleton, List.length_replicate]
    exact ⟨⟨even.1, even.1 _ (List.mem_of_head? start)⟩, even.2⟩
  · rw [marks, contentsOf_append, marksOf_append ne]
  · have dropped : keptRows (marksOf (contentsOf before)) [List.replicate first.length ""] = [] := by
      rw [keptRows, List.map_singleton, List.filter_cons_of_neg, List.filter_nil]
      rw [dropComments_replicate]
      decide
    rw [contents, contentsOf_append, List.append_assoc, rowsOf_append ne, rowsOf_append ne,
      keptRows_append, dropped, List.nil_append]

/-! ## Header rows -/

theorem readColumns_nil {format : TableFormat} {header : Header} {first : Option Nat}
    {columns : List Column} {p p' : StringPool}
    (h : readColumns format header first [] p = .ok (columns, p')) : columns = [] := by
  unfold readColumns at h
  obtain ⟨_, _, -, h⟩ := interning_bind_eq_ok.1 h
  obtain ⟨_, _, -, h⟩ := interning_bind_eq_ok.1 h
  obtain ⟨_, _, -, h⟩ := interning_bind_eq_ok.1 h
  exact (interning_pure_eq_ok.1 h).1.symm

theorem takeFieldNames_headerless {format : TableFormat} {rows rest : List Row} {first : Option Nat}
    {names : List String} (headerless : isHeaderless format rows)
    (h : takeFieldNames format rows = .ok (first, names, rest)) : names = [] := by
  unfold takeFieldNames at h
  rw [if_pos headerless] at h
  cases rows with
  | nil =>
    cases h
    rfl
  | cons row rows =>
    dsimp only at h
    split at h
    · cases h
    · cases h
      rfl

/-- A table with fields names them in a row. -/
theorem columns_ofOutline {o : Outline} {name source : String} {d : Draft}
    (h : Draft.ofOutline o name source = .ok d) (fields : d.columns ≠ []) :
    o.tableFormat ≠ .grid ∧ ¬ isHeaderless o.tableFormat o.rows := by
  unfold Draft.ofOutline at h
  obtain ⟨_, -, h⟩ := bind_eq_ok.1 h
  dsimp only at h
  split at h
  · next kind hk =>
    obtain ⟨⟨records, pool⟩, hr, h⟩ := bind_eq_ok.1 h
    cases h
    refine ⟨fun grid => ?_, fun headerless => fields ?_⟩
    · rw [grid] at hk
      cases hk
    obtain ⟨first, names, rest, header, body, columns, p₁, named, content, hf, -, hc, -, -, rfl⟩ :=
      readRecords_eq_ok hr
    obtain rfl := takeFieldNames_headerless headerless hf
    obtain rfl := readColumns_nil hc
    rfl
  · obtain ⟨_, -, h⟩ := bind_eq_ok.1 h
    cases h
    exact absurd rfl fields

/-- Rows whose cells come in another order are, in another order, rows with the same cells. -/
theorem exists_perm_of_cells {hs hs' : List Row}
    (p : (hs.map Row.cells).Perm (hs'.map Row.cells)) :
    ∃ mid, hs.Perm mid ∧ List.Forall₂ Row.Alike mid hs' := by
  have moved : (Relation.Comp (fun cells rows => cells = List.map Row.cells rows) List.Perm)
      (hs'.map Row.cells) hs := by
    rw [List.eq_map_comp_perm]
    exact p.symm
  obtain ⟨mid, same, perm⟩ := moved
  exact ⟨mid, perm.symm, alike_iff.2 same.symm⟩

/-- Header rows after the row of field names. -/
theorem readRecords_threads_header {format : TableFormat} {rows rows' : List Row}
    {names : List String} {hs hs' rest : List (List String)}
    (fields : ¬ isHeaderless format rows) (hrows : rows.map Row.cells = names :: (hs ++ rest))
    (hrows' : rows'.map Row.cells = names :: (hs' ++ rest))
    (header : ∀ cells ∈ hs, IsHeaderRow cells) (p : hs.Perm hs') :
    Threads Eq (readRecords format rows) (readRecords format rows') := by
  obtain ⟨r, rows, rfl, hr, hrows⟩ := List.map_eq_cons_iff.1 hrows
  obtain ⟨r', rows', rfl, hr', hrows'⟩ := List.map_eq_cons_iff.1 hrows'
  obtain ⟨heads, body, rfl, rfl, rfl⟩ := List.map_eq_append_iff.1 hrows
  obtain ⟨heads', body', rfl, rfl, hbody⟩ := List.map_eq_append_iff.1 hrows'
  obtain ⟨mid, perm, same⟩ := exists_perm_of_cells p
  have alike : r.Alike r' := hr.trans hr'.symm
  refine readRecords_threads_of format ((takeFieldNames_cons_follows alike fields _).imp ?_)
  rintro ⟨_, names, _⟩ ⟨_, _, _⟩ ⟨e, rfl, rfl⟩
  refine ⟨e, ((takeHeader_perm perm (fun h hh => ?_) body (.refl _)).trans
    (takeHeader_follows (.refl _) (List.rel_append same (alike_iff.2 hbody.symm)))).imp
    SameHeader.trans⟩
  have head : IsHeaderRow h.cells := header _ (List.mem_map_of_mem hh)
  rwa [IsHeaderRow, List.headD_eq_head?_getD, List.head?_eq_some_head h.cells_ne_nil] at head

/-- **Header rows.** Their order does not show in a table with fields. -/
theorem parse_of_header {before block block' after : List String} {name source : String}
    {d : Draft} (h : Draft.parse (before ++ block ++ after) name source = .ok (some d))
    (fields : d.columns ≠ []) {names : List String} {hs : List (List String)}
    (first : rowsOf (contentsOf before) = [names])
    (rows : rowsOf (contentsOf (before ++ block)) = names :: hs)
    (header : ∀ cells ∈ hs, IsHeaderRow cells) (p : block.Perm block') :
    Draft.parse (before ++ block' ++ after) name source = .ok (some d) := by
  have ne : contentsOf before ≠ [] := fun none => by rw [none] at first; cases first
  -- the rows of a source that begins with the same content lines
  have rowsOf_eq : ∀ lines, rowsOf (contentsOf (before ++ lines)) =
      names :: keptRows (marksOf (contentsOf before)) (contentsOf lines) := fun lines => by
    rw [rowsOf_contentsOf_append ne, first, List.singleton_append]
  have marks := marksOf_contentsOf_append ne
  have moved : (before ++ block ++ after).Perm (before ++ block' ++ after) :=
    (p.append_left before).append_right after
  have even := evenLines_of_parse h
  rw [rowsOf_eq, List.cons.injEq, and_iff_right rfl] at rows
  have frame : SameFrame (before ++ block ++ after) (before ++ block' ++ after) := by
    refine ⟨moved.filterMap _, fun cells hc => ?_, ?_⟩
    · rw [List.append_assoc, marks, ← marks (block ++ after), ← List.append_assoc]
      exact even cells ((moved.filterMap contentCells?).mem_iff.2 hc)
    · rw [List.append_assoc, List.append_assoc, marks, marks]
  obtain ⟨o, ho, hd⟩ := Draft.parse_eq_some_iff.1 h
  obtain ⟨o', ho', reads', alike⟩ := frame.exists_read ho
  obtain ⟨records, named⟩ := columns_ofOutline hd fields
  have hrows := (Outline.reads_of_read ho).holds.rows
  have hrows' := reads'.holds.rows
  rw [List.append_assoc, rowsOf_eq, contentsOf_append, keptRows_append] at hrows hrows'
  rw [rows] at hrows
  obtain ⟨_, hd', rfl⟩ := ofOutline_follows alike
    (readRecords_threads_header named hrows hrows' header
      (rows ▸ ((p.filterMap contentCells?).map _).filter _))
    (fun grid => absurd grid records) _ _ d hd
  exact Draft.parse_eq_some_iff.2 ⟨o', ho', hd'⟩

/-! ## Any changes -/

/-- **One change.** It does not show in the table. -/
theorem parse_of_layoutEdit {lines lines' : List String} {name source : String} {d : Draft}
    (h : Draft.parse lines name source = .ok (some d))
    (edit : LayoutEdit (d.columns ≠ []) lines lines') :
    Draft.parse lines' name source = .ok (some d) := by
  cases edit with
  | lineEnd before line after he => exact parse_of_lineEnd h he
  | noise before after noise => exact parse_of_noise h (Line.of_noise noise)
  | directives moved others => exact parse_of_directives h moved others
  | column start content pos inside plain comment rest =>
    exact parse_of_column h start content pos inside plain comment rest
  | emptyRow after start width empty => exact parse_of_emptyRow h start width empty
  | header after fields first rows header p => exact parse_of_header h fields first rows header p

/-- **Layout.** However often a source is laid out anew, its table stays the same. -/
theorem parse_layoutEdits {lines lines' : List String} {name source : String} {d : Draft}
    (h : Draft.parse lines name source = .ok (some d))
    (edits : Relation.ReflTransGen (LayoutEdit (d.columns ≠ [])) lines lines') :
    Draft.parse lines' name source = .ok (some d) := by
  induction edits with
  | refl => exact h
  | tail _ edit ih => exact parse_of_layoutEdit ih edit

/-- A table of one peak, and the same table with its header rows in another order, its directive at
the end, a column of comments, an empty row, a comment line and another line end. -/
theorem peak_layoutEdits : ∃ d,
    Draft.parse ["@DB_ENTITIES", "\tm", "Type\tINT", "Default\t0", "Eiger\t3967"] "Peak" =
      .ok (some d) ∧ d.columns ≠ [] ∧
    Draft.parse ["# a peak", "\t#\tm", "\"\"\t\t'", "Default\t\t0", "Type\t\tINT",
      "Eiger\tAlps\t3967", "@DB_ENTITIES\r\n"] "Peak" = .ok (some d) := by
  have run : ((Draft.parse ["@DB_ENTITIES", "\tm", "Type\tINT", "Default\t0", "Eiger\t3967"]
      "Peak").toOption.map fun d => d.map fun d => d.columns.map Column.name) =
      some (some ["m"]) := by
    decide +kernel
  obtain ⟨d, h, hd⟩ := toOption_map_eq_some.1 run
  obtain ⟨d, rfl, hd⟩ := Option.map_eq_some_iff.1 hd
  have fields : d.columns ≠ [] := fun none => by simp [none] at hd
  have header : LayoutEdit (d.columns ≠ [])
      (["@DB_ENTITIES", "\tm"] ++ ["Type\tINT", "Default\t0"] ++ ["Eiger\t3967"])
      (["@DB_ENTITIES", "\tm"] ++ ["Default\t0", "Type\tINT"] ++ ["Eiger\t3967"]) :=
    .header _ fields (show rowsOf _ = [["", "m"]] by decide +kernel)
      (show rowsOf _ = _ :: [["Type", "INT"], ["Default", "0"]] by decide +kernel)
      (by unfold IsHeaderRow; decide +kernel) (.swap ..)
  have directives : LayoutEdit (d.columns ≠ [])
      ["@DB_ENTITIES", "\tm", "Default\t0", "Type\tINT", "Eiger\t3967"]
      ["\tm", "Default\t0", "Type\tINT", "Eiger\t3967", "@DB_ENTITIES"] :=
    .directives (by decide +kernel) (by decide +kernel)
  have column : LayoutEdit (d.columns ≠ [])
      ([] ++ "\tm" :: ["Default\t0", "Type\tINT", "Eiger\t3967", "@DB_ENTITIES"])
      ([] ++ insertCell 1 ['#'] "\tm" :: [insertCell 1 [] "Default\t0",
        insertCell 1 [] "Type\tINT", insertCell 1 "Alps".toList "Eiger\t3967", "@DB_ENTITIES"]) := by
    refine .column rfl (show _ = some ["", "m"] by decide +kernel) (by decide) (by decide)
      (by decide) (by decide) ?_
    refine .cons (.content (show _ = some ["Default", "0"] by decide +kernel) nofun)
      (.cons (.content (show _ = some ["Type", "INT"] by decide +kernel) nofun)
      (.cons (.content (show _ = some ["Eiger", "3967"] by decide +kernel) (by decide +kernel))
      (.cons (.other (by decide +kernel)) .nil)))
  have wide : insertCell 1 ['#'] "\tm" = "\t#\tm" ∧ insertCell 1 [] "Default\t0" = "Default\t\t0" ∧
      insertCell 1 [] "Type\tINT" = "Type\t\tINT" ∧
      insertCell 1 "Alps".toList "Eiger\t3967" = "Eiger\tAlps\t3967" := by
    decide +kernel
  rw [wide.1, wide.2.1, wide.2.2.1, wide.2.2.2] at column
  have emptyRow : LayoutEdit (d.columns ≠ [])
      (["\t#\tm"] ++ ["Default\t\t0", "Type\t\tINT", "Eiger\tAlps\t3967", "@DB_ENTITIES"])
      (["\t#\tm"] ++ "\"\"\t\t'" ::
        ["Default\t\t0", "Type\t\tINT", "Eiger\tAlps\t3967", "@DB_ENTITIES"]) :=
    .emptyRow _ (show _ = some ["", "#", "m"] by decide +kernel) (by decide +kernel)
      (by decide +kernel)
  have noise : ∀ lines, LayoutEdit (d.columns ≠ []) ([] ++ lines) ([] ++ "# a peak" :: lines) :=
    fun lines => .noise _ lines (.inr (by decide +kernel))
  have lineEnd : ∀ lines, LayoutEdit (d.columns ≠ []) (lines ++ "@DB_ENTITIES" :: [])
      (lines ++ ("@DB_ENTITIES" ++ String.ofList ['\r', '\n']) :: []) :=
    fun lines => .lineEnd lines _ [] (by simp [isLineEnd])
  have edits := ((((Relation.ReflTransGen.single header).tail directives).tail column).tail
    emptyRow).tail (noise _)
  exact ⟨d, h, fields, parse_layoutEdits h (edits.tail (lineEnd ["# a peak", "\t#\tm", "\"\"\t\t'",
    "Default\t\t0", "Type\t\tINT", "Eiger\tAlps\t3967"]))⟩

end TypedTables
