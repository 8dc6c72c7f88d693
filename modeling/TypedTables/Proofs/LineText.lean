import Mathlib.Data.List.DropRight
import Mathlib.Data.List.InsertIdx
import TypedTables.Proofs.OutlineText
/-!
# The text of a line

A line is cells with tabs between them, and then line feeds and carriage returns. What the line is
for depends on whether there is a cell with text in it and on how the first one begins; the end of
the line does not count.

Results:
* `join_cut`: every line is cells and an end.
* `Line.of_join`: what a line of given cells is for.
* `contentCells?_join`: when it is a content line.
* `contentCells?_insertCell`: a content line stays one when a cell is put after its first.
* `contentCells?_replaceCell`: a content line stays one when a cell after its first is replaced.
-/
namespace TypedTables

open TypedTables.Text (splitOn isBlank isBlankText)

/-! ## Ends of lines -/

/-- Line feeds and carriage returns end a line. -/
def isLineEnd (c : Char) : Bool := c == '\r' || c == '\n'

/-- The line feeds and carriage returns at the end. -/
def lineEnd (s : List Char) : List Char := s.rtakeWhile isLineEnd

theorem dropLineEnd_append_lineEnd (s : List Char) : dropLineEnd s ++ lineEnd s = s :=
  List.rdropWhile_append_rtakeWhile

theorem isLineEnd_of_mem_lineEnd {s : List Char} {c : Char} (h : c ∈ lineEnd s) : isLineEnd c :=
  List.mem_rtakeWhile_imp h

theorem dropLineEnd_append (s : List Char) {ending : List Char} (h : ∀ c ∈ ending, isLineEnd c) :
    dropLineEnd (s ++ ending) = dropLineEnd s := by
  show (s ++ ending).rdropWhile isLineEnd = s.rdropWhile isLineEnd
  induction ending using List.reverseRecOn with
  | nil => rw [List.append_nil]
  | append_singleton ending c ih =>
    rw [← List.append_assoc, List.rdropWhile_concat_pos _ _ _ (h c (by simp))]
    exact ih fun c hc => h c (List.mem_append_left _ hc)

theorem dropLineEnd_eq_self_iff {s : List Char} :
    dropLineEnd s = s ↔ ∀ c ∈ s.getLast?, ¬ isLineEnd c := by
  refine (List.rdropWhile_eq_self_iff (p := isLineEnd)).trans ?_
  constructor
  · intro h c hc
    obtain ⟨ne, rfl⟩ := List.mem_getLast?_eq_getLast hc
    exact h ne
  · exact fun h ne => h _ (List.getLast_mem_getLast? ne)

theorem getElem?_dropLineEnd {s : List Char} {i : Nat} {c : Char} (h : s[i]? = some c)
    (hc : isLineEnd c = false) : (dropLineEnd s)[i]? = some c := by
  rw [← dropLineEnd_append_lineEnd s, List.getElem?_append] at h
  split at h
  · exact h
  · rw [isLineEnd_of_mem_lineEnd (List.mem_of_getElem? h)] at hc
    cases hc

/-! ## Cells of a line -/

/-- The text of a cell of a line. -/
def cellText (s : List Char) : String := String.ofList (cleanCell s)

/-- Cells with tabs between them. -/
def joinCells (cells : List (List Char)) : List Char := ['\t'].intercalate cells

@[simp] theorem joinCells_singleton (cell : List Char) : joinCells [cell] = cell := by
  simp [joinCells, List.intercalate]

@[simp] theorem joinCells_cons_cons (cell cell' : List Char) (cells : List (List Char)) :
    joinCells (cell :: cell' :: cells) = cell ++ '\t' :: joinCells (cell' :: cells) := by
  simp [joinCells, List.intercalate]

theorem joinCells_concat (front : List (List Char)) (last : List Char) :
    joinCells (front ++ [last]) = front.flatMap (· ++ ['\t']) ++ last := by
  induction front with
  | nil => simp
  | cons cell front ih =>
    cases front with
    | nil => simp
    | cons cell' front =>
      rw [List.cons_append, List.cons_append, joinCells_cons_cons, ← List.cons_append, ih]
      simp

theorem splitOn_eq (sep : Char) (s : List Char) : splitOn sep s = s.splitOn sep := by
  induction s with
  | nil => rfl
  | cons c s ih =>
    rw [splitOn, List.splitOn_cons_eq_if_modifyHead, ih]
    by_cases h : c = sep
    · simp [h]
    · rw [if_neg h, if_neg (by simpa using h)]
      obtain ⟨piece, pieces, hp⟩ := List.exists_cons_of_ne_nil (List.splitOn_ne_nil sep s)
      rw [hp]
      rfl

theorem notMem_of_mem_splitOn {sep : Char} {s piece : List Char} (h : piece ∈ splitOn sep s) :
    sep ∉ piece := by
  induction s generalizing piece with
  | nil => simp_all [splitOn]
  | cons c s ih =>
    rw [splitOn] at h
    split at h
    · rcases List.mem_cons.1 h with rfl | h
      · exact List.not_mem_nil
      · exact ih h
    · next other =>
      obtain ⟨first, rest, hs⟩ := List.exists_cons_of_ne_nil (Text.splitOn_ne_nil sep s)
      rw [hs] at h ih
      rcases List.mem_cons.1 h with rfl | h
      · exact fun hm => (List.mem_cons.1 hm).elim (fun e => other e.symm) (ih List.mem_cons_self)
      · exact ih (List.mem_cons_of_mem _ h)

/-- Cells that can stand side by side in a line: they hold no tabs, and the last of them does not
run into the end of the line. -/
structure Joinable (cells : List (List Char)) : Prop where
  ne_nil : cells ≠ []
  tabless : ∀ cell ∈ cells, '\t' ∉ cell
  last : ∀ cell ∈ cells.getLast?, ∀ c ∈ cell.getLast?, ¬ isLineEnd c

namespace Joinable

theorem splitOn_join {cells : List (List Char)} (h : Joinable cells) :
    splitOn '\t' (joinCells cells) = cells := by
  rw [splitOn_eq]
  exact List.splitOn_intercalate '\t' h.tabless h.ne_nil

/-- The last character of a line of cells that are no line ends at the last place. -/
theorem getLast?_flatMap (front : List (List Char)) :
    ∀ c ∈ (front.flatMap (· ++ ['\t'])).getLast?, ¬ isLineEnd c := by
  rcases List.eq_nil_or_concat front with rfl | ⟨front, cell, rfl⟩
  · nofun
  · intro c hc
    rw [List.concat_eq_append, List.flatMap_append, List.flatMap_singleton, ← List.append_assoc,
      List.getLast?_concat, Option.mem_some_iff] at hc
    subst hc
    decide

theorem dropLineEnd_join {cells : List (List Char)} (h : Joinable cells) {ending : List Char}
    (he : ∀ c ∈ ending, isLineEnd c) : dropLineEnd (joinCells cells ++ ending) = joinCells cells := by
  rw [dropLineEnd_append _ he, dropLineEnd_eq_self_iff]
  obtain ⟨front, last, rfl⟩ := (List.eq_nil_or_concat cells).resolve_left h.ne_nil
  have hlast := h.last last (by simp)
  rw [List.concat_eq_append, joinCells_concat, List.getLast?_append]
  cases hl : last.getLast? with
  | none => exact getLast?_flatMap front
  | some c => rwa [hl] at hlast

end Joinable

/-- The cells of a line, as they stand there. -/
def cutCells (line : String) : List (List Char) := splitOn '\t' (dropLineEnd line.toList)

/-- **Lines.** A line is its cells and its end. -/
theorem join_cut (line : String) :
    String.ofList (joinCells (cutCells line) ++ lineEnd line.toList) = line := by
  rw [cutCells, joinCells, Text.intercalate_splitOn, dropLineEnd_append_lineEnd,
    String.ofList_toList]

theorem joinable_cut (line : String) : Joinable (cutCells line) where
  ne_nil := Text.splitOn_ne_nil _ _
  tabless _ := notMem_of_mem_splitOn
  last := by
    have dropped : ∀ c ∈ (joinCells (cutCells line)).getLast?, ¬ isLineEnd c := by
      rw [cutCells, joinCells, Text.intercalate_splitOn, ← dropLineEnd_eq_self_iff]
      exact List.rdropWhile_idempotent isLineEnd line.toList
    obtain ⟨front, last, hcut⟩ :=
      (List.eq_nil_or_concat (cutCells line)).resolve_left (Text.splitOn_ne_nil _ _)
    rw [List.concat_eq_append] at hcut
    rw [hcut, joinCells_concat] at dropped
    rw [hcut, List.getLast?_concat]
    rintro _ ⟨⟩ c hc
    exact dropped c (by rw [List.getLast?_append, hc]; rfl)

/-! ## What a line is for -/

/-- Cells with tabs between them are blank if each of them is. -/
theorem isBlankText_join (cells : List (List Char)) :
    isBlankText (joinCells cells) = cells.all isBlankText := by
  induction cells with
  | nil => rfl
  | cons cell cells ih =>
    cases cells with
    | nil => simp
    | cons cell' cells =>
      rw [joinCells_cons_cons, isBlankText, List.all_append, List.all_cons,
        show isBlank '\t' = true by decide, Bool.true_and, List.all_cons, ← ih]
      rfl

theorem isComment_iff (s : List Char) :
    isComment s ↔ s[0]? = some '#' ∨ (s[0]? = some '"' ∨ s[0]? = some '\'') ∧ s[1]? = some '#' := by
  unfold isComment
  rcases s with _ | ⟨c, _ | ⟨c', s⟩⟩
  · simp
  · split <;> simp_all
  · split <;> simp_all [or_imp]

/-- The first cell tells whether a line is a comment. -/
theorem isComment_join (cell : List Char) (cells : List (List Char)) :
    isComment (joinCells (cell :: cells)) = isComment cell := by
  cases cells with
  | nil => rw [joinCells_singleton]
  | cons cell' cells =>
    rw [joinCells_cons_cons, Bool.eq_iff_iff, isComment_iff, isComment_iff]
    rcases cell with _ | ⟨c, _ | ⟨c', cell⟩⟩ <;> simp

/-- **What a line is for.** -/
theorem Line.of_join {cell : List Char} {cells : List (List Char)} (h : Joinable (cell :: cells))
    {ending : List Char} (he : ∀ c ∈ ending, isLineEnd c) :
    Line.of (String.ofList (joinCells (cell :: cells) ++ ending)) =
      if (cell :: cells).all isBlankText ∨ isComment cell then .noise
      else if (cleanCell cell).head? = some '@' then .directive ((cell :: cells).map cellText)
      else .content ((cell :: cells).map cellText) := by
  have texts : lineCells (joinCells (cell :: cells)) = (cell :: cells).map cellText := by
    rw [lineCells, h.splitOn_join]
    rfl
  unfold Line.of
  dsimp only
  rw [String.toList_ofList, h.dropLineEnd_join he, isBlankText_join, isComment_join, texts,
    List.map_cons, List.head?_cons, Option.any_some, cellText, String.toList_ofList]
  simp only [decide_eq_true_eq]

/-- The line is one of content. -/
structure IsContent (cells : List (List Char)) : Prop extends Joinable cells where
  given : ¬ cells.all isBlankText
  noComment : ∀ cell ∈ cells.head?, ¬ isComment cell
  noDirective : ∀ cell ∈ cells.head?, (cleanCell cell).head? ≠ some '@'

theorem contentCells?_join {cells : List (List Char)} (h : Joinable cells) {ending : List Char}
    (he : ∀ c ∈ ending, isLineEnd c) {texts : List String} :
    contentCells? (String.ofList (joinCells cells ++ ending)) = some texts ↔
      IsContent cells ∧ texts = cells.map cellText := by
  obtain ⟨cell, cells, rfl⟩ := List.exists_cons_of_ne_nil h.ne_nil
  rw [contentCells?, Line.of_join h he]
  by_cases noise : (cell :: cells).all isBlankText ∨ isComment cell
  · rw [if_pos noise]
    refine iff_of_false (by simp) ?_
    rintro ⟨content, -⟩
    exact noise.elim content.given (content.noComment cell rfl)
  rw [not_or] at noise
  rw [if_neg (by simpa using noise)]
  by_cases directive : (cleanCell cell).head? = some '@'
  · rw [if_pos directive]
    refine iff_of_false (by simp) ?_
    rintro ⟨content, -⟩
    exact content.noDirective cell rfl directive
  · rw [if_neg directive]
    have content : IsContent (cell :: cells) :=
      ⟨h, noise.1, by rintro _ ⟨⟩; exact noise.2, by rintro _ ⟨⟩; exact directive⟩
    simp [content, eq_comm]

/-- **Content lines.** -/
theorem contentCells?_eq_some_iff {line : String} {texts : List String} :
    contentCells? line = some texts ↔
      IsContent (cutCells line) ∧ texts = (cutCells line).map cellText := by
  conv_lhs => rw [← join_cut line]
  exact contentCells?_join (joinable_cut line) fun _ => isLineEnd_of_mem_lineEnd

/-- A line of empty cells is noise or content. -/
theorem Line.of_emptyCells {line : String} (empty : ∀ cell ∈ cutCells line, cleanCell cell = []) :
    Line.of line = .noise ∨ Line.of line = .content ((cutCells line).map cellText) := by
  obtain ⟨cell, cells, hcut⟩ := List.exists_cons_of_ne_nil (joinable_cut line).ne_nil
  have ending : ∀ c ∈ lineEnd line.toList, isLineEnd c := fun _ => isLineEnd_of_mem_lineEnd
  have undirected : ([] : List Char).head? ≠ some '@' := nofun
  have ofJoin := Line.of_join (hcut ▸ joinable_cut line) ending
  rw [← hcut, join_cut, empty cell (hcut ▸ List.mem_cons_self), if_neg undirected] at ofJoin
  rw [ofJoin]
  exact ite_eq_or_eq ..

/-! ## One more cell -/

/-- The line with one more cell, at place `k`. -/
def insertCell (k : Nat) (cell : List Char) (line : String) : String :=
  String.ofList (joinCells ((cutCells line).insertIdx k cell) ++ lineEnd line.toList)

/-- A text that is cell of a line wherever it is put. -/
def PlainCell (cell : List Char) : Prop := ∀ c ∈ cell, c ≠ '\t' ∧ ¬ isLineEnd c

instance : DecidablePred PlainCell := fun cell =>
  decidable_of_iff (cell.all fun c => c != '\t' && !isLineEnd c) (by simp [PlainCell])

theorem getLast?_insertIdx {α : Type} (l : List α) (k : Nat) (a : α) :
    (l.insertIdx k a).getLast? = l.getLast? ∨ (l.insertIdx k a).getLast? = some a := by
  rw [List.getLast?_eq_getElem?, List.getLast?_eq_getElem?]
  grind [List.length_insertIdx]

theorem Joinable.insertIdx {cells : List (List Char)} (h : Joinable cells) (k : Nat)
    {cell : List Char} (plain : PlainCell cell) : Joinable (cells.insertIdx k cell) where
  ne_nil e := h.ne_nil (List.eq_nil_of_subset_nil (e ▸ List.subset_insertIdx cells k cell))
  tabless piece hp := by
    rcases List.eq_or_mem_of_mem_insertIdx hp with rfl | hp
    · exact fun ht => (plain _ ht).1 rfl
    · exact h.tabless piece hp
  last piece hp := by
    rcases getLast?_insertIdx cells k cell with e | e
    · exact h.last piece (e ▸ hp)
    · rw [e] at hp
      cases hp
      exact fun c hc => (plain c (List.mem_of_getLast? hc)).2

theorem IsContent.insertIdx {cells : List (List Char)} (h : IsContent cells) {k : Nat}
    (pos : 1 ≤ k) {cell : List Char} (plain : PlainCell cell) :
    IsContent (cells.insertIdx k cell) := by
  obtain ⟨k, rfl⟩ := Nat.exists_eq_add_of_le' pos
  refine ⟨h.toJoinable.insertIdx _ plain, fun blank => h.given ?_, ?_, ?_⟩
  · rw [List.all_eq_true] at blank ⊢
    exact fun piece hp => blank piece (List.subset_insertIdx _ _ _ hp)
  all_goals
    obtain ⟨first, rest, rfl⟩ := List.exists_cons_of_ne_nil h.ne_nil
    rw [List.insertIdx_succ_cons]
  · exact h.noComment
  · exact h.noDirective

/-- **One more cell.** A content line stays one when a cell is put after its first. -/
theorem contentCells?_insertCell {line : String} {texts : List String}
    (h : contentCells? line = some texts) {k : Nat} (pos : 1 ≤ k) {cell : List Char}
    (plain : PlainCell cell) :
    contentCells? (insertCell k cell line) = some (texts.insertIdx k (cellText cell)) := by
  obtain ⟨content, rfl⟩ := contentCells?_eq_some_iff.1 h
  rw [insertCell, contentCells?_join ((joinable_cut line).insertIdx k plain)
    fun _ => isLineEnd_of_mem_lineEnd]
  exact ⟨content.insertIdx pos plain, (List.map_insertIdx ..).symm⟩

/-! ## Another cell -/

/-- The line with another cell at place `k`. -/
def replaceCell (k : Nat) (cell : List Char) (line : String) : String :=
  String.ofList (joinCells ((cutCells line).set k cell) ++ lineEnd line.toList)

theorem cleanCell_of_isBlankText {s : List Char} (h : isBlankText s) : cleanCell s = [] := by
  have none : Text.trim s = [] := by
    rw [Text.trim, Text.dropAroundWhile, List.dropWhile_eq_nil_iff.2 (List.all_eq_true.1 h)]
    rfl
  rw [cleanCell, none]

/-- A cell can stand where it stands in other cells of as many. -/
theorem Joinable.set {cells cells' : List (List Char)} (h : Joinable cells) (h' : Joinable cells')
    (length : cells'.length = cells.length) {k : Nat} {cell : List Char}
    (hk : cells'[k]? = some cell) : Joinable (cells.set k cell) where
  ne_nil e := h.ne_nil ((List.set_eq_nil_iff ..).1 e)
  tabless piece hp := by
    rcases List.mem_or_eq_of_mem_set hp with hp | rfl
    · exact h.tabless piece hp
    · exact h'.tabless piece (List.mem_of_getElem? hk)
  last piece hp := by
    rw [List.getLast?_eq_getElem?, List.length_set] at hp
    by_cases at_end : k = cells.length - 1
    · subst at_end
      rw [List.getElem?_set_self (length ▸ (List.getElem?_eq_some_iff.1 hk).1)] at hp
      cases hp
      exact h'.last cell (by rw [List.getLast?_eq_getElem?, length]; exact hk)
    · rw [List.getElem?_set_ne at_end, ← List.getLast?_eq_getElem?] at hp
      exact h.last piece hp

/-- **Another cell.** A content line stays one with a cell of another line of as many cells, if that
is not the first and there is text beside it. -/
theorem contentCells?_replaceCell {line origin : String} {texts : List String}
    (h : contentCells? line = some texts) (length : (cutCells origin).length = texts.length)
    {k : Nat} (pos : 1 ≤ k) {cell : List Char} (hk : (cutCells origin)[k]? = some cell)
    (beside : ∃ i ≠ k, ∃ text, texts[i]? = some text ∧ text ≠ "") :
    contentCells? (replaceCell k cell line) = some (texts.set k (cellText cell)) := by
  obtain ⟨content, rfl⟩ := contentCells?_eq_some_iff.1 h
  rw [List.length_map] at length
  have joinable := (joinable_cut line).set (joinable_cut origin) length hk
  rw [replaceCell, contentCells?_join joinable fun _ => isLineEnd_of_mem_lineEnd]
  obtain ⟨first, rest, hcut⟩ := List.exists_cons_of_ne_nil content.ne_nil
  obtain ⟨k, rfl⟩ := Nat.exists_eq_add_of_le' pos
  refine ⟨⟨joinable, fun blank => ?_, ?_, ?_⟩, (List.map_set ..).symm⟩
  · obtain ⟨i, other, text, hi, given⟩ := beside
    rw [List.getElem?_map, Option.map_eq_some_iff] at hi
    obtain ⟨piece, hp, rfl⟩ := hi
    have mem : piece ∈ (cutCells line).set (k + 1) cell :=
      List.mem_of_getElem? (List.getElem?_set_ne (Ne.symm other) ▸ hp)
    exact given (by rw [cellText, cleanCell_of_isBlankText (List.all_eq_true.1 blank piece mem)])
  · have noComment := content.noComment
    rw [hcut] at noComment ⊢
    exact noComment
  · have noDirective := content.noDirective
    rw [hcut] at noDirective ⊢
    exact noDirective

/-! ## Other changes of a line -/

/-- The end of a line does not count. -/
theorem Line.of_append_lineEnd (line : String) {ending : List Char}
    (h : ∀ c ∈ ending, isLineEnd c) : Line.of (line ++ String.ofList ending) = Line.of line := by
  unfold Line.of
  rw [String.toList_append, String.toList_ofList, dropLineEnd_append _ h]

/-- Blank lines and lines that begin as comments do are noise. -/
theorem Line.of_noise {line : String}
    (h : isBlankText line.toList ∨ isComment line.toList) : Line.of line = .noise := by
  unfold Line.of
  refine if_pos (h.imp (fun blank => ?_) fun comment => ?_)
  · rw [isBlankText, List.all_eq_true] at blank ⊢
    exact fun c hc => blank c ((List.rdropWhile_prefix (p := isLineEnd) _).subset hc)
  · -- what begins a comment is not the end of a line
    rw [isComment_iff] at comment ⊢
    have stays : ∀ i c, line.toList[i]? = some c → isLineEnd c = false →
        (dropLineEnd line.toList)[i]? = some c := fun _ _ => getElem?_dropLineEnd
    exact comment.imp (stays _ _ · rfl) fun ⟨mark, hash⟩ =>
      ⟨mark.imp (stays _ _ · rfl) (stays _ _ · rfl), stays _ _ hash rfl⟩

end TypedTables
