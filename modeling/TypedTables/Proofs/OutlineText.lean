import Mathlib.Data.List.Nodup
import TypedTables.Proofs.Outcome
import TypedTables.Table.Outline
/-!
# What the lines of a source come to

A source is read line by line, yet its outline depends on two things only: on what the directive
lines say, in whatever order they say it, and on the cells of the content lines. Where lines stand
and what is between them is forgotten.

Results:
* `Outline.directive_eq_ok_iff`, `Outline.Told.say`: one directive line.
* `Outline.content_eq_ok_iff`, `Outline.Holds.content`: one content line.
* `Outline.reads_of_read`: what a source that is read has said.
* `Outline.exists_read`: what a source has to say to be read.
-/
namespace TypedTables

/-! ## Directives -/

/-- A step that answers for all of a list answers with a list. -/
theorem map_eq_map_some_iff {α β : Type} {f : α → Option β} {l : List α} {l' : List β} :
    l.map f = l'.map some ↔ (∀ a ∈ l, (f a).isSome) ∧ l' = l.filterMap f := by
  induction l generalizing l' with
  | nil => cases l' <;> simp
  | cons a l ih =>
    cases ha : f a with
    | none => cases l' <;> simp [ha]
    | some b =>
      cases l' with
      | nil => simp [ha]
      | cons b' l' =>
        rw [List.map_cons, List.map_cons, List.cons.injEq, ih, List.forall_mem_cons, ha,
          List.filterMap_cons_some ha, List.cons.injEq, Option.some.injEq, eq_comm (a := b)]
        exact ⟨fun ⟨hb, known, rest⟩ => ⟨⟨rfl, known⟩, hb, rest⟩,
          fun ⟨⟨_, known⟩, hb, rest⟩ => ⟨hb, known, rest⟩⟩

/-- What a directive line says. -/
inductive Saying where
  | format (format : TableFormat) (name : String)
  | directive (d : Directive) (argument : String)

/-- What it is about, the format or a directive. No source says two things about one topic. -/
def Saying.topic : Saying → Option Directive
  | .format .. => none
  | .directive d _ => some d

/-- What a directive line says; none if it is refused, or keeps the source from being parsed. -/
def saying? (cells : List String) : Option Saying :=
  match TableFormat.ofKeyword? (directiveParts cells).1 with
  | some format => some (.format format (directiveParts cells).2)
  | none =>
    match Directive.ofKeyword? (directiveParts cells).1 with
    | none => none
    | some .dontParse => none
    | some d =>
      let d := if d = .tableType then .dataType else d
      if d.needsArgument ∧ (directiveParts cells).2 = "" then none
      else some (.directive d (directiveParts cells).2)

namespace Outline

/-- The outline has something about a topic. -/
def knows (o : Outline) : Option Directive → Bool
  | none => o.format.isSome
  | some d => o.directives.contains d

/-- The outline after something more is said. -/
def say (o : Outline) : Saying → Outline
  | .format format name => { o with format := some (format, name) }
  | .directive d argument => { o with directives := o.directives.insert d argument }

/-- Something is taken down if nothing is known of its topic. -/
theorem say_eq_ok_iff (o : Outline) (s : Saying) (n : Nat) (fault : SourceFault) {o' : Outline} :
    (if o.knows s.topic then faultAt n fault else .ok (some (o.say s)) :
        Except Located (Option Outline)) = .ok (some o') ↔
      ∃ s', some s = some s' ∧ ¬ o.knows s'.topic ∧ o' = o.say s' := by
  simp only [Option.some.injEq, exists_eq_left']
  split
  · next known => exact ⟨fun e => (nomatch e), fun new => absurd known new.1⟩
  · next new => simp [new, eq_comm]

theorem directive_eq_ok_iff {o o' : Outline} {n : Nat} {cells : List String} :
    o.directive n cells = .ok (some o') ↔
      ∃ s, saying? cells = some s ∧ ¬ o.knows s.topic ∧ o' = o.say s := by
  unfold directive saying?
  generalize directiveParts cells = parts
  obtain ⟨keyword, argument⟩ := parts
  dsimp only
  -- nothing is said by a line that is refused, and the source is then not read
  have refused : ∀ {x : Except Located (Option Outline)}, (∀ o', x ≠ .ok (some o')) →
      (x = .ok (some o') ↔ ∃ s, (none : Option Saying) = some s ∧ ¬ o.knows s.topic ∧ o' = o.say s) :=
    fun h => ⟨fun e => absurd e (h o'), fun ⟨_, hs, _⟩ => by cases hs⟩
  have directive : ∀ d : Directive,
      (if o.directives.contains d then faultAt n (.secondDirective keyword)
        else if d.needsArgument ∧ argument = "" then faultAt n (.missingArgument keyword)
        else .ok (some { o with directives := o.directives.insert d argument })) = .ok (some o') ↔
      ∃ s, (if d.needsArgument ∧ argument = "" then none else some (Saying.directive d argument)) =
        some s ∧ ¬ o.knows s.topic ∧ o' = o.say s := by
    intro d
    by_cases given : d.needsArgument ∧ argument = ""
    · rw [if_pos given, if_pos given]
      exact refused fun _ h => by split at h <;> cases h
    · rw [if_neg given, if_neg given]
      exact say_eq_ok_iff o (.directive d argument) n _
  cases TableFormat.ofKeyword? keyword with
  | some format => exact say_eq_ok_iff o (.format format argument) n _
  | none =>
    cases Directive.ofKeyword? keyword with
    | none => exact refused fun _ h => by cases h
    | some d =>
      cases d with
      | dontParse => exact refused fun _ h => by cases h
      | _ => exact directive _

/-- The outline has been told just these things, one about each topic. -/
structure Told (o : Outline) (said : List Saying) : Prop where
  nodup : (said.map Saying.topic).Nodup
  format : ∀ f name, o.format = some (f, name) ↔ .format f name ∈ said
  directives : ∀ d argument, o.directives.get? d = some argument ↔ .directive d argument ∈ said

theorem Told.nothing : ({} : Outline).Told [] :=
  ⟨.nil, by simp, fun _ _ => iff_of_false (fun h => by cases h) List.not_mem_nil⟩

theorem Told.perm {o : Outline} {said said' : List Saying} (h : o.Told said)
    (p : said.Perm said') : o.Told said' where
  nodup := (p.map Saying.topic).nodup_iff.1 h.nodup
  format f name := (h.format f name).trans p.mem_iff
  directives d argument := (h.directives d argument).trans p.mem_iff

theorem Told.knows_iff {o : Outline} {said : List Saying} (h : o.Told said)
    (topic : Option Directive) : o.knows topic ↔ topic ∈ said.map Saying.topic := by
  rw [List.mem_map]
  cases topic with
  | none =>
    show o.format.isSome ↔ _
    rw [Option.isSome_iff_exists]
    constructor
    · rintro ⟨⟨f, name⟩, hf⟩
      exact ⟨_, (h.format f name).1 hf, rfl⟩
    · rintro ⟨s, hs, ht⟩
      cases s with
      | format f name => exact ⟨_, (h.format f name).2 hs⟩
      | directive => cases ht
  | some d =>
    show (o.directives.get? d).isSome ↔ _
    rw [Option.isSome_iff_exists]
    constructor
    · rintro ⟨argument, ha⟩
      exact ⟨_, (h.directives d argument).1 ha, rfl⟩
    · rintro ⟨s, hs, ht⟩
      cases s with
      | format => cases ht
      | directive d' argument =>
        cases ht
        exact ⟨_, (h.directives d argument).2 hs⟩

/-- Something new is said. -/
theorem Told.say {o : Outline} {said : List Saying} (h : o.Told said) {s : Saying}
    (new : s.topic ∉ said.map Saying.topic) : (o.say s).Told (said ++ [s]) := by
  have nodup : ((said ++ [s]).map Saying.topic).Nodup := by
    rw [List.map_append, List.map_singleton, ← List.concat_eq_append]
    exact List.Nodup.concat new h.nodup
  have other : ∀ s' ∈ said, s'.topic ≠ s.topic := fun s' hs' e => new (e ▸ List.mem_map_of_mem hs')
  cases s with
  | format f name =>
    refine ⟨nodup, fun f' name' => ?_, fun d argument => ?_⟩
    · have none : .format f' name' ∉ said := fun hm => other _ hm rfl
      simp [Outline.say, none, eq_comm]
    · simp [Outline.say, h.directives]
  | directive d argument =>
    refine ⟨nodup, fun f' name' => ?_, fun d' argument' => ?_⟩
    · simp [Outline.say, h.format]
    · rw [Outline.say, OrderedMap.get?_insert]
      by_cases hd : d = d'
      · subst hd
        have none : .directive d argument' ∉ said := fun hm => other _ hm rfl
        simp [none, eq_comm]
      · simp [hd, h.directives, Ne.symm hd]

end Outline

/-! ## Content -/

/-- Which cells of the first content line announce a column of comments. -/
def commentMarks (cells : List String) : List Bool := cells.map fun c => c.toList.head? = some '#'

/-- The comment columns of content lines. -/
def marksOf (contents : List (List String)) : List Bool := (contents.head?.map commentMarks).getD []

/-- The cells outside the marked columns, of the content lines that have any text there. -/
def keptRows (marks : List Bool) (contents : List (List String)) : List (List String) :=
  (contents.map (dropComments marks)).filter fun cells => !cells.all (· = "")

theorem keptRows_append (marks : List Bool) (contents more : List (List String)) :
    keptRows marks (contents ++ more) = keptRows marks contents ++ keptRows marks more := by
  rw [keptRows, List.map_append, List.filter_append, keptRows, keptRows]

/-- The rows of content lines: what they hold besides comments. -/
def rowsOf (contents : List (List String)) : List (List String) :=
  keptRows (marksOf contents) contents

/-- Content lines of one width. -/
def EvenLines (contents : List (List String)) : Prop :=
  ∀ cells ∈ contents, cells.length = (marksOf contents).length

namespace Outline

/-- The outline has just these content lines. -/
structure Holds (o : Outline) (contents : List (List String)) : Prop where
  even : EvenLines contents
  comments : o.comments = contents.head?.map commentMarks
  rows : o.rows.map Row.cells = rowsOf contents

theorem Holds.nothing : ({} : Outline).Holds [] := ⟨by simp [EvenLines], rfl, rfl⟩

end Outline

theorem marksOf_append {contents : List (List String)} (ne : contents ≠ [])
    (more : List (List String)) : marksOf (contents ++ more) = marksOf contents := by
  obtain ⟨cells, contents, rfl⟩ := List.exists_cons_of_ne_nil ne
  rfl

/-- The first content line decides how long the others have to be. -/
theorem evenLines_snoc {contents : List (List String)} {cells : List String} :
    EvenLines (contents ++ [cells]) ↔
      EvenLines contents ∧ cells.length = (marksOf (contents ++ [cells])).length := by
  by_cases ne : contents = []
  · subst ne
    simp [EvenLines]
  · rw [EvenLines, marksOf_append ne, List.forall_mem_append, List.forall_mem_singleton]
    rfl

/-- A content line is a row if it has any text. -/
theorem Row.map_ofCells? (n : Nat) (cells : List String) :
    (ofCells? n cells).toList.map Row.cells = [cells].filter fun cells => !cells.all (· = "") := by
  unfold ofCells?
  split
  · next empty => simp [empty]
  · next given => simp [given]

theorem rowsOf_append {contents : List (List String)} (ne : contents ≠ [])
    (more : List (List String)) :
    rowsOf (contents ++ more) = rowsOf contents ++ keptRows (marksOf contents) more := by
  rw [rowsOf, marksOf_append ne, keptRows_append, rowsOf]

theorem rowsOf_snoc (contents : List (List String)) (cells : List String) :
    rowsOf (contents ++ [cells]) =
      rowsOf contents ++ keptRows (marksOf (contents ++ [cells])) [cells] := by
  by_cases ne : contents = []
  · subst ne
    rfl
  · rw [rowsOf_append ne, marksOf_append ne]

namespace Outline

theorem Holds.marks {o : Outline} {contents : List (List String)} (h : o.Holds contents)
    (cells : List String) :
    o.comments.getD (commentMarks cells) = marksOf (contents ++ [cells]) := by
  rw [h.comments]
  cases contents <;> rfl

/-- A content line is taken if it is as long as the others. -/
theorem content_eq_ok_iff {o o' : Outline} {contents : List (List String)} (h : o.Holds contents)
    {n : Nat} {cells : List String} :
    o.content n cells = .ok o' ↔ EvenLines (contents ++ [cells]) ∧
      o' = { o with
        comments := some (marksOf (contents ++ [cells]))
        rows := o.rows ++
          (Row.ofCells? n (dropComments (marksOf (contents ++ [cells])) cells)).toList } := by
  rw [evenLines_snoc, and_iff_right h.even]
  unfold content
  rw [show (o.comments.getD (cells.map fun c => c.toList.head? = some '#')) = _ from h.marks cells]
  dsimp only
  split
  · next uneven => exact ⟨fun e => (nomatch e), fun e => absurd e.1 uneven⟩
  · next even => simp [not_not.1 even, eq_comm]

/-- A content line is added to those before it. -/
theorem Holds.content {o o' : Outline} {contents : List (List String)} (h : o.Holds contents)
    {n : Nat} {cells : List String} (hc : o.content n cells = .ok o') :
    o'.Holds (contents ++ [cells]) := by
  obtain ⟨even, rfl⟩ := (content_eq_ok_iff h).1 hc
  refine ⟨even, ?_, ?_⟩
  · cases contents <;> rfl
  · rw [List.map_append, h.rows, Row.map_ofCells?, rowsOf_snoc]
    rfl

/-- What has been told stays when a content line is taken. -/
theorem Told.content {o o' : Outline} {said : List Saying} (h : o.Told said) {n : Nat}
    {cells : List String} (hc : o.content n cells = .ok o') : o'.Told said := by
  unfold Outline.content at hc
  dsimp only at hc
  split at hc
  · cases hc
  · cases hc
    exact ⟨h.nodup, h.format, h.directives⟩

/-- The content lines stay when something is said. -/
theorem Holds.say {o : Outline} {contents : List (List String)} (h : o.Holds contents)
    (s : Saying) : (o.say s).Holds contents := by
  cases s <;> exact ⟨h.even, h.comments, h.rows⟩

end Outline

/-! ## Lines -/

/-- The cells of a directive line. -/
def directiveCells? (line : String) : Option (List String) :=
  match Line.of line with
  | .directive cells => some cells
  | _ => none

/-- The cells of a content line. -/
def contentCells? (line : String) : Option (List String) :=
  match Line.of line with
  | .content cells => some cells
  | _ => none

theorem directiveCells?_eq_none {line : String} {cells : List String}
    (h : contentCells? line = some cells) : directiveCells? line = none := by
  rw [contentCells?] at h
  rw [directiveCells?]
  split at h
  · next content => rw [content]
  · cases h

def directivesOf (lines : List String) : List (List String) := lines.filterMap directiveCells?

def contentsOf (lines : List String) : List (List String) := lines.filterMap contentCells?

namespace Outline

/-- The outline is that of the lines. -/
structure Reads (o : Outline) (lines : List String) : Prop where
  told : ∃ said, (directivesOf lines).map saying? = said.map some ∧ o.Told said
  holds : o.Holds (contentsOf lines)

theorem readFrom_eq_ok {o o' : Outline} {n : Nat} {lines : List String} {said : List Saying}
    {contents : List (List String)} (told : o.Told said) (holds : o.Holds contents)
    (h : o.readFrom n lines = .ok (some o')) :
    (∃ said', (directivesOf lines).map saying? = said'.map some ∧ o'.Told (said ++ said')) ∧
      o'.Holds (contents ++ contentsOf lines) := by
  induction lines generalizing o n said contents with
  | nil =>
    cases h
    exact ⟨⟨[], rfl, by rwa [List.append_nil]⟩,
      by rwa [contentsOf, List.filterMap_nil, List.append_nil]⟩
  | cons line rest ih =>
    unfold readFrom at h
    unfold directivesOf contentsOf
    rw [List.filterMap_cons, List.filterMap_cons, directiveCells?, contentCells?]
    cases hl : Line.of line with
    | noise =>
      rw [hl] at h
      exact ih told holds h
    | directive cells =>
      rw [hl] at h
      obtain ⟨next, hd, h⟩ := bind_eq_ok.1 h
      cases next with
      | none => cases h
      | some o₁ =>
        obtain ⟨s, hs, new, rfl⟩ := directive_eq_ok_iff.1 hd
        rw [told.knows_iff] at new
        obtain ⟨⟨said', hsaid, told'⟩, holds'⟩ := ih (told.say new) (holds.say s) h
        refine ⟨⟨s :: said', ?_, by rwa [List.append_cons]⟩, holds'⟩
        dsimp only
        rw [List.map_cons, List.map_cons, hs, ← hsaid]
        rfl
    | content cells =>
      rw [hl] at h
      obtain ⟨o₁, hc, h⟩ := bind_eq_ok.1 h
      obtain ⟨told', holds'⟩ := ih (told.content hc) (holds.content hc) h
      refine ⟨told', ?_⟩
      dsimp only
      rwa [List.append_cons]

/-- **What a source says.** -/
theorem reads_of_read {o : Outline} {lines : List String} (h : read lines = .ok (some o)) :
    o.Reads lines := by
  obtain ⟨⟨said, hsaid, told⟩, holds⟩ := readFrom_eq_ok .nothing .nothing h
  exact ⟨⟨said, hsaid, told⟩, holds⟩

theorem exists_readFrom {o : Outline} {lines : List String} {said said' : List Saying}
    {contents : List (List String)} (told : o.Told said) (holds : o.Holds contents)
    (hsaid : (directivesOf lines).map saying? = said'.map some)
    (nodup : ((said ++ said').map Saying.topic).Nodup)
    (even : EvenLines (contents ++ contentsOf lines)) (n : Nat) :
    ∃ o', o.readFrom n lines = .ok (some o') := by
  induction lines generalizing o n said said' contents with
  | nil => exact ⟨o, rfl⟩
  | cons line rest ih =>
    unfold readFrom
    unfold directivesOf at hsaid
    unfold contentsOf at even
    rw [List.filterMap_cons] at hsaid even
    rw [directiveCells?] at hsaid
    rw [contentCells?] at even
    cases hl : Line.of line with
    | noise =>
      rw [hl] at hsaid even
      exact ih told holds hsaid nodup even _
    | directive cells =>
      rw [hl] at hsaid even
      cases said' with
      | nil => cases hsaid
      | cons s said' =>
        rw [List.map_cons, List.map_cons, List.cons.injEq] at hsaid
        have new : s.topic ∉ said.map Saying.topic := by
          rw [List.map_append, List.nodup_append] at nodup
          exact fun hm => nodup.2.2 _ hm _ (by simp) rfl
        have hd : o.directive n cells = .ok (some (o.say s)) :=
          directive_eq_ok_iff.2 ⟨s, hsaid.1, by rwa [told.knows_iff], rfl⟩
        rw [List.append_cons] at nodup
        obtain ⟨o', ho'⟩ := ih (told.say new) (holds.say s) hsaid.2 nodup even (n + 1)
        exact ⟨o', bind_eq_ok.2 ⟨_, hd, ho'⟩⟩
    | content cells =>
      rw [hl] at hsaid even
      dsimp only at even
      rw [List.append_cons] at even
      have first : EvenLines (contents ++ [cells]) := by
        intro c hc
        rw [even c (List.mem_append_left _ hc), marksOf_append (by simp)]
      have hc := (content_eq_ok_iff (n := n) holds).2 ⟨first, rfl⟩
      obtain ⟨o', ho'⟩ := ih (told.content hc) (holds.content hc) hsaid nodup even (n + 1)
      exact ⟨o', bind_eq_ok.2 ⟨_, hc, ho'⟩⟩

/-- **When a source can be read.** Its directives are known and about different topics, and its
content lines are equally long. -/
theorem exists_read {lines : List String} {said : List Saying}
    (hsaid : (directivesOf lines).map saying? = said.map some)
    (nodup : (said.map Saying.topic).Nodup) (even : EvenLines (contentsOf lines)) :
    ∃ o, read lines = .ok (some o) :=
  exists_readFrom .nothing .nothing hsaid nodup even 1

end Outline

end TypedTables
