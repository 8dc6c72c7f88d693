import TypedTables.Proofs.ParsedDraft
/-!
# Outcomes of parsing

A reader of tables pairs names, types and cells by their places, looks directives up and exchanges
rows and columns. None of this can fail: rows are equally long (`Outline.Even`), and what a format
needs has been asked for before. So a source that is no table has a fault of its own.

Results:
* `readRecords_raises`, `readGrid_raises`: faults of the two kinds of content.
* `parse_outcome`: what becomes of the lines of a source.
-/
namespace TypedTables

/-- The fault is one that a source can have. -/
def Located.OfSource (e : Located) : Prop := e.fault ≠ .broken

theorem raises_faultAt {α : Type} {line : Nat} {fault : SourceFault} (h : fault ≠ .broken) :
    Raises Located.OfSource (faultAt line fault : Except Located α) :=
  .error h

theorem raises_faultIn {α : Type} {fault : SourceFault} (h : fault ≠ .broken) :
    Raises Located.OfSource (faultIn fault : Except Located α) :=
  .error h

/-! ## Outlines -/

namespace Outline

theorem directive_raises (o : Outline) (line : Nat) (cells : List String) :
    Raises Located.OfSource (o.directive line cells) := by
  unfold directive
  dsimp only
  split
  · split
    · exact raises_faultAt (by simp)
    · exact .ok _
  · split
    · exact raises_faultAt (by simp)
    · exact .ok _
    · rename_i d _ _
      generalize (if d = .tableType then Directive.dataType else d) = d'
      split
      · exact raises_faultAt (by simp)
      split
      · exact raises_faultAt (by simp)
      · exact .ok _

theorem content_raises (o : Outline) (line : Nat) (cells : List String) :
    Raises Located.OfSource (o.content line cells) := by
  unfold content
  dsimp only
  split
  · exact raises_faultAt (by simp)
  · exact .ok _

theorem readFrom_raises (o : Outline) (n : Nat) (lines : List String) :
    Raises Located.OfSource (o.readFrom n lines) := by
  induction lines generalizing o n with
  | nil => exact .ok _
  | cons line rest ih =>
    unfold readFrom
    split
    · exact ih _ _
    · refine .bind (directive_raises _ _ _) fun next _ => ?_
      cases next with
      | none => exact .ok _
      | some o => exact ih _ _
    · exact .bind (content_raises _ _ _) fun o _ => ih _ _

theorem checkDirectives_raises (o : Outline) : Raises Located.OfSource o.checkDirectives := by
  unfold checkDirectives
  dsimp only
  split
  · exact raises_faultIn (by simp)
  split
  · exact raises_faultIn (by simp)
  split
  · exact raises_faultIn (by simp)
  · exact .ok _

/-- A source that is not to be parsed says so in one of its lines. -/
theorem readFrom_eq_none {o : Outline} {n : Nat} {lines : List String}
    (h : o.readFrom n lines = .ok none) :
    ∃ line ∈ lines, ∃ cells, Line.of line = .directive cells ∧
      (directiveParts cells).1 = Directive.dontParse.keyword := by
  induction lines generalizing o n with
  | nil => cases h
  | cons line rest ih =>
    have later : ∀ {o : Outline}, o.readFrom (n + 1) rest = .ok none → ∃ line' ∈ line :: rest, ∃ cells,
        Line.of line' = .directive cells ∧ (directiveParts cells).1 = Directive.dontParse.keyword := by
      intro o h
      obtain ⟨line', hm, h⟩ := ih h
      exact ⟨line', List.mem_cons_of_mem _ hm, h⟩
    unfold readFrom at h
    split at h
    · exact later h
    · next cells hl =>
      obtain ⟨next, hd, h⟩ := bind_eq_ok.1 h
      cases next with
      | some o => exact later h
      | none =>
        refine ⟨line, List.mem_cons_self, cells, hl, ?_⟩
        unfold directive at hd
        dsimp only at hd
        split at hd
        · split at hd <;> cases hd
        · split at hd
          · cases hd
          · next hk => exact (by simpa using List.find?_some hk : _ = _).symm
          · rename_i d _ _
            generalize (if d = .tableType then Directive.dataType else d) = d' at hd
            split at hd
            · cases hd
            · split at hd <;> cases hd
    · obtain ⟨o, -, h⟩ := bind_eq_ok.1 h
      exact later h

end Outline

/-! ## Record tables -/

theorem takeHeader_raises (header : Header) (rows : List Row) :
    Raises Located.OfSource (takeHeader header rows) := by
  induction rows generalizing header with
  | nil => exact .ok _
  | cons row rest ih =>
    unfold takeHeader
    split
    · exact .ok _
    · split
      · exact raises_faultAt (by simp)
      · exact ih _

theorem checkFieldNames_raises (line : Nat) (seen names : List String) :
    Raises Located.OfSource (checkFieldNames line seen names) := by
  induction names generalizing seen with
  | nil => exact .ok _
  | cons name rest ih =>
    unfold checkFieldNames
    split
    · exact raises_faultAt (by simp)
    split
    · exact raises_faultAt (by simp)
    split
    · exact raises_faultAt (by simp)
    exact ih _

theorem takeFieldNames_raises (format : TableFormat) (rows : List Row) :
    Raises Located.OfSource (takeFieldNames format rows) := by
  have names : ∀ row : Row, Raises Located.OfSource (readFieldNames format row) := by
    intro row
    unfold readFieldNames
    dsimp only
    split
    · exact .bind (raises_faultAt (by simp)) fun _ _ =>
        .bind (checkFieldNames_raises _ _ _) fun _ _ => .ok _
    · exact .bind (checkFieldNames_raises _ _ _) fun _ _ => .ok _
  unfold takeFieldNames
  split
  · split
    · split
      · exact raises_faultAt (by simp)
      · exact .ok _
    · exact .ok _
  · split
    · exact raises_faultIn (by simp)
    · exact .bind (names _) fun _ _ => .ok _

theorem readTypes_raises (format : TableFormat) (header : Header) (first : Option Nat)
    (names : List String) : Raises Located.OfSource (readTypes format header first names) := by
  unfold readTypes
  split
  · refine .mapM fun p _ => ?_
    unfold readType
    split
    · split
      · exact .ok _
      · exact raises_faultAt (by simp)
    · split
      · exact .ok _
      · exact raises_faultAt (by simp)
  · split
    · exact .error (by simp [Located.OfSource])
    · exact .ok _

theorem readCellAt_raises (line : Option Nat) (type : FieldType) (affix : String) (default : Raw)
    (t : String) (p : StringPool) :
    Raises Located.OfSource (readCellAt line type affix default t p) :=
  .mapError fun e _ => by simp [Located.OfSource]

theorem readColumns_raises (format : TableFormat) (header : Header) (first : Option Nat)
    (names : List String) (p : StringPool) :
    Raises Located.OfSource (readColumns format header first names p) := by
  unfold readColumns
  dsimp only
  refine .interning_bind (.interning_lift (readTypes_raises _ _ _ _) _) fun types p₁ _ => ?_
  refine .interning_bind (.interning_mapM (fun a _ q => .interning_lift ?_ _) _) fun units p₂ _ => ?_
  · unfold readUnit
    split
    · exact .error (by simp [Located.OfSource])
    · exact .ok _
  refine .interning_bind (.interning_mapM (fun a _ q => .interning_lift ?_ _) _) fun _ p₃ _ => ?_
  · unfold readAffix
    split
    · exact .error (by simp [Located.OfSource])
    · exact .ok _
  exact .interning_mapM (fun a _ q => .interning_bind (readCellAt_raises _ _ _ _ _ _)
    fun _ _ _ => .ok _) _

/-- A row that is long enough has a cell for each column. -/
theorem readRow_raises {columns : List Column} {row : Row} (h : row.rest.length = columns.length)
    (p : StringPool) : Raises Located.OfSource (readRow columns row p) := by
  refine .interning_mapM (fun a ha q => .interning_bind (.interning_lift ?_ _) fun _ _ _ =>
    readCellAt_raises _ _ _ _ _ _) _
  have lt : a.2 < row.rest.length := by
    rw [h]
    simpa using (List.mem_zipIdx ha).2.1
  unfold Row.cell
  rw [List.getElem?_eq_getElem lt]
  exact .ok _

theorem readRows_raises {columns : List Column} {named : Bool} {affix : String}
    {seen : List String} {rows : List Row} (h : FitRows columns.length rows) (p : StringPool) :
    Raises Located.OfSource (readRows columns named affix seen rows p) := by
  induction rows generalizing seen p with
  | nil => exact .ok _
  | cons row rest ih =>
    have later : ∀ seen q, Raises Located.OfSource (readRows columns named affix seen rest q) :=
      fun seen q => ih (fun r hr => h r (List.mem_cons_of_mem _ hr)) q
    unfold readRows
    dsimp only
    split
    · exact .interning_bind (.interning_lift (raises_faultAt (by simp)) _) fun _ _ h => by cases h
    generalize (if named = true then affix ++ row.head else "") = name
    split
    · exact .interning_bind (.interning_lift (raises_faultAt (by simp)) _) fun _ _ h => by cases h
    exact .interning_bind (readRow_raises (h row List.mem_cons_self) _) fun _ _ _ =>
      .interning_bind (later _ _) fun _ _ _ => .ok _

theorem checkNaming_raises (format : TableFormat) (rows : List Row) :
    Raises Located.OfSource (checkNaming format rows) := by
  unfold checkNaming
  split
  · exact .ok _
  · dsimp only
    split
    · exact raises_faultAt (by simp)
    split
    · exact raises_faultAt (by simp)
    · exact .ok _

theorem readRecords_raises {format : TableFormat} {rows : List Row} {n : Nat}
    (hn : FitRows n rows) (p : StringPool) :
    Raises Located.OfSource (readRecords format rows p) := by
  unfold readRecords
  refine .interning_bind (.interning_lift (takeFieldNames_raises _ _) _) fun fields _ hf => ?_
  obtain ⟨first, names, rest⟩ := fields
  refine .interning_bind (.interning_lift (takeHeader_raises _ _) _) fun head p₁ hh => ?_
  obtain ⟨header, body⟩ := head
  obtain ⟨-, fit⟩ := takeFieldNames_fit hn (interning_lift_eq_ok.1 hf).1
  obtain ⟨head, fit⟩ := takeHeader_fit (fun _ _ hk => by cases hk) fit
    (interning_lift_eq_ok.1 hh).1
  refine .interning_bind (readColumns_raises _ _ _ _ _) fun columns p₂ hc => ?_
  have length : names.length = columns.length := by
    rw [← readColumns_names head hc, List.length_map]
  refine .interning_bind (.interning_lift (checkNaming_raises _ _) _) fun named p₃ _ => ?_
  exact .interning_bind (readRows_raises (length ▸ fit) _) fun _ _ _ => .ok _

/-! ## Grids -/

theorem readLayout_raises (header : Row) (rows : List Row) :
    Raises Located.OfSource (readLayout header rows) := by
  refine .bind ?_ fun _ _ => .ok _
  unfold readCorner
  split
  · exact .ok _
  · split
    · exact raises_faultAt (by simp)
    · exact .ok _

/-- Rows of one length can be exchanged with their columns. -/
theorem orientLayout_raises {l : Layout} (hl : l.Even) (directives : OrderedMap Directive String)
    (line : Nat) : Raises Located.OfSource (orientLayout directives line l) := by
  unfold orientLayout
  split
  · refine .bind ?_ fun _ _ => .ok _
    have even : l.cells.all (·.length == (l.cells.head?.map List.length).getD 0) := by
      rw [List.all_eq_true]
      intro row hr
      obtain ⟨first, rest, hcells⟩ := List.exists_cons_of_ne_nil (List.ne_nil_of_mem hr)
      have hfirst : first ∈ l.cells := by simp [hcells]
      simp [hl.row row hr, hcells, hl.row first hfirst]
    rw [exchange, if_pos even]
    exact .ok _
  · exact .ok _

theorem readAxisNames_raises (axis : Axis) (line : Nat) (affix : String) (names : List String) :
    Raises Located.OfSource (readAxisNames axis line affix names) := by
  have each : ∀ seen, Raises Located.OfSource (readAxis axis line affix seen names) := by
    induction names with
    | nil => exact fun _ => .ok _
    | cons name rest ih =>
      intro seen
      unfold readAxis
      dsimp only
      split
      · exact .bind (raises_faultAt (by simp)) fun _ h => by cases h
      split
      · exact .bind (raises_faultAt (by simp)) fun _ h => by cases h
      exact .bind (ih _) fun _ _ => .ok _
  unfold readAxisNames
  split
  · exact raises_faultAt (by simp)
  · exact each []

theorem readGridType_raises {directives : OrderedMap Directive String}
    (h : directives.contains .dataType) : Raises Located.OfSource (readGridType directives) := by
  obtain ⟨text, given⟩ := Option.isSome_iff_exists.1 h
  unfold readGridType
  rw [given]
  dsimp only
  split
  · exact .ok _
  · exact raises_faultIn (by simp)

theorem pairLines_raises {lines : List Nat} {cells : List (List String)}
    (h : lines.length = cells.length) : Raises Located.OfSource (pairLines lines cells) := by
  induction lines generalizing cells with
  | nil =>
    cases cells with
    | nil => exact .ok _
    | cons cell cells => cases h
  | cons line lines ih =>
    cases cells with
    | nil => cases h
    | cons cell cells => exact .map (ih (Nat.succ.inj h))

theorem readLaidOut_raises {directives : OrderedMap Directive String} {line : Nat} {l : Layout}
    (ht : directives.contains .dataType) (hl : l.columnNames ≠ [] → l.Even) (p : StringPool) :
    Raises Located.OfSource (readLaidOut directives line l p) := by
  unfold readLaidOut
  refine .interning_bind (.interning_lift (readAxisNames_raises _ _ _ _) _) fun _ _ _ => ?_
  refine .interning_bind (.interning_lift (readAxisNames_raises _ _ _ _) _) fun _ _ hc => ?_
  have even := hl (readAxisNames_eq_ok (interning_lift_eq_ok.1 hc).1).1
  refine .interning_bind (.interning_lift (readGridType_raises ht) _) fun type _ _ => ?_
  dsimp only
  split
  · exact .interning_bind (.interning_lift (raises_faultIn (by simp)) _) fun _ _ h => by cases h
  refine .interning_bind (readCellAt_raises _ _ _ _ _ _) fun _ _ _ => ?_
  refine .interning_bind (.interning_lift (pairLines_raises even.lines) _) fun _ _ _ => ?_
  exact .interning_bind (.interning_mapM (fun _ _ _ => .interning_mapM
    (fun _ _ _ => readCellAt_raises _ _ _ _ _ _) _) _) fun _ _ _ => .ok _

theorem readGrid_raises {directives : OrderedMap Directive String} {rows : List Row} {n : Nat}
    (ht : directives.contains .dataType) (hn : FitRows n rows) (p : StringPool) :
    Raises Located.OfSource (readGrid directives rows p) := by
  unfold readGrid
  split
  · exact .interning_lift (raises_faultIn (by simp)) _
  · refine .interning_bind (.interning_lift (readLayout_raises _ _) _) fun l _ hl => ?_
    have even := readLayout_even hn (interning_lift_eq_ok.1 hl).1
    refine .interning_bind (.interning_lift (orientLayout_raises even _ _) _) fun l' _ ho => ?_
    exact readLaidOut_raises ht (orientLayout_even even (interning_lift_eq_ok.1 ho).1) _

/-! ## Sources -/

namespace Draft

theorem ofOutline_raises {o : Outline} (even : o.Even) (name source : String) :
    Raises Located.OfSource (ofOutline o name source) := by
  unfold ofOutline
  refine .bind o.checkDirectives_raises fun _ directives => ?_
  dsimp only
  split
  · exact .bind (readRecords_raises even.fitRows _) fun _ _ => .ok _
  · next hk =>
    have needed := (Outline.checkDirectives_eq_ok directives).2 (recordKind?_eq_none hk)
    exact .bind (readGrid_raises needed even.fitRows _) fun _ _ => .ok _

/-- **Parsing.** The lines of a source are refused for a fault of the source, or one of them says
that it is not to be parsed, or they give a well-formed table. -/
theorem parse_outcome (lines : List String) (name source : String) :
    match parse lines name source with
    | .error e => e.fault ≠ .broken
    | .ok none => ∃ line ∈ lines, ∃ cells, Line.of line = .directive cells ∧
        (directiveParts cells).1 = Directive.dontParse.keyword
    | .ok (some d) => d.WellFormed := by
  cases h : parse lines name source with
  | ok draft =>
    cases draft with
    | some d => exact Parsed.wellFormed ⟨lines, name, source, h⟩
    | none =>
      obtain ⟨o, ho, h⟩ := bind_eq_ok.1 (mapError_eq_ok.1 h)
      cases o with
      | none => exact Outline.readFrom_eq_none ho
      | some o =>
        obtain ⟨d, -, h⟩ := map_eq_ok.1 h
        cases h
  | error e =>
    refine Raises.mapError (P := fun e : SourceError => e.fault ≠ .broken) (fun e he => ?_) e h
    refine Raises.bind (P := Located.OfSource) (Outline.readFrom_raises _ _ _) (fun o ho => ?_) e he
    cases o with
    | none => exact .ok _
    | some o => exact .map (ofOutline_raises (Outline.even_read ho) _ _)

end Draft

end TypedTables
