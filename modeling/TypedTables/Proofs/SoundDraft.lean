import TypedTables.Proofs.Outcome
import TypedTables.Table.Parse
/-!
# What a parsed table looks like

A draft that comes from a source is sound: its fields have different names, every column has
one cell a row, no cell is empty that a default could fill, and row names are distinct and
given for all rows or none.

All content lines of a source have the same number of cells once the comment columns are
dropped (`Outline.Even`). The header rows and the content rows are among them, so nothing is
lost where names, types and cells are paired up.

Results:
* `Outline.even_read`: the rows of a source that was read are equally long.
* `readRecords_sound`, `readGrid_sound`: what the two kinds of content give.
* `Draft.Parsed.sound`: every parsed draft is sound.
-/
namespace TypedTables

/-! ## Rows -/

/-- The rows of an outline are as long as it has columns without comments. -/
structure Outline.Even (o : Outline) : Prop where
  unmarked : o.comments = none → o.rows = []
  widths : ∀ row ∈ o.rows, row.cells.length = o.width

theorem length_dropComments (comments : List Bool) (cells : List String)
    (h : cells.length = comments.length) :
    (dropComments comments cells).length = comments.count false := by
  unfold dropComments
  induction comments generalizing cells with
  | nil => simp
  | cons b comments ih =>
    cases cells with
    | nil => simp at h
    | cons c cells =>
      have hr := ih cells (by simpa using h)
      cases b <;> simp [hr]

namespace Outline

theorem even_empty : ({} : Outline).Even := ⟨fun _ => rfl, by simp⟩

theorem even_directive {o o' : Outline} {line : Nat} {cells : List String} (h : o.Even)
    (hd : o.directive line cells = .ok (some o')) : o'.Even := by
  have keep : o'.comments = o.comments ∧ o'.rows = o.rows := by
    unfold directive at hd
    simp only at hd
    split at hd
    · split at hd
      · cases hd
      · cases hd; exact ⟨rfl, rfl⟩
    · split at hd
      · cases hd
      · cases hd
      · rename_i d _ _
        generalize (if d = .tableType then Directive.dataType else d) = d' at hd
        split at hd
        · cases hd
        · split at hd
          · cases hd
          · cases hd; exact ⟨rfl, rfl⟩
  refine ⟨fun hc => ?_, fun row hr => ?_⟩
  · rw [keep.2]; exact h.unmarked (keep.1 ▸ hc)
  · rw [keep.2] at hr
    rw [h.widths row hr, width, width, keep.1]

theorem even_content {o o' : Outline} {line : Nat} {cells : List String} (h : o.Even)
    (hc : o.content line cells = .ok o') : o'.Even := by
  unfold content at hc
  simp only at hc
  split at hc
  · cases hc
  · rename_i hlen
    generalize hm : o.comments.getD (cells.map fun c => decide (c.toList.head? = some '#')) =
      comments at hc hlen
    -- the mark of the first content line stays, so the rows before this one keep their width
    have old : ∀ row ∈ o.rows, row.cells.length = comments.count false := by
      intro row hr
      cases ho : o.comments with
      | none => rw [h.unmarked ho] at hr; cases hr
      | some marks =>
        rw [ho] at hm
        rw [h.widths row hr, width, ho, ← hm]
        rfl
    cases hc
    refine ⟨by simp, fun row hr => ?_⟩
    rcases List.mem_append.1 hr with hr | hr
    · exact old row hr
    · rw [Row.cells_of_ofCells? (Option.mem_toList.1 hr)]
      exact length_dropComments comments cells (by simpa using hlen)

/-- What every line keeps is true of the outline at the end. -/
theorem readFrom_invariant {P : Outline → Prop}
    (directive : ∀ {o o' line cells}, P o → o.directive line cells = .ok (some o') → P o')
    (content : ∀ {o o' line cells}, P o → o.content line cells = .ok o' → P o')
    {o o' : Outline} {n : Nat} {lines : List String} (h : P o)
    (hr : o.readFrom n lines = .ok (some o')) : P o' := by
  induction lines generalizing o n with
  | nil => cases hr; exact h
  | cons line rest ih =>
    unfold readFrom at hr
    split at hr
    · exact ih h hr
    · obtain ⟨next, hd, hr⟩ := bind_eq_ok.1 hr
      cases next with
      | none => cases hr
      | some o₁ => exact ih (directive h hd) hr
    · obtain ⟨o₁, hc, hr⟩ := bind_eq_ok.1 hr
      exact ih (content h hc) hr

theorem even_read {o : Outline} {lines : List String} (h : read lines = .ok (some o)) : o.Even :=
  readFrom_invariant even_directive even_content even_empty h

end Outline

/-! ## Header -/

/-- Pairing with a list that is long enough loses nothing. -/
theorem map_zip_left {α β γ : Type} {f : α → γ} {l : List α} {r : List β}
    (h : l.length ≤ r.length) : (l.zip r).map (fun p => f p.1) = l.map f := by
  show (l.zip r).map (f ∘ Prod.fst) = _
  rw [← List.map_map (f := Prod.fst) (g := f), List.map_fst_zip h]

theorem checkFieldNames_nodup {line : Nat} {seen names : List String}
    (h : checkFieldNames line seen names = .ok ()) :
    names.Nodup ∧ (∀ name ∈ names, name ∉ seen) := by
  induction names generalizing seen with
  | nil => simp
  | cons name rest ih =>
    unfold checkFieldNames at h
    split at h
    · cases h
    split at h
    · cases h
    split at h
    · cases h
    · rename_i hs
      obtain ⟨nd, hd⟩ := ih h
      refine ⟨List.nodup_cons.2 ⟨fun hm => hd name hm (List.mem_cons_self ..), nd⟩, ?_⟩
      intro x hx
      rcases List.mem_cons.1 hx with rfl | hx
      · exact hs
      · exact fun hm => hd x hx (List.mem_cons_of_mem _ hm)

theorem readFieldNames_eq_ok {format : TableFormat} {row : Row} {names : List String}
    (h : readFieldNames format row = .ok names) : names = row.rest ∧ names.Nodup := by
  unfold readFieldNames at h
  dsimp only at h
  split at h
  · cases h
  obtain ⟨_, hc, h⟩ := bind_eq_ok.1 h
  cases h
  exact ⟨rfl, (checkFieldNames_nodup hc).1⟩

/-- The header and the content of a record table have a cell for each of `n` fields. -/
def FitRows (n : Nat) (rows : List Row) : Prop := ∀ row ∈ rows, row.rest.length = n

theorem Outline.Even.fitRows {o : Outline} (h : o.Even) : FitRows (o.width - 1) o.rows := by
  intro row hr
  rw [Row.rest, List.length_tail, h.widths row hr]

theorem takeFieldNames_fit {format : TableFormat} {rows rest : List Row} {first : Option Nat}
    {names : List String} {n : Nat} (hn : FitRows n rows)
    (h : takeFieldNames format rows = .ok (first, names, rest)) :
    names.Nodup ∧ FitRows names.length rest := by
  unfold takeFieldNames at h
  split at h
  · rename_i hl
    split at h
    · rename_i row rows'
      split at h
      · cases h
      · rename_i hw
        cases h
        -- a source that begins with header rows has a single column
        have hone : row.cells.length = 1 := by
          by_cases he : format = .enumeration
          · simpa [he] using hw
          · simp [isHeaderless, he] at hl
            exact hl.2
        have hzero : n = 0 := by
          rw [← hn row (List.mem_cons_self ..), Row.rest, List.length_tail, hone]
        exact ⟨by simp, by rw [hzero] at hn; exact hn⟩
    · cases h
      exact ⟨by simp, by simp [FitRows]⟩
  · split at h
    · cases h
    · rename_i row rows' _
      obtain ⟨ns, hns, h⟩ := bind_eq_ok.1 h
      cases h
      obtain ⟨hrow, nd⟩ := readFieldNames_eq_ok hns
      refine ⟨nd, fun r hr => ?_⟩
      rw [hrow, hn r (List.mem_cons_of_mem _ hr), hn row (List.mem_cons_self ..)]

/-- Every header row fits `n` fields. -/
def Header.Fit (n : Nat) (header : Header) : Prop :=
  ∀ kind row, header.rows.get? kind = some row → row.rest.length = n

theorem takeHeader_fit {header header' : Header} {rows rest : List Row} {n : Nat}
    (hf : header.Fit n) (hn : FitRows n rows)
    (h : takeHeader header rows = .ok (header', rest)) : header'.Fit n ∧ FitRows n rest := by
  induction rows generalizing header with
  | nil => cases h; exact ⟨hf, hn⟩
  | cons row rows ih =>
    unfold takeHeader at h
    split at h
    · cases h; exact ⟨hf, hn⟩
    · rename_i kind affix hk
      split at h
      · cases h
      · refine ih ?_ (fun r hr => hn r (List.mem_cons_of_mem _ hr)) h
        intro kind' row' hr
        rw [OrderedMap.get?_insert] at hr
        split at hr
        · cases hr; exact hn row (List.mem_cons_self ..)
        · exact hf kind' row' hr

theorem Header.Fit.length_cells {header : Header} {n : Nat} (h : header.Fit n) (kind : HeaderRow) :
    (header.cells kind n).length = n := by
  unfold Header.cells
  split
  · rename_i row hr
    exact h kind row hr
  · exact List.length_replicate

theorem readTypes_length {format : TableFormat} {header : Header} {first : Option Nat}
    {names : List String} {types : List FieldType} (hf : header.Fit names.length)
    (h : readTypes format header first names = .ok types) : types.length = names.length := by
  unfold readTypes at h
  split at h
  · rename_i row hr
    have hlen := (mapM_eq_ok.1 h).length_eq
    rw [List.length_zip, hf _ row hr, Nat.min_self] at hlen
    exact hlen.symm
  · split at h
    · cases h
    · cases h
      exact List.length_map ..

/-- A header declares one column for each field name. -/
theorem readColumns_names {format : TableFormat} {header : Header} {first : Option Nat}
    {names : List String} {columns : List Column} {p p' : StringPool}
    (hf : header.Fit names.length)
    (h : readColumns format header first names p = .ok (columns, p')) :
    columns.map Column.name = names := by
  unfold readColumns at h
  obtain ⟨types, _, ht, h⟩ := interning_bind_eq_ok.1 h
  obtain ⟨units, _, hu, h⟩ := interning_bind_eq_ok.1 h
  obtain ⟨affixes, _, ha, h⟩ := interning_bind_eq_ok.1 h
  have htl := readTypes_length hf (interning_lift_eq_ok.1 ht).1
  have hul := (interning_mapM_eq_ok hu).length_eq
  have hal := (interning_mapM_eq_ok ha).length_eq
  simp only [List.length_zip, htl, hf.length_cells, Nat.min_self] at hul hal
  calc columns.map Column.name
    _ = _ := map_eq_of_forall₂ (interning_mapM_eq_ok h) (f := fun p => p.1.name) ?_
    _ = names := ?_
  · rintro a b ⟨q, q', hb⟩
    obtain ⟨default, _, -, hb⟩ := interning_bind_eq_ok.1 hb
    rw [← (interning_pure_eq_ok.1 hb).1]
  · rw [map_zip_left (f := Column.name) (by simp [hf.length_cells, htl, ← hul, ← hal]),
      List.map_map]
    show ((names.zip types).zip (units.zip affixes)).map (fun p => p.1.1) = names
    rw [map_zip_left (f := Prod.fst) (by simp [htl, ← hul, ← hal]), List.map_fst_zip (by omega)]

/-! ## Content -/

/-- Only an empty text gives an empty cell, and only if there is no default. -/
theorem readScalar_ne_empty {base : BaseType} {affix t : String} {raw : Raw} {p p' : StringPool}
    (ht : t ≠ "") (h : readScalar base affix t p = .ok (raw, p')) : raw ≠ .empty := by
  unfold readScalar at h
  rintro rfl
  cases base with
  | bool =>
    simp only [ht, if_false] at h
    cases hb : truthValue? t with
    | none => rw [hb] at h; cases h
    | some b => rw [hb] at h; cases h
  | float =>
    simp only [ht, if_false] at h
    cases hs : Decimal.normalizeFloat t.toList with
    | none => rw [hs] at h; cases h
    | some s => rw [hs] at h; cases h
  | int => simp only [ht, if_false] at h; cases h
  | string => simp only [ht, if_false] at h; cases h
  | stringName => simp only [ht, if_false] at h; cases h

theorem readCell_empty {type : FieldType} {affix t : String} {default : Raw} {p p' : StringPool}
    (h : readCell type affix default t p = .ok (.empty, p')) : default = .empty := by
  unfold readCell at h
  split at h
  · exact (interning_pure_eq_ok.1 h).1
  · rename_i ht
    split at h
    · obtain ⟨items, _, -, h⟩ := interning_bind_eq_ok.1 h
      cases (interning_pure_eq_ok.1 h).1
    · exact absurd rfl (readScalar_ne_empty ht h)

/-- The cells of a row belong to the columns one by one. -/
def FitCells (columns : List Column) (cells : List Raw) : Prop :=
  List.Forall₂ (fun c raw => raw = .empty → c.default = .empty) columns cells

theorem readRow_fit {columns : List Column} {row : Row} {cells : List Raw} {p p' : StringPool}
    (h : readRow columns row p = .ok (cells, p')) : FitCells columns cells := by
  have key : List.Forall₂ (fun a raw => raw = .empty → a.1.default = .empty)
      columns.zipIdx cells := by
    refine (interning_mapM_eq_ok h).imp ?_
    rintro a raw ⟨q, q', hc⟩ rfl
    obtain ⟨cell, _, -, hc⟩ := interning_bind_eq_ok.1 hc
    exact readCell_empty (mapError_eq_ok.1 hc)
  have hc : columns.zipIdx.map Prod.fst = columns := List.zipIdx_map_fst 0 columns
  unfold FitCells
  rwa [← hc, List.forall₂_map_left_iff]

theorem readRows_fit {columns : List Column} {named : Bool} {affix : String} {seen : List String}
    {rows : List Row} {content : List (String × List Raw)} {p p' : StringPool}
    (h : readRows columns named affix seen rows p = .ok (content, p')) :
    content.length = rows.length ∧ (∀ r ∈ content, FitCells columns r.2) ∧
      (named = true → (content.map Prod.fst).Nodup ∧ ∀ r ∈ content, r.1 ∉ seen) := by
  induction rows generalizing seen content p p' with
  | nil =>
    rw [← (interning_pure_eq_ok.1 h).1]
    simp
  | cons row rows ih =>
    unfold readRows at h
    dsimp only at h
    split at h
    · cases h
    generalize (if named = true then affix ++ row.head else "") = name at h
    split at h
    · cases h
    rename_i hseen
    obtain ⟨cells, p₁, hc, h⟩ := interning_bind_eq_ok.1 h
    obtain ⟨others, p₂, ho, h⟩ := interning_bind_eq_ok.1 h
    rw [← (interning_pure_eq_ok.1 h).1]
    obtain ⟨hlen, hfit, hnd⟩ := ih ho
    refine ⟨by simp [hlen], ?_, fun hn => ?_⟩
    · intro r hr
      rcases List.mem_cons.1 hr with rfl | hr
      · exact readRow_fit hc
      · exact hfit r hr
    · obtain ⟨nd, hd⟩ := hnd hn
      refine ⟨List.nodup_cons.2 ⟨fun hm => ?_, nd⟩, ?_⟩
      · obtain ⟨r, hr, he⟩ := List.mem_map.1 hm
        exact hd r hr (he ▸ List.mem_cons_self ..)
      · intro r hr
        rcases List.mem_cons.1 hr with rfl | hr
        · exact fun hm => hseen ⟨hn, hm⟩
        · exact fun hm => hd r hr (List.mem_cons_of_mem _ hm)

/-! ## Tables -/

/-- A column has one cell a row, and none is empty that its default could fill. -/
structure Column.Filled (n : Nat) (c : Column) : Prop where
  length_cells : c.cells.length = n
  default_of_empty : .empty ∈ c.cells → c.default = .empty

/-- The fields and the rows of a table are well named and its columns are filled. -/
structure Draft.Sound (d : Draft) : Prop where
  fields_nodup : (d.columns.map Column.name).Nodup
  filled : ∀ c ∈ d.columns, c.Filled d.rowCount
  rows_nodup : d.rowNames.Nodup
  length_rowNames : d.rowNames ≠ [] → d.rowNames.length = d.rowCount

/-- The `j`-th elements of lists that are long enough. -/
theorem length_filterMap_getElem {α : Type} {rows : List (List α)} {j : Nat}
    (h : ∀ r ∈ rows, j < r.length) : (rows.filterMap (·[j]?)).length = rows.length := by
  induction rows with
  | nil => rfl
  | cons r rows ih =>
    have hj : j < r.length := h r (List.mem_cons_self ..)
    simp [List.getElem?_eq_getElem hj, ih fun r hr => h r (List.mem_cons_of_mem _ hr)]

/-- What the cells of every row have in common with their columns, those of a column have. -/
theorem forall_mem_transpose {R : Column → Raw → Prop} {columns : List Column}
    {rows : List (List Raw)} (h : ∀ r ∈ rows, List.Forall₂ R columns r) :
    ∀ p ∈ columns.zip (transpose columns.length rows),
      p.2.length = rows.length ∧ ∀ raw ∈ p.2, R p.1 raw := by
  intro p hp
  obtain ⟨j, hj, rfl⟩ := List.mem_iff_getElem.1 hp
  simp only [List.length_zip, transpose, List.length_map, List.length_range, Nat.min_self] at hj
  simp only [List.getElem_zip, transpose, List.getElem_map, List.getElem_range]
  refine ⟨length_filterMap_getElem fun r hr => by rw [← (h r hr).length_eq]; exact hj, ?_⟩
  intro raw hm
  obtain ⟨r, hr, hrj⟩ := List.mem_filterMap.1 hm
  obtain ⟨hlt, rfl⟩ := List.getElem?_eq_some_iff.1 hrj
  exact (h r hr).get hj hlt

/-- The columns of content rows are filled. -/
theorem filled_transpose {columns : List Column} {rows : List (List Raw)}
    (h : ∀ r ∈ rows, FitCells columns r) :
    ∀ p ∈ columns.zip (transpose columns.length rows),
      Column.Filled rows.length { p.1 with cells := p.2 } := fun p hp =>
  have ⟨length, fit⟩ := forall_mem_transpose h p hp
  ⟨length, fun he => fit .empty he rfl⟩

/-- The stages of reading a record table. -/
theorem readRecords_eq_ok {format : TableFormat} {rows : List Row} {records : Records}
    {p p' : StringPool} (h : readRecords format rows p = .ok (records, p')) :
    ∃ first names rest header body columns p₁ named content,
      takeFieldNames format rows = .ok (first, names, rest) ∧
      takeHeader {} rest = .ok (header, body) ∧
      readColumns format header first names p = .ok (columns, p₁) ∧
      checkNaming format body = .ok named ∧
      readRows columns named header.entityAffix [] body p₁ = .ok (content, p') ∧
      records = {
        columns := (columns.zip (transpose columns.length (content.map Prod.snd))).map
          fun q => { q.1 with cells := q.2 }
        rowNames := if named then content.map Prod.fst else []
        rowCount := body.length
        entityAffix := header.entityAffix } := by
  unfold readRecords at h
  obtain ⟨⟨first, names, rest⟩, p₀, fields, h⟩ := interning_bind_eq_ok.1 h
  obtain ⟨fields, rfl⟩ := interning_lift_eq_ok.1 fields
  obtain ⟨⟨header, body⟩, p₀, head, h⟩ := interning_bind_eq_ok.1 h
  obtain ⟨head, rfl⟩ := interning_lift_eq_ok.1 head
  obtain ⟨columns, p₁, declared, h⟩ := interning_bind_eq_ok.1 h
  obtain ⟨named, p₂, naming, h⟩ := interning_bind_eq_ok.1 h
  obtain ⟨naming, rfl⟩ := interning_lift_eq_ok.1 naming
  obtain ⟨content, p₃, read, h⟩ := interning_bind_eq_ok.1 h
  obtain ⟨rfl, rfl⟩ := interning_pure_eq_ok.1 h
  exact ⟨first, names, rest, header, body, columns, p₁, named, content, ‹_›, ‹_›, declared, ‹_›,
    read, rfl⟩

/-- What the rows of a record table give. -/
theorem readRecords_sound {format : TableFormat} {rows : List Row} {n : Nat} {records : Records}
    {p p' : StringPool} (hn : FitRows n rows)
    (h : readRecords format rows p = .ok (records, p')) :
    (records.columns.map Column.name).Nodup ∧ (∀ c ∈ records.columns, c.Filled records.rowCount) ∧
      records.rowNames.Nodup ∧
      (records.rowNames ≠ [] → records.rowNames.length = records.rowCount) := by
  obtain ⟨first, names, rest, header, body, columns, _, named, content, hf, hh, hc, -, hr, rfl⟩ :=
    readRecords_eq_ok h
  obtain ⟨nd, hfit⟩ := takeFieldNames_fit hn hf
  obtain ⟨hhead, -⟩ := takeHeader_fit (fun _ _ hk => by cases hk) hfit hh
  have hcols := readColumns_names hhead hc
  obtain ⟨hlen, hcells, hnames⟩ := readRows_fit hr
  refine ⟨?_, ?_, ?_, ?_⟩
  · rw [List.map_map]
    show ((columns.zip _).map fun p => p.1.name).Nodup
    rw [map_zip_left (f := Column.name) (by simp [transpose]), hcols]
    exact nd
  · intro c hc
    obtain ⟨q, hq, rfl⟩ := List.mem_map.1 hc
    have hrows : ∀ r ∈ content.map Prod.snd, FitCells columns r := by
      intro r hr
      obtain ⟨row, hrow, rfl⟩ := List.mem_map.1 hr
      exact hcells row hrow
    have := filled_transpose hrows q hq
    rwa [List.length_map, hlen] at this
  · show (if named then content.map Prod.fst else []).Nodup
    split
    · rename_i hn; exact (hnames hn).1
    · exact List.nodup_nil
  · show (if named then content.map Prod.fst else []) ≠ [] →
      (if named then content.map Prod.fst else []).length = _
    split
    · intro _; rw [List.length_map, hlen]
    · intro hne; exact absurd rfl hne

theorem readAxis_nodup {axis : Axis} {line : Nat} {affix : String} {seen names given : List String}
    (h : readAxis axis line affix seen names = .ok given) :
    given.Nodup ∧ ∀ name ∈ given, name ∉ seen := by
  induction names generalizing seen given with
  | nil => cases h; simp
  | cons name rest ih =>
    unfold readAxis at h
    dsimp only at h
    split at h
    · cases h
    split at h
    · cases h
    rename_i hseen
    obtain ⟨others, ho, h⟩ := bind_eq_ok.1 h
    cases h
    obtain ⟨nd, hd⟩ := ih ho
    refine ⟨List.nodup_cons.2 ⟨fun hm => hd _ hm (List.mem_cons_self ..), nd⟩, fun x hx => ?_⟩
    rcases List.mem_cons.1 hx with rfl | hx
    · exact hseen
    · exact fun hm => hd x hx (List.mem_cons_of_mem _ hm)

theorem readAxisNames_nodup {axis : Axis} {line : Nat} {affix : String} {names given : List String}
    (h : readAxisNames axis line affix names = .ok given) : given.Nodup := by
  unfold readAxisNames at h
  split at h
  · cases h
  · exact (readAxis_nodup h).1

theorem readGrid_sound {directives : OrderedMap Directive String} {rows : List Row}
    {rowNames : List String} {g : Grid} {p p' : StringPool}
    (h : readGrid directives rows p = .ok ((rowNames, g), p')) : rowNames.Nodup := by
  unfold readGrid at h
  split at h
  · cases h
  · obtain ⟨_, _, -, h⟩ := interning_bind_eq_ok.1 h
    obtain ⟨layout, _, -, h⟩ := interning_bind_eq_ok.1 h
    unfold readLaidOut at h
    obtain ⟨names, _, hr, h⟩ := interning_bind_eq_ok.1 h
    obtain ⟨_, _, -, h⟩ := interning_bind_eq_ok.1 h
    obtain ⟨type, _, -, h⟩ := interning_bind_eq_ok.1 h
    dsimp only at h
    split at h
    · cases h
    obtain ⟨_, _, -, h⟩ := interning_bind_eq_ok.1 h
    obtain ⟨_, _, -, h⟩ := interning_bind_eq_ok.1 h
    obtain ⟨_, _, -, h⟩ := interning_bind_eq_ok.1 h
    cases (interning_pure_eq_ok.1 h).1
    exact readAxisNames_nodup (interning_lift_eq_ok.1 hr).1

/-- A source gives a draft if it can be read and its outline gives the draft. -/
theorem Draft.parse_eq_some_iff {lines : List String} {name source : String} {d : Draft} :
    Draft.parse lines name source = .ok (some d) ↔ ∃ o, Outline.read lines = .ok (some o) ∧
      Draft.ofOutline o name (if source = "" then name else source) = .ok d := by
  refine mapError_eq_ok.trans (bind_eq_ok.trans ⟨fun ⟨o, ho, h⟩ => ?_, fun ⟨o, ho, h⟩ => ?_⟩)
  · cases o with
    | none => cases h
    | some o =>
      obtain ⟨d', hd, h⟩ := map_eq_ok.1 h
      cases h
      exact ⟨o, ho, hd⟩
  · exact ⟨some o, ho, map_eq_ok.2 ⟨d, h, rfl⟩⟩

/-- The draft is what some source gives. -/
def Draft.Parsed (d : Draft) : Prop :=
  ∃ lines name source, Draft.parse lines name source = .ok (some d)

theorem Draft.Parsed.sound {d : Draft} (h : d.Parsed) : d.Sound := by
  obtain ⟨lines, name, source, h⟩ := h
  obtain ⟨o, ho, hd⟩ := Draft.parse_eq_some_iff.1 h
  unfold ofOutline at hd
  obtain ⟨_, -, hd⟩ := bind_eq_ok.1 hd
  have hfit := (Outline.even_read ho).fitRows
  dsimp only at hd
  split at hd
  · obtain ⟨⟨records, pool⟩, hr, hd⟩ := bind_eq_ok.1 hd
    cases hd
    obtain ⟨h₁, h₂, h₃, h₄⟩ := readRecords_sound hfit hr
    exact ⟨h₁, h₂, h₃, h₄⟩
  · obtain ⟨⟨⟨rowNames, g⟩, pool⟩, hr, hd⟩ := bind_eq_ok.1 hd
    cases hd
    exact ⟨List.nodup_nil, fun c hc => (List.not_mem_nil hc).elim, readGrid_sound hr,
      fun _ => rfl⟩

/-- The drafts of sources that can be read, each given with its name. -/
def Draft.readAll (sources : List (String × List String)) : List Draft :=
  sources.filterMap fun p => (Draft.parse p.2 p.1).toOption.join

theorem Draft.parsed_of_mem_readAll {sources : List (String × List String)} {d : Draft}
    (h : d ∈ readAll sources) : d.Parsed := by
  obtain ⟨⟨name, lines⟩, -, hd⟩ := List.mem_filterMap.1 h
  refine ⟨lines, name, "", ?_⟩
  dsimp only at hd
  cases hp : Draft.parse lines name with
  | error e => rw [hp] at hd; cases hd
  | ok draft =>
    rw [hp] at hd
    rw [show draft = some d from hd]

/-- A small dataset: two pets, and a mod that changes one of them and adds a third. -/
def Draft.pets : List Draft := readAll [
  ("Pet", ["@DB_ENTITIES", "pet\tage", "Type\tINT", "cat\t3", "dog\t5"]),
  ("MorePets", ["@DB_ENTITIES_MOD", "@MODIFIES=Pet", "pet\tage", "Type\tINT", "dog\t6", "fox\t2"])]

/-- A dataset of several kinds: animals with a mod that weighs them in another unit, an enumeration,
and a grid over both. -/
def Draft.zoo : List Draft := readAll [
  ("Animal", ["@DB_ENTITIES", "animal\tweight\tfriends", "Type\tFLOAT\tARRAY[INT]", "Unit\tg\t",
    "cat\t4500\tdog", "dog\t\tcat,cat"]),
  ("Meal", ["@ENUMERATION", "hay", "fish"]),
  ("MoreAnimals", ["@DB_ENTITIES_MOD", "@MODIFIES=Animal", "animal\ttame\tweight",
    "Type\tBOOL\tFLOAT", "Unit\t\tkg", "dog\tx\t20", "cow\t\t600"]),
  ("Likes", ["@ENUM_X_ENUM", "@DATA_TYPE=BOOL", "\thay\tfish", "cat\t\tx", "cow\tx\t"])]

/-- A table with a temperature, and with an outlet that is nowhere defined. -/
def Draft.ponds : List Draft := readAll [
  ("Pond", ["@DB_ENTITIES", "pond\ttemperature\toutlet", "Type\tFLOAT\tINT", "Unit\tdegC\t",
    "mill\t12\triver"])]

end TypedTables
