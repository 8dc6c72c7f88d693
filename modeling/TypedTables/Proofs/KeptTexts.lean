import TypedTables.Proofs.KeptCells
import TypedTables.Proofs.TextTable
/-!
# Kept texts

A written table of texts is parsed whatever its texts are, and its draft keeps each of them: a cell
without text is empty, any other holds the number of its text in the pool.

Results:
* `Answers.bind`, `Answers.mapM`: computations that have an answer, and only add to the pool.
* `readCell_answers`, `readRow_answers`, `readRows_answers`: the cells of a table of texts.
* `readColumns_texts`: its columns.
* `TextTable.exists_draft`: its draft.
-/
namespace TypedTables

variable {ε α β : Type}

/-! ## Computations that answer -/

/-- The computation has an answer. It only adds to the pool, and the answer is as `P` says of the
pool that is left. -/
def Answers (pool : StringPool) (x : Interning ε β) (P : StringPool → β → Prop) : Prop :=
  ∃ b pool', x pool = .ok (b, pool') ∧ pool.strings <+: pool'.strings ∧ P pool' b

namespace Answers

variable {pool : StringPool}

theorem pure {P : StringPool → β → Prop} {b : β} (h : P pool b) :
    Answers pool (Pure.pure b : Interning ε β) P := ⟨b, pool, rfl, List.prefix_rfl, h⟩

theorem bind {P : StringPool → α → Prop} {Q : StringPool → β → Prop} {x : Interning ε α}
    {f : α → Interning ε β} (hx : Answers pool x P)
    (hf : ∀ a pool', pool.strings <+: pool'.strings → P pool' a → Answers pool' (f a) Q) :
    Answers pool (x >>= f) Q := by
  obtain ⟨a, pool₁, ha, grows, first⟩ := hx
  obtain ⟨b, pool₂, hb, later, second⟩ := hf a pool₁ grows first
  exact ⟨b, pool₂, interning_bind_eq_ok.2 ⟨a, pool₁, ha, hb⟩, grows.trans later, second⟩

theorem lift_bind {Q : StringPool → β → Prop} {x : Except ε α} {a : α} {f : α → Interning ε β}
    (hx : x = .ok a) (hf : Answers pool (f a) Q) :
    Answers pool ((liftM x : Interning ε α) >>= f) Q := by
  rw [hx]
  exact hf

theorem mapM {P : StringPool → α → β → Prop} {f : α → Interning ε β} {l : List α}
    (mono : ∀ {q q' : StringPool} {a b}, q.strings <+: q'.strings → P q a b → P q' a b)
    (step : ∀ a ∈ l, ∀ q, Answers q (f a) fun q => P q a) :
    Answers pool (l.mapM f) fun q => List.Forall₂ (P q) l := by
  induction l generalizing pool with
  | nil => exact .pure .nil
  | cons a l ih =>
    rw [List.forall_mem_cons] at step
    rw [List.mapM_cons]
    refine (step.1 pool).bind fun b q _ first => (ih step.2).bind fun bs q' grows rest => ?_
    exact .pure (.cons (mono grows first) rest)

end Answers

/-! ## Cells -/

/-- The raw cell is what a pool keeps of a text. -/
inductive Raw.Stands (pool : StringPool) : String → Raw → Prop
  | empty : Stands pool "" .empty
  | pooled {text : String} {n : Nat} : text ≠ "" → pool.strings[n]? = some text →
    Stands pool text (.code n)

theorem Raw.Stands.mono {pool pool' : StringPool} (grows : pool.strings <+: pool'.strings)
    {text : String} {raw : Raw} (h : raw.Stands pool text) : raw.Stands pool' text := by
  cases h with
  | empty => exact .empty
  | pooled ne found =>
    obtain ⟨rest, hrest⟩ := grows
    obtain ⟨hn, -⟩ := List.getElem?_eq_some_iff.1 found
    exact .pooled ne (by rw [← hrest, List.getElem?_append_left hn, found])

theorem readCell_answers (f : TextField) (text : String) (pool : StringPool) :
    Answers pool (readCell f.type "" .empty text) fun q raw => raw.Stands q text := by
  unfold readCell
  by_cases ne : text = ""
  · rw [if_pos ne, ne]
    exact .pure .empty
  · rw [if_neg ne, if_neg (by simp [TextField.type])]
    have interned : readScalar f.type.base "" text = internText text := by
      unfold readScalar TextField.type
      rcases f.verbatim <;> simp [ne]
    rw [interned]
    exact ⟨_, _, rfl, pool.strings_prefix_intern text, .pooled ne (pool.lookup_intern text)⟩

theorem readCellAt_answers (line : Option Nat) (f : TextField) (text : String) (pool : StringPool) :
    Answers pool (readCellAt line f.type "" .empty text) fun q raw => raw.Stands q text := by
  obtain ⟨raw, pool', h, grows, stands⟩ := readCell_answers f text pool
  exact ⟨raw, pool', mapError_eq_ok.2 h, grows, stands⟩

/-! ## Rows -/

/-- The column of a field before its cells are read. -/
def TextField.column (f : TextField) : Column where
  name := f.name
  type := f.type
  unit := ""
  affix := ""
  default := .empty
  cells := []

/-- What holds at each place holds of the lists. -/
theorem forall₂_of_zipIdx {γ : Type} {R : β → γ → Prop} {l : List α} {l' : List β} {r : List γ}
    (length : l'.length = l.length)
    (h : List.Forall₂ (fun (p : α × Nat) c => ∃ b, l'[p.2]? = some b ∧ R b c) l.zipIdx r) :
    List.Forall₂ R l' r := by
  obtain ⟨same, related⟩ := List.forall₂_iff_get.1 h
  refine List.forall₂_iff_get.2 ⟨by rw [← same, List.length_zipIdx, length], fun i hi hr => ?_⟩
  obtain ⟨b, hb, hR⟩ := related i (by rwa [same]) hr
  rw [List.get_eq_getElem, List.getElem_zipIdx, Nat.zero_add, List.getElem?_eq_getElem hi] at hb
  cases hb
  exact hR

theorem readRow_answers {fields : List TextField} {row : Row}
    (even : row.rest.length = fields.length) (pool : StringPool) :
    Answers pool (readRow (fields.map TextField.column) row) fun q raws =>
      List.Forall₂ (Raw.Stands q) row.rest raws := by
  have read : Answers pool (readRow (fields.map TextField.column) row) fun q =>
      List.Forall₂ (fun p (raw : Raw) => ∃ text, row.rest[p.2]? = some text ∧ raw.Stands q text)
        (fields.map TextField.column).zipIdx := by
    refine .mapM (fun grows ⟨text, ht, stands⟩ => ⟨text, ht, stands.mono grows⟩) ?_
    rintro ⟨c, i⟩ hc q
    rw [List.mem_zipIdx_iff_getElem?, List.getElem?_map] at hc
    obtain ⟨f, hf, rfl⟩ := Option.map_eq_some_iff.1 hc
    obtain ⟨hi, -⟩ := List.getElem?_eq_some_iff.1 hf
    rw [← even] at hi
    have cell : row.cell i = .ok row.rest[i] := by
      rw [Row.cell, List.getElem?_eq_getElem hi]
    refine .lift_bind cell ?_
    obtain ⟨raw, q', h, grows, stands⟩ := readCellAt_answers (some row.line) f row.rest[i] q
    exact ⟨raw, q', h, grows, _, List.getElem?_eq_getElem hi, stands⟩
  obtain ⟨raws, pool', h, grows, stand⟩ := read
  exact ⟨raws, pool', h, grows, forall₂_of_zipIdx (by rw [List.length_map, even]) stand⟩

/-- What is kept of a row. -/
def KeepsRow (pool : StringPool) (row : Row) (p : String × List Raw) : Prop :=
  p.1 = row.head ∧ List.Forall₂ (Raw.Stands pool) row.rest p.2

theorem readRows_answers {fields : List TextField} {rows : List Row} {seen : List String}
    (even : ∀ row ∈ rows, row.rest.length = fields.length) (named : ∀ row ∈ rows, row.head ≠ "")
    (nodup : (rows.map Row.head).Nodup) (new : ∀ row ∈ rows, row.head ∉ seen) (pool : StringPool) :
    Answers pool (readRows (fields.map TextField.column) true "" seen rows) fun q content =>
      List.Forall₂ (KeepsRow q) rows content := by
  induction rows generalizing seen pool with
  | nil => exact .pure .nil
  | cons row rows ih =>
    rw [List.forall_mem_cons] at even named new
    rw [List.map_cons, List.nodup_cons] at nodup
    have unseen : ∀ r ∈ rows, r.head ∉ row.head :: seen := fun r hr hm =>
      (List.mem_cons.1 hm).elim (fun e => nodup.1 (e ▸ List.mem_map_of_mem hr)) (new.2 r hr)
    unfold readRows
    dsimp only
    rw [if_neg (by simp [named.1]), if_pos rfl, String.empty_append, if_neg fun h => new.1 h.2]
    refine (readRow_answers even.1 pool).bind fun cells q _ first => ?_
    refine (ih even.2 named.2 nodup.2 unseen q).bind fun others q' grows rest => ?_
    exact .pure (.cons ⟨rfl, first.imp fun _ _ stands => stands.mono grows⟩ rest)

/-! ## Header and columns -/

/-- Steps of a list that leave the pool alone. -/
theorem interning_mapM_map {ι : Type} {f : α → Interning ε β} {g : ι → α} {h : ι → β}
    {pool : StringPool} {l : List ι} (step : ∀ i ∈ l, f (g i) pool = .ok (h i, pool)) :
    (l.map g).mapM f pool = .ok (l.map h, pool) := by
  induction l with
  | nil => rfl
  | cons i l ih =>
    rw [List.forall_mem_cons] at step
    rw [List.map_cons, List.mapM_cons]
    exact interning_bind_eq_ok.2 ⟨h i, pool, step.1, interning_bind_eq_ok.2
      ⟨l.map h, pool, ih step.2, rfl⟩⟩

/-- A header of types only. -/
def typeHeader (row : Row) : Header where
  rows := OrderedMap.empty.insert .type row
  entityAffix := ""

theorem get?_typeHeader (row : Row) (kind : HeaderRow) :
    (typeHeader row).rows.get? kind = if .type = kind then some row else none :=
  OrderedMap.get?_insert _ _ _ _

theorem takeHeader_types {row : Row} (type : row.head = "Type") {body : List Row}
    (content : ∀ r ∈ body, headerRow? r.head = none) :
    takeHeader {} (row :: body) = .ok (typeHeader row, body) := by
  have announced : headerRow? row.head = some (.type, none) := by
    rw [type]
    decide
  rw [takeHeader, announced]
  show takeHeader (typeHeader row) body = _
  cases body with
  | nil => rfl
  | cons r body => rw [takeHeader, content r List.mem_cons_self]

/-- Nothing but types is given. -/
theorem cells_typeHeader (row : Row) {kind : HeaderRow} (other : kind ≠ .type)
    (fields : List TextField) :
    (typeHeader row).cells kind (fields.map TextField.name).length = fields.map fun _ => "" := by
  rw [Header.cells, get?_typeHeader, if_neg other.symm, List.length_map, List.map_const']

theorem readTypes_texts {fields : List TextField} {row : Row}
    (types : row.rest = fields.map fun f => f.type.text) (first : Option Nat) :
    readTypes .entities (typeHeader row) first (fields.map TextField.name) =
      .ok (fields.map TextField.type) := by
  unfold readTypes
  rw [get?_typeHeader, if_pos rfl]
  dsimp only
  rw [types, List.zip_map', mapM_eq_ok, List.forall₂_map_left_iff, List.forall₂_map_right_iff,
    List.forall₂_same]
  intro f _
  have given : f.type.text ≠ "" := by
    rw [f.type_text]
    split <;> decide
  unfold readType
  rw [if_neg given, FieldType.parse_text]

/-- The columns of a table whose types are those of texts. -/
theorem readColumns_texts {fields : List TextField} {row : Row}
    (types : row.rest = fields.map fun f => f.type.text) (first : Option Nat) (pool : StringPool) :
    readColumns .entities (typeHeader row) first (fields.map TextField.name) pool =
      .ok (fields.map TextField.column, pool) := by
  unfold readColumns
  dsimp only
  simp only [cells_typeHeader row (show HeaderRow.unit ≠ .type by decide),
    cells_typeHeader row (show HeaderRow.affix ≠ .type by decide),
    cells_typeHeader row (show HeaderRow.default ≠ .type by decide)]
  refine interning_bind_eq_ok.2 ⟨_, pool,
    interning_lift_eq_ok.2 ⟨readTypes_texts types first, rfl⟩, ?_⟩
  simp only [List.zip_map']
  refine interning_bind_eq_ok.2 ⟨fields.map fun _ => "", pool,
    interning_mapM_map fun f _ => interning_lift_eq_ok.2 ⟨if_neg (by simp), rfl⟩, ?_⟩
  refine interning_bind_eq_ok.2 ⟨fields.map fun _ => "", pool,
    interning_mapM_map fun f _ => interning_lift_eq_ok.2 ⟨if_neg (by simp), rfl⟩, ?_⟩
  simp only [List.zip_map', List.map_map]
  exact interning_mapM_map fun f _ => rfl

/-! ## Tables -/

theorem checkFieldNames_eq_ok {line : Nat} {seen names : List String}
    (named : ∀ name ∈ names, name ≠ "" ∧ name ≠ nameField) (nodup : names.Nodup)
    (new : ∀ name ∈ names, name ∉ seen) : checkFieldNames line seen names = .ok () := by
  induction names generalizing seen with
  | nil => rfl
  | cons name names ih =>
    rw [List.forall_mem_cons] at named new
    rw [List.nodup_cons] at nodup
    unfold checkFieldNames
    rw [if_neg named.1.1, if_neg named.1.2, if_neg new.1]
    refine ih named.2 nodup.2 fun other ho hm => ?_
    exact (List.mem_cons.1 hm).elim (fun e => nodup.1 (e ▸ ho)) (new.2 other ho)

/-- A list of lists that hold related things, cut at one place. -/
theorem forall₂_column {R : α → β → Prop} {rows : List (List α)} {rows' : List (List β)}
    (h : List.Forall₂ (List.Forall₂ R) rows rows') (j : Nat) :
    List.Forall₂ R (rows.filterMap (·[j]?)) (rows'.filterMap (·[j]?)) := by
  induction h with
  | nil => exact .nil
  | @cons row row' rows rows' hrow _ ih =>
    obtain ⟨length, related⟩ := List.forall₂_iff_get.1 hrow
    by_cases hj : j < row.length
    · rw [List.filterMap_cons, List.filterMap_cons, List.getElem?_eq_getElem hj,
        List.getElem?_eq_getElem (length ▸ hj)]
      exact .cons (related j hj (length ▸ hj)) ih
    · rw [List.filterMap_cons, List.filterMap_cons, List.getElem?_eq_none (Nat.le_of_not_lt hj),
        List.getElem?_eq_none (length ▸ Nat.le_of_not_lt hj)]
      exact ih

theorem Row.head_rest {row : Row} {cell : String} {cells : List String}
    (h : row.cells = cell :: cells) : row.head = cell ∧ row.rest = cells := by
  obtain ⟨line, _, _⟩ := row
  subst h
  exact ⟨rfl, rfl⟩

/-- The draft of an outline whose rows are records. -/
theorem ofOutline_of_records {o : Outline} {name source : String} {kind : RecordKind}
    {records : Records} {pool : StringPool} (legal : o.checkDirectives = .ok ())
    (hk : Draft.recordKind? o.tableFormat (o.directives.getD .modifies "") = some kind)
    (read : readRecords o.tableFormat o.rows StringPool.empty = .ok (records, pool)) :
    Draft.ofOutline o name source = .ok {
      name := o.tableName name, source, pool
      rowNames := records.rowNames
      rowCount := records.rowCount
      entityAffix := records.entityAffix
      content := .records kind records.columns } := by
  unfold Draft.ofOutline
  refine bind_eq_ok.2 ⟨(), legal, ?_⟩
  dsimp only
  rw [hk]
  exact bind_eq_ok.2 ⟨_, read, rfl⟩

/-- The stages of reading a record table, put together. -/
theorem readRecords_of_stages {format : TableFormat} {rows rest body : List Row}
    {first : Option Nat} {names : List String} {header : Header} {columns : List Column}
    {named : Bool} {content : List (String × List Raw)} {p p₁ p' : StringPool}
    (hf : takeFieldNames format rows = .ok (first, names, rest))
    (hh : takeHeader {} rest = .ok (header, body))
    (hc : readColumns format header first names p = .ok (columns, p₁))
    (hn : checkNaming format body = .ok named)
    (hr : readRows columns named header.entityAffix [] body p₁ = .ok (content, p')) :
    readRecords format rows p = .ok ({
      columns := (columns.zip (transpose columns.length (content.map Prod.snd))).map
        fun q => { q.1 with cells := q.2 }
      rowNames := if named then content.map Prod.fst else []
      rowCount := body.length
      entityAffix := header.entityAffix }, p') := by
  unfold readRecords
  refine interning_bind_eq_ok.2 ⟨_, p, interning_lift_eq_ok.2 ⟨hf, rfl⟩, ?_⟩
  refine interning_bind_eq_ok.2 ⟨_, p, interning_lift_eq_ok.2 ⟨hh, rfl⟩, ?_⟩
  refine interning_bind_eq_ok.2 ⟨columns, p₁, hc, ?_⟩
  refine interning_bind_eq_ok.2 ⟨named, p₁, interning_lift_eq_ok.2 ⟨hn, rfl⟩, ?_⟩
  exact interning_bind_eq_ok.2 ⟨content, p', hr, rfl⟩

namespace TextTable

variable (t : TextTable)

/-- The texts of the field at a place. -/
def texts (j : Nat) : List String := (t.rows.map Prod.snd).filterMap (·[j]?)

/-- The column is that of a field and its place, and keeps its texts. -/
structure KeepsColumn (pool : StringPool) (p : TextField × Nat) (c : Column) : Prop where
  name : c.name = p.1.name
  type : c.type = p.1.type
  unit : c.unit = ""
  default : c.default = .empty
  cells : List.Forall₂ (Raw.Stands pool) (t.texts p.2) c.cells

/-- What is kept of rows makes columns that keep the texts of the fields. -/
theorem keepsColumns {pool : StringPool} {raws : List (List Raw)}
    (h : List.Forall₂ (List.Forall₂ (Raw.Stands pool)) (t.rows.map Prod.snd) raws) :
    List.Forall₂ (t.KeepsColumn pool) t.fields.zipIdx
      (((t.fields.map TextField.column).zip
        (transpose (t.fields.map TextField.column).length raws)).map
          fun p => { p.1 with cells := p.2 }) := by
  rw [List.length_map, transpose, List.range_eq_range', List.zip_map, ← List.zipIdx_eq_zip_range',
    List.map_map, List.forall₂_map_right_iff, List.forall₂_same]
  exact fun p _ => ⟨rfl, rfl, rfl, rfl, forall₂_column h p.2⟩

/-- What the rows after the header say. -/
theorem forall₂_body {body : List Row}
    (h : body.map Row.cells = t.rows.map fun r => r.1 :: r.2) :
    List.Forall₂ (fun (row : Row) r => row.head = r.1 ∧ row.rest = r.2) body t.rows := by
  rw [← List.forall₂_eq_eq_eq, List.forall₂_map_left_iff, List.forall₂_map_right_iff] at h
  exact h.imp fun _ _ => Row.head_rest

/-- The field names are read. -/
theorem takeFieldNames_grid {row : Row} (names : row.rest = t.fields.map TextField.name)
    (rest : List Row) :
    takeFieldNames .entities (row :: rest) =
      .ok (some row.line, t.fields.map TextField.name, rest) := by
  have named : ∀ name ∈ t.fields.map TextField.name, name ≠ "" ∧ name ≠ nameField :=
    List.forall_mem_map.2 fun f hf => ⟨(t.fieldName f hf).ne_empty, (t.fieldName f hf).free⟩
  have read : readFieldNames .entities row = .ok (t.fields.map TextField.name) := by
    unfold readFieldNames
    rw [names, if_neg (by simpa using t.fields_ne_nil), checkFieldNames_eq_ok named t.fields_nodup
      fun _ _ => List.not_mem_nil]
    rfl
  show readFieldNames .entities row >>= _ = _
  rw [read]
  rfl

/-- **Records.** What the rows of a table of texts give. -/
theorem exists_records {rows : List Row} (hrows : rows.map Row.cells = t.grid) :
    ∃ records pool, readRecords .entities rows StringPool.empty = .ok (records, pool) ∧
      records.rowNames = t.rowNames ∧ records.rowCount = t.rows.length ∧
      List.Forall₂ (t.KeepsColumn pool) t.fields.zipIdx records.columns := by
  obtain ⟨first, rows, rfl, hfirst, hrows⟩ := List.map_eq_cons_iff.1 hrows
  obtain ⟨type, body, rfl, htype, hbody⟩ := List.map_eq_cons_iff.1 hrows
  obtain ⟨-, names⟩ := Row.head_rest hfirst
  obtain ⟨typeHead, types⟩ := Row.head_rest htype
  have rowsOf := t.forall₂_body hbody
  have heads : t.rowNames = body.map Row.head := map_eq_of_forall₂ rowsOf fun _ _ h => h.1.symm
  have rests : t.rows.map Prod.snd = body.map Row.rest :=
    map_eq_of_forall₂ rowsOf fun _ _ h => h.2.symm
  have rowName : ∀ row ∈ body, RowNameText row.head := fun row hr => by
    obtain ⟨r, mem, head, -⟩ := exists_of_forall₂ rowsOf hr
    exact head ▸ t.rowName r mem
  have even : ∀ row ∈ body, row.rest.length = t.fields.length := fun row hr => by
    obtain ⟨r, mem, -, rest⟩ := exists_of_forall₂ rowsOf hr
    exact rest ▸ t.even r mem
  have header := takeHeader_types typeHead fun row hr => (rowName row hr).no_header
  have columns := readColumns_texts types (some first.line) StringPool.empty
  have naming : checkNaming .entities body = .ok true := by
    cases body with
    | nil => exact absurd (List.map_eq_nil_iff.1 heads) t.rows_ne_nil
    | cons row body =>
      have named := (rowName row List.mem_cons_self).ne_empty
      unfold checkNaming
      simp [named]
  have unseen : ∀ row ∈ body, row.head ∉ ([] : List String) := fun _ _ => List.not_mem_nil
  obtain ⟨content, pool, read, -, kept⟩ := readRows_answers even
    (fun row hr => (rowName row hr).ne_empty) (heads ▸ t.rows_nodup) unseen StringPool.empty
  refine ⟨_, pool, readRecords_of_stages (t.takeFieldNames_grid names _) header columns naming read,
    ?_, ?_, t.keepsColumns ?_⟩
  · rw [if_pos rfl, heads]
    exact map_eq_of_forall₂ kept fun _ _ h => h.1
  · exact rowsOf.length_eq
  · rw [rests, List.forall₂_map_left_iff, List.forall₂_map_right_iff]
    exact kept.imp fun _ _ h => h.2

/-- The draft is that of the table. -/
structure Drafted (name : String) (d : Draft) : Prop where
  name : d.name = name
  content : d.content = .records .entities d.columns
  rowNames : d.rowNames = t.rowNames
  rowCount : d.rowCount = t.rows.length
  columns : List.Forall₂ (t.KeepsColumn d.pool) t.fields.zipIdx d.columns

/-- **Drafts.** A written table is parsed, and every text of it is kept. -/
theorem exists_draft (name source : String) :
    ∃ d, Draft.parse t.lines name source = .ok (some d) ∧ t.Drafted name d := by
  obtain ⟨o, ho, format, directives, width, rows⟩ := t.exists_outline
  obtain ⟨records, pool, read, rowNames, rowCount, columns⟩ := t.exists_records rows
  have entities : o.tableFormat = .entities := by
    have wide : t.fields.length + 1 ≠ 1 := by simpa using t.fields_ne_nil
    unfold Outline.tableFormat
    rw [format, OrderedMap.contains, directives, width, if_neg wide]
    rfl
  have legal : o.checkDirectives = .ok () := by
    have silent : o.directives.keys = [] := List.eq_nil_iff_forall_not_mem.2 fun d hd => by
      rw [OrderedMap.mem_keys_iff, directives] at hd
      simp at hd
    unfold Outline.checkDirectives
    rw [silent, entities]
    rfl
  have kind : Draft.recordKind? o.tableFormat (o.directives.getD .modifies "") = some .entities := by
    rw [entities]
    rfl
  refine ⟨_, Draft.parse_eq_some_iff.2 ⟨o, ho, ofOutline_of_records legal kind (entities ▸ read)⟩,
    ?_, rfl, rowNames, rowCount, columns⟩
  show o.tableName name = name
  rw [Outline.tableName, format]

end TextTable

end TypedTables
