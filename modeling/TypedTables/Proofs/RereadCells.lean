import TypedTables.Proofs.KeptTexts
import TypedTables.Proofs.LayoutEdits
/-!
# Cells that are read again

A text that has been read is in the pool of its table, with its number, so it is read to the same
ever after and adds nothing to the pool. The text of a default is read before all rows: where it
stands in a cell, the cell is what it would be if it were empty.

Results:
* `readCell_again`: a text that has been read, from every later pool.
* `readColumns_rereads`: the texts of the defaults.
* `readRows_filled`: rows with the text of a default in some empty cells of its field.
* `readRecords_filled`: a table of records with such rows.
-/
namespace TypedTables

/-! ## Reading a text again -/

section Again

variable {ε α β : Type}

/-- Steps that answer as others do from every pool that has grown from the first one. -/
theorem interning_mapM_of {f g : α → Interning ε β} {l : List α} {r : List β} {p p' : StringPool}
    (step : ∀ a ∈ l, ∀ {q b q'}, p.strings <+: q.strings → f a q = .ok (b, q') →
      q.strings <+: q'.strings ∧ g a q = .ok (b, q'))
    (h : l.mapM f p = .ok (r, p')) : p.strings <+: p'.strings ∧ l.mapM g p = .ok (r, p') := by
  induction l generalizing r p with
  | nil =>
    rw [List.mapM_nil] at h ⊢
    obtain ⟨-, rfl⟩ := interning_pure_eq_ok.1 h
    exact ⟨List.prefix_rfl, h⟩
  | cons a l ih =>
    rw [List.mapM_cons] at h ⊢
    obtain ⟨b, p₁, hb, h⟩ := interning_bind_eq_ok.1 h
    obtain ⟨bs, p₂, hbs, h⟩ := interning_bind_eq_ok.1 h
    obtain ⟨-, rfl⟩ := interning_pure_eq_ok.1 h
    obtain ⟨first, hb⟩ := step a List.mem_cons_self List.prefix_rfl hb
    obtain ⟨later, hbs⟩ := ih (fun a' ha _ _ _ hq => step a' (List.mem_cons_of_mem _ ha)
      (first.trans hq)) hbs
    exact ⟨first.trans later,
      interning_bind_eq_ok.2 ⟨b, p₁, hb, interning_bind_eq_ok.2 ⟨bs, p₂, hbs, h⟩⟩⟩

end Again

variable {p p' q : StringPool}

theorem internText_again {ε : Type} {t : String} {raw : Raw}
    (h : (internText t : Interning ε Raw) p = .ok (raw, p')) (grows : p'.strings <+: q.strings) :
    (internText t : Interning ε Raw) q = .ok (raw, q) := by
  have number : raw = .code (p.intern t).1 ∧ p' = (p.intern t).2 := by
    cases h
    exact ⟨rfl, rfl⟩
  obtain ⟨rfl, rfl⟩ := number
  obtain ⟨later, hq⟩ := grows
  have found : (p.intern t).2.strings[(p.intern t).1]? = some t := p.lookup_intern t
  have found' : q.lookup (p.intern t).1 = some t := by
    show q.strings[(p.intern t).1]? = some t
    rw [← hq, List.getElem?_append_left (List.getElem?_eq_some_iff.1 found).1, found]
  show Except.ok (Raw.code (q.intern t).1, (q.intern t).2) = _
  rw [q.intern_lookup _ t found']

theorem readScalar_again {base : BaseType} {affix t : String} {raw : Raw}
    (h : readScalar base affix t p = .ok (raw, p')) (grows : p'.strings <+: q.strings) :
    readScalar base affix t q = .ok (raw, q) := by
  cases hb : base.isPooled with
  | false => exact readScalar_unpooled hb h q
  | true =>
    rw [readScalar_of_isPooled hb] at h ⊢
    split at h
    · rw [if_pos ‹_›]
      exact interning_pure_eq_ok.2 ⟨(interning_pure_eq_ok.1 h).1, rfl⟩
    · rw [if_neg ‹_›]
      exact internText_again h grows

theorem readItems_again {base : BaseType} {affix : String} {pieces : List String}
    {items : List Raw} (h : pieces.mapM (readScalar base affix) p = .ok (items, p'))
    (grows : p'.strings <+: q.strings) :
    pieces.mapM (readScalar base affix) q = .ok (items, q) := by
  obtain ⟨-, read⟩ := interning_mapM_forall
    (P := fun p₁ piece item => ∀ {q : StringPool}, p₁.strings <+: q.strings →
      readScalar base affix piece q = .ok (item, q))
    (fun hq h _ hq' => h (hq.trans hq'))
    (fun _ _ _ _ _ _ hs => ⟨(readScalar_keeps hs).1, fun hq => readScalar_again hs hq⟩) h
  clear h
  induction read with
  | nil => rfl
  | cons first _ ih =>
    rw [List.mapM_cons]
    exact interning_bind_eq_ok.2 ⟨_, q, first grows, interning_bind_eq_ok.2 ⟨_, q, ih, rfl⟩⟩

/-- **Again.** A text that has been read is read to the same, and adds nothing to the pool. -/
theorem readCell_again {type : FieldType} {affix t : String} {raw : Raw}
    (h : readCell type affix .empty t p = .ok (raw, p')) (grows : p'.strings <+: q.strings) :
    readCell type affix raw t q = .ok (raw, q) := by
  unfold readCell at h ⊢
  split at h
  · rw [if_pos ‹_›]
    exact interning_pure_eq_ok.2 ⟨rfl, rfl⟩
  rw [if_neg ‹_›]
  split at h
  · obtain ⟨items, p₁, hi, h⟩ := interning_bind_eq_ok.1 h
    obtain ⟨rfl, rfl⟩ := interning_pure_eq_ok.1 h
    rw [if_pos ‹_›]
    exact interning_bind_eq_ok.2 ⟨items, q, readItems_again hi grows, rfl⟩
  · rw [if_neg ‹_›]
    exact readScalar_again h grows

theorem readCell_grows {type : FieldType} {affix t : String} {default raw : Raw}
    (h : readCell type affix default t p = .ok (raw, p')) : p.strings <+: p'.strings := by
  by_cases ht : t = ""
  · unfold readCell at h
    rw [if_pos ht] at h
    obtain ⟨-, rfl⟩ := interning_pure_eq_ok.1 h
    exact List.prefix_rfl
  · have given : readCell type affix .empty t p = .ok (raw, p') := by
      unfold readCell at h ⊢
      rwa [if_neg ht] at h ⊢
    exact (readCell_fits .empty given).1

/-! ## Defaults -/

/-- The text comes to the default of the column, from every pool that has grown from this one. -/
def Column.Rereads (pool : StringPool) (t : String) (c : Column) : Prop :=
  ∀ q : StringPool, pool.strings <+: q.strings →
    readCell c.type c.affix c.default t q = .ok (c.default, q)

/-- The text that the header has for a default comes to it from then on. -/
theorem readColumns_rereads {format : TableFormat} {header : Header} {first : Option Nat}
    {names : List String} {columns : List Column} {j : Nat} {t : String} {c : Column}
    (h : readColumns format header first names p = .ok (columns, p'))
    (default : (header.cells .default names.length)[j]? = some t) (hc : columns[j]? = some c) :
    c.Rereads p' t := by
  unfold readColumns at h
  obtain ⟨types, p₀, -, h⟩ := interning_bind_eq_ok.1 h
  obtain ⟨units, p₁, -, h⟩ := interning_bind_eq_ok.1 h
  obtain ⟨affixes, p₂, -, h⟩ := interning_bind_eq_ok.1 h
  obtain ⟨-, read⟩ := interning_mapM_forall
    (P := fun q (a : Column × String) (c : Column) => c.Rereads q a.2)
    (fun hq h q hq' => h q (hq.trans hq'))
    (fun a _ q c q' _ hc => by
      obtain ⟨default, q₁, hd, hc⟩ := interning_bind_eq_ok.1 hc
      obtain ⟨rfl, rfl⟩ := interning_pure_eq_ok.1 hc
      have hd := mapError_eq_ok.1 hd
      exact ⟨readCell_grows hd, fun q hq => readCell_again hd hq⟩) h
  obtain ⟨hj, rfl⟩ := List.getElem?_eq_some_iff.1 hc
  have hj' := read.length_eq ▸ hj
  have place := read.get hj' hj
  simp only [List.get_eq_getElem, List.getElem_zip] at place
  rwa [(List.getElem?_eq_some_iff.1 default).2] at place

/-! ## Rows -/

theorem Row.cell_eq_ok {r : Row} {i : Nat} {cell : String} :
    r.cell i = .ok cell ↔ r.rest[i]? = some cell := by
  unfold Row.cell
  cases r.rest[i]? with
  | none => exact iff_of_false nofun nofun
  | some => rw [Except.ok.injEq, Option.some.injEq]

/-- One row of cells is the other, or has a text in an empty cell of a field. -/
def FillsField (j : Nat) (t : String) (cells cells' : List String) : Prop :=
  cells' = cells ∨ cells[j + 1]? = some "" ∧ cells' = cells.set (j + 1) t

namespace FillsField

variable {j : Nat} {t : String} {r r' : Row} (h : FillsField j t r.cells r'.cells)
include h

theorem parts : r.head = r'.head ∧
    (r'.rest = r.rest ∨ r.rest[j]? = some "" ∧ r'.rest = r.rest.set j t) := by
  obtain ⟨cell, cells, hr⟩ := List.exists_cons_of_ne_nil r.cells_ne_nil
  obtain ⟨head, rest⟩ := Row.head_rest hr
  rw [head, rest]
  rcases h with same | ⟨empty, filled⟩
  · obtain ⟨head', rest'⟩ := Row.head_rest (same.trans hr)
    exact ⟨head'.symm, .inl rest'⟩
  · rw [hr] at empty filled
    obtain ⟨head', rest'⟩ := Row.head_rest filled
    exact ⟨head'.symm, .inr ⟨empty, rest'⟩⟩

/-- A cell is the same, or is the text where it was empty. -/
theorem cell {i : Nat} {cell : String} (hc : r.cell i = .ok cell) :
    r'.cell i = .ok cell ∨ i = j ∧ cell = "" ∧ r'.cell i = .ok t := by
  rw [Row.cell_eq_ok] at hc
  rw [Row.cell_eq_ok, Row.cell_eq_ok]
  rcases h.parts.2 with same | ⟨empty, filled⟩
  · exact .inl (same ▸ hc)
  · rw [filled]
    by_cases hi : i = j
    · subst hi
      rw [empty, Option.some.injEq] at hc
      exact .inr ⟨rfl, hc.symm, List.getElem?_set_self (List.getElem?_eq_some_iff.1 empty).1⟩
    · rw [List.getElem?_set_ne (Ne.symm hi)]
      exact .inl hc

end FillsField

section Rows

variable {columns : List Column} {j : Nat} {t : String}
  (rereads : ∀ c, columns[j]? = some c → c.Rereads p t)
include rereads

theorem readRow_filled {r r' : Row} (h : FillsField j t r.cells r'.cells) {cells : List Raw}
    {p₁ p₂ : StringPool} (grows : p.strings <+: p₁.strings)
    (read : readRow columns r p₁ = .ok (cells, p₂)) :
    p₁.strings <+: p₂.strings ∧ readRow columns r' p₁ = .ok (cells, p₂) := by
  refine interning_mapM_of (fun a ha q raw q' hq hr => ?_) read
  obtain ⟨cell, _, found, hr⟩ := interning_bind_eq_ok.1 hr
  obtain ⟨hcell, rfl⟩ := interning_lift_eq_ok.1 found
  rw [readCellAt, mapError_eq_ok] at hr
  refine ⟨readCell_grows hr, ?_⟩
  rcases h.cell hcell with same | ⟨hj, rfl, filled⟩
  · exact interning_bind_eq_ok.2 ⟨cell, q, interning_lift_eq_ok.2 ⟨same, rfl⟩,
      mapError_eq_ok.2 hr⟩
  · -- an empty cell has the default, and the text of the default comes to it again
    unfold readCell at hr
    rw [if_pos rfl] at hr
    obtain ⟨rfl, rfl⟩ := interning_pure_eq_ok.1 hr
    have column : columns[j]? = some a.1 := hj ▸ List.mem_zipIdx_iff_getElem?.1 ha
    exact interning_bind_eq_ok.2 ⟨t, q, interning_lift_eq_ok.2 ⟨filled, rfl⟩,
      mapError_eq_ok.2 (rereads a.1 column q (grows.trans hq))⟩

theorem readRows_filled {named : Bool} {affix : String} {seen : List String} {rows rows' : List Row}
    (h : List.Forall₂ (fun r r' => FillsField j t r.cells r'.cells) rows rows')
    {content : List (String × List Raw)} {p₁ p₂ : StringPool} (grows : p.strings <+: p₁.strings)
    (read : readRows columns named affix seen rows p₁ = .ok (content, p₂)) :
    readRows columns named affix seen rows' p₁ = .ok (content, p₂) := by
  induction h generalizing seen content p₁ with
  | nil => exact read
  | @cons r r' rows rows' hr _ ih =>
    unfold readRows at read ⊢
    rw [← hr.parts.1]
    dsimp only at read ⊢
    generalize (if named then affix ++ r.head else "") = name at read ⊢
    split at read
    · cases read
    rw [if_neg ‹_›]
    split at read
    · cases read
    rw [if_neg ‹_›]
    obtain ⟨cells, q, hc, read⟩ := interning_bind_eq_ok.1 read
    obtain ⟨others, q', ho, read⟩ := interning_bind_eq_ok.1 read
    obtain ⟨-, rfl⟩ := interning_pure_eq_ok.1 read
    obtain ⟨later, hc⟩ := readRow_filled rereads hr grows hc
    exact interning_bind_eq_ok.2 ⟨cells, q, hc,
      interning_bind_eq_ok.2 ⟨others, q', ih (grows.trans later) ho, read⟩⟩

end Rows

/-! ## Header rows -/

theorem isHeaderRow_iff (r : Row) : IsHeaderRow r.cells ↔ headerRow? r.head ≠ none := by
  rw [IsHeaderRow, List.headD_eq_head?_getD, List.head?_eq_some_head r.cells_ne_nil]
  rfl

/-- The header rows at the front are taken, and none after them. -/
theorem takeHeader_append_iff {heads body : List Row}
    (header : ∀ r ∈ heads, headerRow? r.head ≠ none)
    (stop : ∀ r ∈ body.head?, headerRow? r.head = none) {h h' : Header} {rest : List Row} :
    takeHeader h (heads ++ body) = .ok (h', rest) ↔
      takeHeader h heads = .ok (h', []) ∧ rest = body := by
  induction heads generalizing h with
  | nil =>
    have stopped : takeHeader h body = .ok (h, body) := by
      cases body with
      | nil => rfl
      | cons r body => rw [takeHeader, stop r rfl]
    rw [List.nil_append, stopped, takeHeader]
    simp [eq_comm]
  | cons r heads ih =>
    rw [List.forall_mem_cons] at header
    obtain ⟨⟨kind, affix⟩, hr⟩ := Option.ne_none_iff_exists'.1 header.1
    rw [List.cons_append, takeHeader, takeHeader, hr]
    dsimp only
    split
    · exact iff_of_false (fun h => by cases h) fun h => by cases h.1
    · exact ih header.2

/-- No header row replaces another. -/
theorem takeHeader_get? {heads : List Row} {h h' : Header}
    (taken : takeHeader h heads = .ok (h', [])) :
    (∀ kind r, h.rows.get? kind = some r → h'.rows.get? kind = some r) ∧
      ∀ r ∈ heads, ∀ kind affix, headerRow? r.head = some (kind, affix) →
        h'.rows.get? kind = some r := by
  induction heads generalizing h with
  | nil =>
    cases taken
    exact ⟨fun _ _ => id, nofun⟩
  | cons r heads ih =>
    rw [takeHeader] at taken
    split at taken
    · cases taken
    next kind affix hr =>
    split at taken
    · cases taken
    next new =>
    obtain ⟨kept, found⟩ := ih taken
    refine ⟨fun kind' r' hr' => kept kind' r' ?_, List.forall_mem_cons.2 ⟨?_, found⟩⟩
    · rw [OrderedMap.get?_insert, if_neg, hr']
      rintro rfl
      exact new (by rw [OrderedMap.contains, hr']; rfl)
    · intro kind' affix' hr'
      rw [hr, Option.some.injEq, Prod.mk.injEq] at hr'
      obtain ⟨rfl, -⟩ := hr'
      exact kept kind r (by rw [OrderedMap.get?_insert, if_pos rfl])

/-- The text in the row of defaults comes to the default of its field, once columns are read. -/
theorem rereads_of_taken {format : TableFormat} {heads : List Row} {header : Header}
    (taken : takeHeader {} heads = .ok (header, [])) {d : Row} (hd : d ∈ heads)
    (start : d.cells.head? = some HeaderRow.default.keyword) {j : Nat} {t : String}
    (text : d.cells[j + 1]? = some t) {first : Option Nat} {names : List String}
    {columns : List Column} (h : readColumns format header first names p = .ok (columns, p')) :
    ∀ c, columns[j]? = some c → c.Rereads p' t := by
  intro c hj
  obtain ⟨cell, cells, hcells⟩ := List.exists_cons_of_ne_nil d.cells_ne_nil
  obtain ⟨head, rest⟩ := Row.head_rest hcells
  rw [hcells] at start text
  cases start
  have found := (takeHeader_get? taken).2 d hd .default none (by rw [head]; decide +kernel)
  refine readColumns_rereads h ?_ hj
  rw [Header.cells, found]
  dsimp only
  rw [rest]
  exact text

/-- **Records.** The text of a default can stand in the empty cells of its field. -/
theorem readRecords_filled {format : TableFormat} {rows rows' : List Row}
    {names default : List String} {hs bs bs' : List (List String)} {j : Nat} {t : String}
    (fields : ¬ isHeaderless format rows) (hrows : rows.map Row.cells = names :: (hs ++ bs))
    (hrows' : rows'.map Row.cells = names :: (hs ++ bs'))
    (header : ∀ cells ∈ hs, IsHeaderRow cells) (stop : ∀ cells ∈ bs.head?, ¬ IsHeaderRow cells)
    (given : default ∈ hs) (start : default.head? = some HeaderRow.default.keyword)
    (text : default[j + 1]? = some t) (filled : List.Forall₂ (FillsField j t) bs bs') :
    Threads Eq (readRecords format rows) (readRecords format rows') := by
  obtain ⟨r, rows, rfl, hr, hrows⟩ := List.map_eq_cons_iff.1 hrows
  obtain ⟨r', rows', rfl, hr', hrows'⟩ := List.map_eq_cons_iff.1 hrows'
  obtain ⟨heads, body, rfl, rfl, rfl⟩ := List.map_eq_append_iff.1 hrows
  obtain ⟨heads', body', rfl, hheads, rfl⟩ := List.map_eq_append_iff.1 hrows'
  rw [List.forall₂_map_left_iff, List.forall₂_map_right_iff] at filled
  have header : ∀ h ∈ heads, headerRow? h.head ≠ none := fun h hh =>
    (isHeaderRow_iff h).1 (header _ (List.mem_map_of_mem hh))
  have header' : ∀ h ∈ heads', headerRow? h.head ≠ none := fun h hh => by
    obtain ⟨h₁, hh₁, e⟩ := exists_of_forall₂ (alike_iff.2 hheads) hh
    exact e.head ▸ header h₁ hh₁
  have stop : ∀ b ∈ body.head?, headerRow? b.head = none := fun b hb => by
    have := stop b.cells (by rw [List.head?_map, hb]; rfl)
    rwa [isHeaderRow_iff, not_not] at this
  have stop' : ∀ b ∈ body'.head?, headerRow? b.head = none := by
    cases filled with
    | nil => nofun
    | cons first _ =>
      rintro _ ⟨⟩
      exact first.parts.1 ▸ stop _ rfl
  -- each stage of reading the first rows has the same answer for the others
  rintro p ⟨records, p'⟩ h
  obtain ⟨first, names, _, head, _, columns, p₁, named, content, hf, hh, hc, hn, read, rfl⟩ :=
    readRecords_eq_ok h
  obtain ⟨⟨first', _, _⟩, hf', rfl, rfl, rfl⟩ :=
    takeFieldNames_cons_follows (hr.trans hr'.symm) fields _ _ hf
  obtain ⟨taken, rfl⟩ := (takeHeader_append_iff header stop).1 hh
  obtain ⟨⟨head', none⟩, taken', alike, nothing⟩ :=
    takeHeader_follows (.refl {}) (alike_iff.2 hheads.symm) _ taken
  obtain rfl := List.forall₂_nil_left_iff.1 nothing
  obtain ⟨⟨_, _⟩, hc', rfl, rfl⟩ := readColumns_threads format alike first first' names p _ hc
  obtain ⟨_, hn', rfl⟩ := checkNaming_follows format (filled.imp fun _ _ hb => hb.parts.1) _ hn
  obtain ⟨d, hd, rfl⟩ := List.mem_map.1 given
  have read' := readRows_filled (rereads_of_taken taken hd start text hc) filled List.prefix_rfl read
  rw [alike.entityAffix] at read'
  refine ⟨_, readRecords_of_stages hf' ((takeHeader_append_iff header' stop').2 ⟨taken', rfl⟩)
    hc' hn' read', ?_⟩
  rw [alike.entityAffix, filled.length_eq]
  exact ⟨rfl, rfl⟩

end TypedTables
