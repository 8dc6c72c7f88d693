import TypedTables.Proofs.KeptCells
/-!
# Parsed drafts

What a source is parsed to. `Draft.WellFormed` says all that the tables of a dataset rely on when
they are put together: which names are given, how long columns and rows are, where units and
prefixes may stand, and in what form cells are kept.

Results:
* `readRecords_wellFormed`, `readGrid_wellFormed`: what the two kinds of content give.
* `Draft.Parsed.wellFormed`: every parsed draft is well formed.
-/
namespace TypedTables

/-! ## Well-formed drafts -/

/-- What the header of a table says of a column. -/
structure Column.Declared (pool : StringPool) (c : Column) : Prop where
  float_of_unit : c.unit ≠ "" → c.type.base = .float
  pooled_of_affix : c.affix ≠ "" → c.type.base.isPooled
  default_fits : c.default.Fits pool c.type

/-- A column with one cell for each of `n` rows, all of the form of its type. -/
structure Column.WellFormed (pool : StringPool) (n : Nat) (c : Column) : Prop
    extends c.Declared pool where
  length_cells : c.cells.length = n
  cells_fit : ∀ raw ∈ c.cells, raw.Fits pool c.type

/-- A grid with one row for each of its row names and one cell for each of its column names. -/
structure Grid.WellFormed (pool : StringPool) (rowNames : List String) (g : Grid) : Prop where
  rows_ne_nil : rowNames ≠ []
  columns_ne_nil : g.columnNames ≠ []
  columns_nodup : g.columnNames.Nodup
  length_cells : g.cells.length = rowNames.length
  length_row : ∀ row ∈ g.cells, row.length = g.columnNames.length
  float_of_unit : g.unit ≠ "" → g.type.base = .float
  default_fits : g.default.Fits pool g.type
  cells_fit : ∀ row ∈ g.cells, ∀ raw ∈ row, raw.Fits pool g.type

/-- Names, columns and cells of a table are as those who read it expect. -/
structure Draft.WellFormed (d : Draft) : Prop where
  fields_nodup : (d.columns.map Column.name).Nodup
  fields_named : ∀ c ∈ d.columns, c.name ≠ "" ∧ c.name ≠ nameField
  columns : ∀ c ∈ d.columns, c.WellFormed d.pool d.rowCount
  rows_nodup : d.rowNames.Nodup
  /-- names are given for all rows or for none -/
  rows_counted : d.rowNames = [] ∨ d.rowNames.length = d.rowCount
  rows_affixed : ∀ name ∈ d.rowNames, d.entityAffix.toList <+: name.toList
  rows_needed : d.format.needsRowNames → d.rowCount ≠ 0 → d.rowNames ≠ []
  rows_anonymous : d.format = .anonymousRows → d.rowNames = []
  /-- a mod and no other table names a target -/
  target_iff : d.target?.getD "" ≠ "" ↔ d.format = .entitiesMod
  grid : ∀ g, d.grid? = some g → g.WellFormed d.pool d.rowNames

theorem Draft.WellFormed.rowCount_ne_zero {d : Draft} (h : d.WellFormed) (named : d.rowNames ≠ []) :
    d.rowCount ≠ 0 := by
  rw [← h.rows_counted.resolve_left named]
  exact fun zero => named (List.eq_nil_of_length_eq_zero zero)

/-! ## Header -/

theorem checkFieldNames_named {line : Nat} {seen names : List String}
    (h : checkFieldNames line seen names = .ok ()) :
    ∀ name ∈ names, name ≠ "" ∧ name ≠ nameField := by
  induction names generalizing seen with
  | nil => simp
  | cons name rest ih =>
    unfold checkFieldNames at h
    split at h
    · cases h
    next given =>
    split at h
    · cases h
    next free =>
    split at h
    · cases h
    exact List.forall_mem_cons.2 ⟨⟨given, free⟩, ih h⟩

theorem takeFieldNames_named {format : TableFormat} {rows rest : List Row} {first : Option Nat}
    {names : List String} (h : takeFieldNames format rows = .ok (first, names, rest)) :
    ∀ name ∈ names, name ≠ "" ∧ name ≠ nameField := by
  unfold takeFieldNames at h
  split at h
  · split at h
    · split at h <;> cases h
      simp
    · cases h
      simp
  · split at h
    · cases h
    · obtain ⟨names, hn, h⟩ := bind_eq_ok.1 h
      cases h
      unfold readFieldNames at hn
      dsimp only at hn
      split at hn
      · cases hn
      obtain ⟨_, hc, hn⟩ := bind_eq_ok.1 hn
      cases hn
      exact checkFieldNames_named hc

theorem readUnit_eq_ok {line : Option Nat} {field cell unit : String} {type : FieldType}
    (h : readUnit line field type cell = .ok unit) : unit ≠ "" → type.base = .float := by
  unfold readUnit at h
  split at h <;> cases h
  next hc => simpa using hc

theorem readAffix_eq_ok {line : Option Nat} {field cell affix : String} {type : FieldType}
    (h : readAffix line field type cell = .ok affix) : affix ≠ "" → type.base.isPooled := by
  unfold readAffix at h
  split at h <;> cases h
  next hc => simpa using hc

/-- A header row whose cells are read one by one, each with its field and the type of that. -/
theorem mapM_fields_eq_ok {R : FieldType → String → Prop}
    {f : (String × FieldType) × String → Except Located String} {names cells answers : List String}
    {types : List FieldType} {p p' : StringPool} (hn : names.length = types.length)
    (hc : cells.length = types.length) (step : ∀ a b, f a = .ok b → R a.1.2 b)
    (h : ((names.zip types).zip cells).mapM (fun a => (liftM (f a) : Interning Located String)) p =
      .ok (answers, p')) : p.strings <+: p'.strings ∧ List.Forall₂ R types answers := by
  obtain ⟨grows, read⟩ := interning_mapM_forall (P := fun _ a b => R a.1.2 b) (fun _ => id)
    (fun a _ q b q' _ hb => by
      obtain ⟨read, rfl⟩ := interning_lift_eq_ok.1 hb
      exact ⟨List.prefix_rfl, step a b read⟩) h
  have types_eq : ((names.zip types).zip cells).map (fun a => a.1.2) = types := by
    rw [map_zip_left (f := Prod.snd) (by simp [hn, hc]), List.map_snd_zip (by omega)]
  rw [← types_eq, List.forall₂_map_left_iff]
  exact ⟨grows, read⟩

/-- What lists of one length say of each other they say at every place. -/
theorem forall_mem_zip {α β γ δ : Type} {R : β → γ → Prop} {S : β → δ → Prop} (as : List α)
    {bs : List β} {cs : List γ} {ds : List δ} (hc : List.Forall₂ R bs cs)
    (hd : List.Forall₂ S bs ds) :
    ∀ p ∈ (as.zip bs).zip (cs.zip ds), R p.1.2 p.2.1 ∧ S p.1.2 p.2.2 := by
  intro p hp
  obtain ⟨i, hi, rfl⟩ := List.mem_iff_getElem.1 hp
  simp only [List.length_zip] at hi
  simp only [List.getElem_zip]
  exact ⟨hc.get (by omega) (by omega), hd.get (by omega) (by omega)⟩

theorem readCellAt_fits {line : Option Nat} {type : FieldType} {affix t : String}
    {default raw : Raw} {p p' : StringPool} (hd : default.Fits p type)
    (h : readCellAt line type affix default t p = .ok (raw, p')) :
    p.strings <+: p'.strings ∧ raw.Fits p' type :=
  readCell_fits hd (mapError_eq_ok.1 h)

theorem Column.Declared.mono {pool pool' : StringPool} (grows : pool.strings <+: pool'.strings)
    {c : Column} (h : c.Declared pool) : c.Declared pool' :=
  { h with default_fits := h.default_fits.mono grows }

theorem readColumns_declared {format : TableFormat} {header : Header} {first : Option Nat}
    {names : List String} {columns : List Column} {p p' : StringPool}
    (hf : header.Fit names.length)
    (h : readColumns format header first names p = .ok (columns, p')) :
    p.strings <+: p'.strings ∧ ∀ c ∈ columns, c.Declared p' := by
  unfold readColumns at h
  obtain ⟨types, p₀, ht, h⟩ := interning_bind_eq_ok.1 h
  obtain ⟨typed, rfl⟩ := interning_lift_eq_ok.1 ht
  obtain ⟨units, p₁, hu, h'⟩ := interning_bind_eq_ok.1 h
  obtain ⟨affixes, p₂, ha, h'⟩ := interning_bind_eq_ok.1 h'
  have length := readTypes_length hf typed
  have cells : ∀ kind, (header.cells kind names.length).length = types.length := fun kind => by
    rw [hf.length_cells, length]
  obtain ⟨grows₁, hu⟩ := mapM_fields_eq_ok length.symm (cells _)
    (R := fun type unit => unit ≠ "" → type.base = .float) (fun _ _ => readUnit_eq_ok) hu
  obtain ⟨grows₂, ha⟩ := mapM_fields_eq_ok length.symm (cells _)
    (R := fun type affix => affix ≠ "" → type.base.isPooled) (fun _ _ => readAffix_eq_ok) ha
  -- units and prefixes stand with the types for which they were checked
  have plain := forall_mem_zip names hu ha
  obtain ⟨grows₃, declared⟩ := interning_mapM_forall
    (P := fun q _ (c : Column) => c.Declared q) (fun hq h => h.mono hq)
    (fun a ha q c q' _ hc => by
      obtain ⟨default, q₁, hd, hc⟩ := interning_bind_eq_ok.1 hc
      obtain ⟨rfl, rfl⟩ := interning_pure_eq_ok.1 hc
      obtain ⟨grows, fits⟩ := readCellAt_fits .empty hd
      obtain ⟨b, hb, hba⟩ := List.mem_map.1 (List.of_mem_zip ha).1
      obtain ⟨unit, affix⟩ := plain b hb
      rw [← hba]
      exact ⟨grows, unit, affix, hba ▸ fits⟩) h'
  refine ⟨(grows₁.trans grows₂).trans grows₃, fun c hc => ?_⟩
  obtain ⟨_, -, hd⟩ := exists_of_forall₂ declared.flip hc
  exact hd

/-! ## Content -/

theorem readRow_fits {columns : List Column} {row : Row} {cells : List Raw} {p p' : StringPool}
    (hd : ∀ c ∈ columns, c.Declared p) (h : readRow columns row p = .ok (cells, p')) :
    p.strings <+: p'.strings ∧ List.Forall₂ (fun c raw => raw.Fits p' c.type) columns cells := by
  obtain ⟨grows, read⟩ := interning_mapM_forall
    (P := fun q a raw => raw.Fits q a.1.type) (fun hq => Raw.Fits.mono hq)
    (fun a ha q raw q' hq hr => by
      obtain ⟨cell, _, hcell, hr⟩ := interning_bind_eq_ok.1 hr
      obtain ⟨-, rfl⟩ := interning_lift_eq_ok.1 hcell
      have mem : a.1 ∈ columns := by
        have := List.mem_map_of_mem (f := Prod.fst) ha
        rwa [List.zipIdx_map_fst] at this
      exact readCellAt_fits ((hd _ mem).default_fits.mono hq) hr) h
  have hc : columns.zipIdx.map Prod.fst = columns := List.zipIdx_map_fst 0 columns
  refine ⟨grows, ?_⟩
  rw [← hc, List.forall₂_map_left_iff]
  exact read

theorem readRows_fits {columns : List Column} {named : Bool} {affix : String} {seen : List String}
    {rows : List Row} {content : List (String × List Raw)} {p p' : StringPool}
    (hd : ∀ c ∈ columns, c.Declared p)
    (h : readRows columns named affix seen rows p = .ok (content, p')) :
    p.strings <+: p'.strings ∧
      ∀ r ∈ content, List.Forall₂ (fun c raw => raw.Fits p' c.type) columns r.2 ∧
        (named → affix.toList <+: r.1.toList) := by
  induction rows generalizing seen content p with
  | nil =>
    obtain ⟨rfl, rfl⟩ := interning_pure_eq_ok.1 h
    exact ⟨List.prefix_rfl, by simp⟩
  | cons row rows ih =>
    unfold readRows at h
    dsimp only at h
    split at h
    · cases h
    generalize hn : (if named = true then affix ++ row.head else "") = name at h
    split at h
    · cases h
    obtain ⟨cells, p₁, hc, h⟩ := interning_bind_eq_ok.1 h
    obtain ⟨others, p₂, ho, h⟩ := interning_bind_eq_ok.1 h
    obtain ⟨rfl, rfl⟩ := interning_pure_eq_ok.1 h
    obtain ⟨first, fits⟩ := readRow_fits hd hc
    obtain ⟨later, rest⟩ := ih (fun c hm => (hd c hm).mono first) ho
    refine ⟨first.trans later, List.forall_mem_cons.2 ⟨⟨?_, fun named => ?_⟩, rest⟩⟩
    · exact fits.imp fun _ _ hf => hf.mono later
    · rw [if_pos named] at hn
      rw [← hn, String.toList_append]
      exact List.prefix_append _ _

/-- Who must name the rows does, and who must not does not. -/
theorem checkNaming_eq_ok {format : TableFormat} {rows : List Row} {named : Bool}
    (h : checkNaming format rows = .ok named) :
    (format.needsRowNames → rows ≠ [] → named) ∧ (format = .anonymousRows → ¬ named) := by
  cases rows with
  | nil =>
    cases h
    simp
  | cons row rows =>
    unfold checkNaming at h
    dsimp only at h
    split at h
    · cases h
    next needed =>
    split at h
    · cases h
    next refused =>
    cases h
    refine ⟨fun needs _ => ?_, fun anonymous named => refused ⟨anonymous, named⟩⟩
    by_contra unnamed
    exact needed ⟨needs, unnamed⟩

/-- What the rows of a record table give. -/
structure Records.WellFormed (pool : StringPool) (format : TableFormat) (r : Records) : Prop where
  fields_named : ∀ c ∈ r.columns, c.name ≠ "" ∧ c.name ≠ nameField
  columns : ∀ c ∈ r.columns, c.WellFormed pool r.rowCount
  rows_affixed : ∀ name ∈ r.rowNames, r.entityAffix.toList <+: name.toList
  rows_needed : format.needsRowNames → r.rowCount ≠ 0 → r.rowNames ≠ []
  rows_anonymous : format = .anonymousRows → r.rowNames = []

theorem readRecords_wellFormed {format : TableFormat} {rows : List Row} {n : Nat}
    {records : Records} {p p' : StringPool} (hn : FitRows n rows)
    (h : readRecords format rows p = .ok (records, p')) : records.WellFormed p' format := by
  obtain ⟨first, names, rest, header, body, columns, p₁, named, content, hf, hh, hc, hm, hr, rfl⟩ :=
    readRecords_eq_ok h
  obtain ⟨-, hfit⟩ := takeFieldNames_fit hn hf
  obtain ⟨hhead, -⟩ := takeHeader_fit (fun _ _ hk => by cases hk) hfit hh
  have hnames := readColumns_names hhead hc
  obtain ⟨-, declared⟩ := readColumns_declared hhead hc
  obtain ⟨needed, refused⟩ := checkNaming_eq_ok hm
  obtain ⟨length, -, -⟩ := readRows_fit hr
  obtain ⟨grows, fits⟩ := readRows_fits declared hr
  have cells := forall_mem_transpose (R := fun c raw => raw.Fits p' c.type)
    (List.forall_mem_map.2 fun r hr => (fits r hr).1)
  exact {
    fields_named := fun c hm => by
      obtain ⟨q, hq, rfl⟩ := List.mem_map.1 hm
      have : q.1.name ∈ columns.map Column.name := List.mem_map_of_mem (List.of_mem_zip hq).1
      rw [hnames] at this
      exact takeFieldNames_named hf _ this
    columns := fun c hm => by
      obtain ⟨q, hq, rfl⟩ := List.mem_map.1 hm
      obtain ⟨hlen, hfits⟩ := cells q hq
      rw [List.length_map, length] at hlen
      have head := (declared q.1 (List.of_mem_zip hq).1).mono grows
      exact ⟨⟨head.1, head.2, head.3⟩, hlen, hfits⟩
    rows_affixed := fun name hm => by
      dsimp only at hm
      split at hm
      · next hnamed =>
        obtain ⟨r, hr, rfl⟩ := List.mem_map.1 hm
        exact (fits r hr).2 hnamed
      · cases hm
    rows_needed := fun needs some => by
      have hne : body ≠ [] := fun e => some (by rw [e]; rfl)
      dsimp only
      rw [if_pos (needed needs hne), Ne, List.map_eq_nil_iff, ← List.length_eq_zero_iff, length]
      exact some
    rows_anonymous := fun anonymous => if_neg (refused anonymous) }

/-! ## Grids -/

/-- Every row of cells has a name and a line, and a cell for each column. -/
structure Layout.Even (l : Layout) : Prop where
  rowNames : l.rowNames.length = l.cells.length
  lines : l.lines.length = l.cells.length
  row : ∀ row ∈ l.cells, row.length = l.columnNames.length

theorem readLayout_even {header : Row} {rows : List Row} {l : Layout} {n : Nat}
    (hn : FitRows n (header :: rows)) (h : readLayout header rows = .ok l) : l.Even := by
  obtain ⟨corner, -, h⟩ := bind_eq_ok.1 h
  cases h
  refine ⟨by simp, by simp, List.forall_mem_map.2 fun r hr => ?_⟩
  exact (hn r (List.mem_cons_of_mem _ hr)).trans (hn header List.mem_cons_self).symm

/-- Without columns there is nothing to exchange, and the grid is refused. -/
theorem orientLayout_even {directives : OrderedMap Directive String} {line : Nat} {l l' : Layout}
    (hl : l.Even) (h : orientLayout directives line l = .ok l') (hc : l'.columnNames ≠ []) :
    l'.Even := by
  unfold orientLayout at h
  split at h
  · obtain ⟨cells, he, h⟩ := bind_eq_ok.1 h
    cases h
    have some : l.cells ≠ [] := by
      rintro none
      exact hc (List.length_eq_zero_iff.1 (by rw [hl.rowNames, none]; rfl))
    obtain ⟨first, rest, hcells⟩ := List.exists_cons_of_ne_nil some
    have width : (l.cells.head?.map List.length).getD 0 = l.columnNames.length := by
      rw [hcells, List.head?_cons, Option.map_some, Option.getD_some]
      exact hl.row first (by simp [hcells])
    unfold exchange at he
    dsimp only at he
    rw [width] at he
    split at he
    · cases he
      refine ⟨by simp [transpose], by simp [transpose], fun row hr => ?_⟩
      obtain ⟨j, hj, rfl⟩ := List.mem_map.1 hr
      rw [hl.rowNames]
      exact length_filterMap_getElem fun r hr => by
        rw [hl.row r hr]
        exact List.mem_range.1 hj
    · cases he
  · cases h
    exact hl

theorem readAxis_length {axis : Axis} {line : Nat} {affix : String} {seen names given : List String}
    (h : readAxis axis line affix seen names = .ok given) : given.length = names.length := by
  induction names generalizing seen given with
  | nil =>
    cases h
    rfl
  | cons name rest ih =>
    unfold readAxis at h
    dsimp only at h
    split at h
    · cases h
    split at h
    · cases h
    obtain ⟨others, ho, h⟩ := bind_eq_ok.1 h
    cases h
    rw [List.length_cons, List.length_cons, ih ho]

theorem readAxisNames_eq_ok {axis : Axis} {line : Nat} {affix : String} {names given : List String}
    (h : readAxisNames axis line affix names = .ok given) :
    names ≠ [] ∧ given.length = names.length := by
  unfold readAxisNames at h
  split at h
  · cases h
  · next hn => exact ⟨hn, readAxis_length h⟩

theorem pairLines_eq_ok {lines : List Nat} {cells : List (List String)}
    {rows : List (Nat × List String)} (h : pairLines lines cells = .ok rows) :
    rows.map Prod.snd = cells := by
  induction lines generalizing cells rows with
  | nil => cases cells <;> cases h; rfl
  | cons line lines ih =>
    cases cells with
    | nil => cases h
    | cons cell cells =>
      obtain ⟨rest, hr, rfl⟩ := map_eq_ok.1 h
      rw [List.map_cons, ih hr]

theorem readLaidOut_wellFormed {directives : OrderedMap Directive String} {line : Nat} {l : Layout}
    {rowNames : List String} {g : Grid} {p p' : StringPool} (hl : l.columnNames ≠ [] → l.Even)
    (h : readLaidOut directives line l p = .ok ((rowNames, g), p')) :
    g.WellFormed p' rowNames := by
  unfold readLaidOut at h
  obtain ⟨rows, _, hr, h⟩ := interning_bind_eq_ok.1 h
  obtain ⟨columnNames, _, hc, h⟩ := interning_bind_eq_ok.1 h
  obtain ⟨type, _, ht, h⟩ := interning_bind_eq_ok.1 h
  dsimp only at h
  split at h
  · cases h
  next float =>
  obtain ⟨default, p₁, hd, h⟩ := interning_bind_eq_ok.1 h
  obtain ⟨paired, _, hp, h⟩ := interning_bind_eq_ok.1 h
  obtain ⟨cells, p₂, hcells, h⟩ := interning_bind_eq_ok.1 h
  obtain ⟨given, rfl⟩ := interning_pure_eq_ok.1 h
  cases given
  have rowAxis := (interning_lift_eq_ok.1 hr).1
  have columnAxis := (interning_lift_eq_ok.1 hc).1
  have pairs := pairLines_eq_ok (interning_lift_eq_ok.1 hp).1
  obtain ⟨rows_ne, rows_length⟩ := readAxisNames_eq_ok rowAxis
  obtain ⟨columns_ne, columns_length⟩ := readAxisNames_eq_ok columnAxis
  have even := hl columns_ne
  obtain ⟨-, fits⟩ := readCellAt_fits .empty hd
  obtain ⟨grows, read⟩ := interning_mapM_forall
    (P := fun q (a : Nat × List String) (row : List Raw) => row.length = a.2.length ∧
      ∀ raw ∈ row, raw.Fits q type)
    (fun hq h => ⟨h.1, fun raw hm => (h.2 raw hm).mono hq⟩)
    (fun a _ q row q' _ hrow => by
      obtain ⟨grows, read⟩ := interning_mapM_forall (P := fun q _ raw => raw.Fits q type)
        (fun hq => Raw.Fits.mono hq) (fun _ _ _ _ _ _ hr => readCellAt_fits .empty hr) hrow
      refine ⟨grows, read.length_eq.symm, fun raw hm => ?_⟩
      obtain ⟨_, -, hf⟩ := exists_of_forall₂ read.flip hm
      exact hf) hcells
  rw [← (interning_lift_eq_ok.1 hp).2] at grows
  have mem : ∀ row ∈ cells, row.length = columnNames.length ∧ ∀ raw ∈ row, raw.Fits p₂ type := by
    intro row hm
    obtain ⟨a, ha, hlen, hfit⟩ := exists_of_forall₂ read.flip hm
    refine ⟨?_, hfit⟩
    rw [hlen, columns_length]
    exact even.row _ (pairs ▸ List.mem_map_of_mem ha)
  exact {
    rows_ne_nil := by rwa [Ne, ← List.length_eq_zero_iff, rows_length, List.length_eq_zero_iff]
    columns_ne_nil := by
      rwa [Ne, ← List.length_eq_zero_iff, columns_length, List.length_eq_zero_iff]
    columns_nodup := readAxisNames_nodup columnAxis
    length_cells := by
      rw [rows_length, even.rowNames, ← pairs, List.length_map, read.length_eq]
    length_row := fun row hm => (mem row hm).1
    float_of_unit := fun hu => by
      by_contra hb
      exact float ⟨hu, hb⟩
    default_fits := fits.mono grows
    cells_fit := fun row hm => (mem row hm).2 }

theorem readGrid_wellFormed {directives : OrderedMap Directive String} {rows : List Row} {n : Nat}
    {rowNames : List String} {g : Grid} {p p' : StringPool} (hn : FitRows n rows)
    (h : readGrid directives rows p = .ok ((rowNames, g), p')) : g.WellFormed p' rowNames := by
  unfold readGrid at h
  split at h
  · cases h
  · obtain ⟨l, _, hl, h⟩ := interning_bind_eq_ok.1 h
    obtain ⟨l', _, ho, h⟩ := interning_bind_eq_ok.1 h
    have even := readLayout_even hn (interning_lift_eq_ok.1 hl).1
    exact readLaidOut_wellFormed (orientLayout_even even (interning_lift_eq_ok.1 ho).1) h

/-! ## Directives -/

/-- Directives that need an argument have one. -/
def Outline.Argued (o : Outline) : Prop :=
  ∀ d argument, o.directives.get? d = some argument → d.needsArgument → argument ≠ ""

namespace Outline

theorem argued_directive {o o' : Outline} {line : Nat} {cells : List String} (h : o.Argued)
    (hd : o.directive line cells = .ok (some o')) : o'.Argued := by
  unfold directive at hd
  simp only at hd
  split at hd
  · split at hd <;> cases hd
    exact h
  · split at hd
    · cases hd
    · cases hd
    · rename_i d _ _
      generalize (if d = .tableType then Directive.dataType else d) = d' at hd
      split at hd
      · cases hd
      · split at hd
        · cases hd
        next given =>
        cases hd
        intro d'' argument hget needs
        rw [OrderedMap.get?_insert] at hget
        split at hget
        · next same =>
          cases hget
          exact fun none => given ⟨same ▸ needs, none⟩
        · exact h d'' argument hget needs

theorem argued_content {o o' : Outline} {line : Nat} {cells : List String} (h : o.Argued)
    (hc : o.content line cells = .ok o') : o'.Argued := by
  unfold content at hc
  simp only at hc
  split at hc <;> cases hc
  exact h

theorem argued_read {o : Outline} {lines : List String} (h : read lines = .ok (some o)) :
    o.Argued :=
  readFrom_invariant argued_directive argued_content
    (fun _ _ hget => by cases hget) h

/-- The directives that a format needs are there. -/
theorem checkDirectives_eq_ok {o : Outline} (h : o.checkDirectives = .ok ()) :
    (o.tableFormat = .entitiesMod → o.directives.contains .modifies) ∧
      (o.tableFormat = .grid → o.directives.contains .dataType) := by
  unfold checkDirectives at h
  dsimp only at h
  split at h
  · cases h
  split at h
  · cases h
  next modifies =>
  split at h
  · cases h
  next dataType =>
  exact ⟨fun hf => by simpa [hf] using modifies, fun hf => by simpa [hf] using dataType⟩

end Outline

/-! ## Drafts -/

namespace Draft

theorem recordKind?_eq_some {format : TableFormat} {target : String} {kind : RecordKind}
    (h : recordKind? format target = some kind) :
    kind.format = format ∧ (format = .entitiesMod → kind = .mod target) := by
  unfold recordKind? at h
  split at h <;> cases h <;> simp [RecordKind.format]

theorem recordKind?_eq_none {format : TableFormat} {target : String}
    (h : recordKind? format target = none) : format = .grid := by
  unfold recordKind? at h
  split at h <;> simp_all

/-- Only a mod names a target, and it is the argument of its directive. -/
theorem target_iff_of_records {d : Draft} {o : Outline} {kind : RecordKind} {columns : List Column}
    (hd : d.content = .records kind columns) (argued : o.Argued)
    (hk : recordKind? o.tableFormat (o.directives.getD .modifies "") = some kind)
    (modifies : o.tableFormat = .entitiesMod → o.directives.contains .modifies) :
    d.target?.getD "" ≠ "" ↔ d.format = .entitiesMod := by
  obtain ⟨format, mod⟩ := recordKind?_eq_some hk
  have hf : d.format = kind.format := by rw [Draft.format, hd]
  rw [hf]
  constructor
  · intro named
    unfold target? at named
    rw [hd] at named
    cases kind <;> first | rfl | exact absurd rfl named
  · intro isMod
    rw [format] at isMod
    obtain ⟨argument, given⟩ := Option.isSome_iff_exists.1 (modifies isMod)
    rw [target?, hd, mod isMod, OrderedMap.getD, given]
    exact argued _ _ given rfl

theorem Parsed.wellFormed {d : Draft} (h : d.Parsed) : d.WellFormed := by
  have sound := h.sound
  obtain ⟨lines, name, source, h⟩ := h
  obtain ⟨o, ho, hd⟩ := parse_eq_some_iff.1 h
  unfold ofOutline at hd
  obtain ⟨_, directives, hd⟩ := bind_eq_ok.1 hd
  have fit := (Outline.even_read ho).fitRows
  dsimp only at hd
  split at hd
  · next kind hk =>
    obtain ⟨⟨records, pool⟩, hr, hd⟩ := bind_eq_ok.1 hd
    have read := readRecords_wellFormed fit hr
    obtain ⟨format, -⟩ := recordKind?_eq_some hk
    cases hd
    exact {
      fields_nodup := sound.fields_nodup
      fields_named := read.fields_named
      columns := read.columns
      rows_nodup := sound.rows_nodup
      rows_counted := or_iff_not_imp_left.2 sound.length_rowNames
      rows_affixed := read.rows_affixed
      rows_needed := fun needs => read.rows_needed (format ▸ needs)
      rows_anonymous := fun anonymous => read.rows_anonymous (format ▸ anonymous)
      target_iff := target_iff_of_records rfl (Outline.argued_read ho) hk
        (Outline.checkDirectives_eq_ok directives).1
      grid := fun g hg => by cases hg }
  · obtain ⟨⟨⟨rowNames, g⟩, pool⟩, hr, hd⟩ := bind_eq_ok.1 hd
    have read := readGrid_wellFormed fit hr
    cases hd
    exact {
      fields_nodup := sound.fields_nodup
      fields_named := fun c hc => (List.not_mem_nil hc).elim
      columns := fun c hc => (List.not_mem_nil hc).elim
      rows_nodup := sound.rows_nodup
      rows_counted := .inr rfl
      rows_affixed := fun name _ => List.nil_prefix
      rows_needed := fun needs => by cases needs
      rows_anonymous := fun anonymous => by cases anonymous
      target_iff := iff_of_false (fun named => named rfl) (fun isMod => by cases isMod)
      grid := fun g' hg => by
        cases hg
        exact read }

end Draft

end TypedTables
