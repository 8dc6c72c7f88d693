import TypedTables.Dataset.Query
import TypedTables.Proofs.TableOutcome
/-!
# The cells of grids

The source of a grid lists some names of two enumerations, in any order, and gives cells for them;
the grid itself has a place for every pair of names. Two names of one predefined enumeration may
share an index, so several cells of the source can fall into one place. `HoldsCells` says that in
each place stands the last of them that is not empty, or else the default.

Results:
* `setCell_holds`, `fillRow_holds`, `fillGrid_holds`: the steps.
* `grid_holds`: a whole grid.
* `lastRaw_gridCells`: where no index is shared, one cell of the source falls into a place.
* `link_gridCells`: what is read of a grid by names and by indexes.
-/
namespace TypedTables

/-! ## Places and the cells that fall into them -/

/-- The value in a place of a grid. -/
def valueAt? (cells : List (List Value)) (i j : Nat) : Option Value :=
  cells[i]?.bind fun row => row[j]?

/-- The last cell that is not empty. -/
def lastRaw (raws : List Raw) : Option Raw := (raws.filter fun raw => !raw.isEmpty).getLast?

theorem lastRaw_snoc (raws : List Raw) (raw : Raw) :
    lastRaw (raws ++ [raw]) = if raw.isEmpty then lastRaw raws else some raw := by
  unfold lastRaw
  cases h : raw.isEmpty <;> simp [List.filter_append, h]

/-- What is listed under the names that have a row. -/
def listedAt {α : Type} (e : Enumeration) (i : Nat) (named : List (String × α)) : List α :=
  (named.filter fun p => e.rows.get? p.1 = some i).map Prod.snd

theorem listedAt_cons {α : Type} (e : Enumeration) (i : Nat) (p : String × α)
    (named : List (String × α)) : listedAt e i (p :: named) =
      (if e.rows.get? p.1 = some i then [p.2] else []) ++ listedAt e i named := by
  unfold listedAt
  by_cases h : e.rows.get? p.1 = some i <;> simp [h]

/-- The cells of the source that fall into a place, in their order. -/
def Grid.cellsAt (g : Grid) (rowNames : List String) (rows columns : Enumeration) (i j : Nat) :
    List Raw :=
  (listedAt rows i (rowNames.zip g.cells)).flatMap fun raws =>
    listedAt columns j (g.columnNames.zip raws)

/-- In each place stands the value of the last cell that falls into it, or that of the default. -/
structure HoldsCells (l : Linking) (d : Draft) (g : Grid) (given : Nat → Nat → List Raw)
    (rows columns : Nat) (cells : List (List Value)) : Prop where
  value : ∀ i < rows, ∀ j < columns, ∃ v, valueAt? cells i j = some v ∧
    l.cell d ((lastRaw (given i j)).getD g.default) g.type g.unit = .ok v

theorem zip_of_zipEven {α β : Type} {as : List α} {bs : List β} {ps : List (α × β)}
    (h : zipEven as bs = .ok ps) : ps = as.zip bs := by
  induction as generalizing bs ps with
  | nil =>
    cases bs <;> cases h
    rfl
  | cons a as ih =>
    cases bs with
    | nil => cases h
    | cons b bs =>
      obtain ⟨rest, hrest, rfl⟩ := map_eq_ok.1 h
      rw [ih hrest, List.zip_cons_cons]

section Steps

variable {l : Linking} {d : Draft} {g : Grid} {given given' : Nat → Nat → List Raw}
  {rows columns : Nat} {cells cells' : List (List Value)}

theorem HoldsCells.congr (h : HoldsCells l d g given rows columns cells)
    (hg : ∀ i j, lastRaw (given i j) = lastRaw (given' i j)) :
    HoldsCells l d g given' rows columns cells where
  value i hi j hj := hg i j ▸ h.value i hi j hj

theorem replicate_holds {v : Value} (hv : l.cell d g.default g.type g.unit = .ok v) :
    HoldsCells l d g (fun _ _ => []) rows columns
      (List.replicate rows (List.replicate columns v)) where
  value i hi j hj := by
    refine ⟨v, ?_, hv⟩
    rw [valueAt?, List.getElem?_replicate, if_pos hi, Option.bind_some, List.getElem?_replicate,
      if_pos hj]

/-- A cell that is written changes its own place only. -/
theorem setCell_holds {row column : Nat} {raw : Raw} {v : Value}
    (h : HoldsCells l d g given rows columns cells) (he : ¬ raw.isEmpty)
    (hv : l.cell d raw g.type g.unit = .ok v) (hs : setCell cells row column v = .ok cells') :
    HoldsCells l d g (fun i j => if i = row ∧ j = column then given i j ++ [raw] else given i j)
      rows columns cells' where
  value i hi j hj := by
    unfold setCell at hs
    split at hs
    · next r hr =>
      split at hs
      · next hc =>
        cases hs
        obtain ⟨lt, -⟩ := List.getElem?_eq_some_iff.1 hr
        by_cases hrow : i = row
        · subst hrow
          by_cases hcolumn : j = column
          · subst hcolumn
            refine ⟨v, ?_, ?_⟩
            · rw [valueAt?, List.getElem?_set_self lt, Option.bind_some, List.getElem?_set_self hc]
            · rw [if_pos ⟨rfl, rfl⟩, lastRaw_snoc, if_neg he]
              exact hv
          · obtain ⟨w, hw, hval⟩ := h.value i hi j hj
            rw [valueAt?, hr, Option.bind_some] at hw
            refine ⟨w, ?_, by rwa [if_neg fun e => hcolumn e.2]⟩
            rw [valueAt?, List.getElem?_set_self lt, Option.bind_some,
              List.getElem?_set_ne (Ne.symm hcolumn), hw]
        · obtain ⟨w, hw, hval⟩ := h.value i hi j hj
          refine ⟨w, ?_, by rwa [if_neg fun e => hrow e.1]⟩
          rw [valueAt?, List.getElem?_set_ne (Ne.symm hrow)]
          exact hw
      · cases hs
    · cases hs

theorem fillRow_holds {e : Enumeration} {row : Nat} {named : List (String × Raw)}
    (h : HoldsCells l d g given rows columns cells)
    (hf : l.fillRow d g e row cells named = .ok cells') :
    HoldsCells l d g (fun i j => given i j ++ if i = row then listedAt e j named else [])
      rows columns cells' := by
  induction named generalizing cells given with
  | nil =>
    cases hf
    exact h.congr fun i j => by simp [listedAt]
  | cons p named ih =>
    unfold Linking.fillRow at hf
    split at hf
    · next he =>
      -- an empty cell is listed, but does not count
      have listed : HoldsCells l d g (fun i j => given i j ++
          if i = row ∧ e.rows.get? p.1 = some j then [p.2] else []) rows columns cells := by
        refine h.congr fun i j => ?_
        split
        · rw [lastRaw_snoc, if_pos he]
        · rw [List.append_nil]
      refine (ih listed hf).congr fun i j => ?_
      by_cases hi : i = row <;> simp [hi, listedAt_cons]
    · next he =>
      obtain ⟨column, hcolumn, hf⟩ := bind_eq_ok.1 hf
      obtain ⟨v, hv, hf⟩ := bind_eq_ok.1 hf
      obtain ⟨cells₁, h₁, hf⟩ := bind_eq_ok.1 hf
      rw [orBroken_eq_ok] at hcolumn
      refine (ih (setCell_holds h he hv h₁) hf).congr fun i j => ?_
      by_cases hi : i = row
      · by_cases hj : j = column
        · simp [hi, hj, listedAt_cons, hcolumn]
        · simp [hi, hj, listedAt_cons, hcolumn, Ne.symm hj]
      · simp [hi]

theorem fillGrid_holds {r c : Enumeration} {named : List (String × List Raw)}
    (h : HoldsCells l d g given rows columns cells)
    (hf : l.fillGrid d g r c cells named = .ok cells') :
    HoldsCells l d g (fun i j => given i j ++ (listedAt r i named).flatMap fun raws =>
      listedAt c j (g.columnNames.zip raws)) rows columns cells' := by
  induction named generalizing cells given with
  | nil =>
    cases hf
    exact h.congr fun i j => by simp [listedAt]
  | cons p named ih =>
    obtain ⟨row, hrow, hf⟩ := bind_eq_ok.1 hf
    obtain ⟨pairs, hpairs, hf⟩ := bind_eq_ok.1 hf
    obtain ⟨cells₁, h₁, hf⟩ := bind_eq_ok.1 hf
    rw [orBroken_eq_ok] at hrow
    rw [zip_of_zipEven hpairs] at h₁
    refine (ih (fillRow_holds h h₁) hf).congr fun i j => ?_
    rw [listedAt_cons, hrow, List.append_assoc]
    by_cases hi : i = row
    · simp [hi]
    · simp [hi, Ne.symm hi]

/-- **A grid.** Its axes own the names of the source, and its places hold what falls into them. -/
theorem grid_holds {enumerations : OrderedMap String Enumeration} {v : ValueGrid}
    (h : l.grid enumerations d g = .ok v) : ∃ r c,
      (∀ name ∈ d.rowNames, ∃ row, l.entities.get? name = some ⟨v.rowAxis, row⟩) ∧
      (∀ name ∈ g.columnNames, ∃ row, l.entities.get? name = some ⟨v.columnAxis, row⟩) ∧
      enumerations.get? v.rowAxis = some r ∧ enumerations.get? v.columnAxis = some c ∧
      HoldsCells l d g (g.cellsAt d.rowNames r c) r.names.length c.names.length v.cells := by
  unfold Linking.grid at h
  obtain ⟨_, -, h⟩ := bind_eq_ok.1 h
  obtain ⟨default, hd, h⟩ := bind_eq_ok.1 h
  obtain ⟨rowAxis, hrow, h⟩ := bind_eq_ok.1 h
  obtain ⟨columnAxis, hcolumn, h⟩ := bind_eq_ok.1 h
  obtain ⟨r, hr, h⟩ := bind_eq_ok.1 h
  obtain ⟨c, hc, h⟩ := bind_eq_ok.1 h
  obtain ⟨named, hn, h⟩ := bind_eq_ok.1 h
  obtain ⟨cells, hf, h⟩ := bind_eq_ok.1 h
  cases h
  rw [orBroken_eq_ok] at hr hc
  rw [zip_of_zipEven hn] at hf
  exact ⟨r, c, axisOwner_eq_ok hrow, axisOwner_eq_ok hcolumn, hr, hc,
    fillGrid_holds (replicate_holds hd) hf⟩

end Steps

/-! ## Places of names -/

/-- No two names share an index. -/
def Enumeration.Injective (e : Enumeration) : Prop :=
  ∀ name name' i, e.rows.get? name = some i → e.rows.get? name' = some i → name = name'

theorem Enumeration.Inverse.injective {e : Enumeration} (h : e.Inverse) : e.Injective := by
  intro name name' i hi hi'
  rw [h.row_iff] at hi hi'
  rw [hi] at hi'
  exact Option.some.inj hi'

/-- The cell that the source gives for two names, unless it is empty. -/
def Grid.given? (g : Grid) (rowNames : List String) (row column : String) : Option Raw := do
  let raws ← g.cells[(← rowNames.idxOf? row)]?
  let raw ← raws[(← g.columnNames.idxOf? column)]?
  if raw.isEmpty then none else some raw

/-- Where no index is shared, a row lists what stands under its own name. -/
theorem listedAt_eq {α : Type} {e : Enumeration} (inj : e.Injective) {names : List String}
    (nd : names.Nodup) {name : String} {i : Nat} (hi : e.rows.get? name = some i)
    (listed : List α) :
    listedAt e i (names.zip listed) = ((names.idxOf? name).bind fun k => listed[k]?).toList := by
  induction names generalizing listed with
  | nil => rfl
  | cons x names ih =>
    rw [List.nodup_cons] at nd
    cases listed with
    | nil => cases (x :: names).idxOf? name <;> rfl
    | cons a listed =>
      rw [List.zip_cons_cons, listedAt_cons, ih nd.2, List.idxOf?_cons]
      by_cases hx : x = name
      · have none : names.idxOf? name = none := List.idxOf?_eq_none_iff.2 (hx ▸ nd.1)
        simp [hx, hi, none]
      · have other : e.rows.get? x ≠ some i := fun h => hx (inj x name i h hi)
        cases h : names.idxOf? name <;> simp [hx, other]

/-- The cell of the source for two names is the only one that falls into their place. -/
theorem lastRaw_gridCells {g : Grid} {rowNames : List String} {r c : Enumeration}
    (rows : r.Injective) (columns : c.Injective) (nd : rowNames.Nodup) (nd' : g.columnNames.Nodup)
    {row column : String} {i j : Nat} (hi : r.rows.get? row = some i)
    (hj : c.rows.get? column = some j) :
    lastRaw (g.cellsAt rowNames r c i j) = g.given? rowNames row column := by
  unfold Grid.cellsAt Grid.given?
  rw [listedAt_eq rows nd hi]
  cases hk : rowNames.idxOf? row with
  | none => rfl
  | some k =>
    simp only [Option.bind_some, Option.bind_eq_bind]
    cases hraws : g.cells[k]? with
    | none => rfl
    | some raws =>
      simp only [Option.toList_some, List.flatMap_singleton, Option.bind_some]
      rw [listedAt_eq columns nd' hj]
      cases hm : g.columnNames.idxOf? column with
      | none => rfl
      | some m =>
        simp only [Option.bind_some]
        cases hraw : raws[m]? with
        | none => rfl
        | some raw => exact lastRaw_snoc [] raw

/-! ## Reading -/

namespace Access

variable {a : Access} {table : String}

/-- A name stands for its row in the enumeration of the axis. -/
theorem axisIndex_name {axis name : String} {e : Enumeration} {i : Nat}
    (he : a.store.enumerations.get? axis = some e) (hi : e.rows.get? name = some i) :
    a.axisIndex axis table (.name name) = .ok i := by
  unfold axisIndex Store.rowsOf?
  simp only [he, Option.map_some, Option.bind_some, hi]

theorem gridCell_index {v : ValueGrid} {x : Value} {i j : Nat} (hv : a.store.grid? table = some v)
    (hx : valueAt? v.cells i j = some x) : a.gridCell table (.index i) (.index j) = .ok x := by
  have cell : (if (0 : Int) ≤ i ∧ (0 : Int) ≤ j then
      v.cells[(i : Int).toNat]?.bind fun row => row[(j : Int).toNat]? else none) = some x := by
    rw [if_pos ⟨Int.natCast_nonneg i, Int.natCast_nonneg j⟩, Int.toNat_natCast, Int.toNat_natCast]
    exact hx
  unfold gridCell
  rw [hv]
  simp only [axisIndex, bind, Except.bind, cell]
  rfl

/-- Names and their indexes read the same cell. -/
theorem gridCell_name {v : ValueGrid} {r c : Enumeration} {row column : String} {i j : Nat}
    (hv : a.store.grid? table = some v) (hr : a.store.enumerations.get? v.rowAxis = some r)
    (hc : a.store.enumerations.get? v.columnAxis = some c) (hi : r.rows.get? row = some i)
    (hj : c.rows.get? column = some j) :
    a.gridCell table (.name row) (.name column) = a.gridCell table (.index i) (.index j) := by
  unfold gridCell
  rw [hv]
  simp only [axisIndex_name hr hi, axisIndex_name hc hj]
  rfl

end Access

/-- A run fails over a grid if the names of an axis belong to no one owner. -/
theorem link_refuses_mixedAxis {units : Units.Converter} {options : LinkOptions}
    {tables : List Draft} {predefined : Predefined} {d : Draft} {g : Grid} (hd : d ∈ tables)
    (hg : d.grid? = some g)
    (mixed : (¬ ∃ o, ∀ name ∈ d.rowNames, Declares predefined.toList tables o name) ∨
      ¬ ∃ o, ∀ name ∈ g.columnNames, Declares predefined.toList tables o name) :
    ∃ e, (link units options tables predefined).result = .error e := by
  cases h : (link units options tables predefined).result with
  | error e => exact ⟨e, rfl⟩
  | ok s =>
    obtain ⟨nd, n, a, hn, ha, rfl⟩ := link_eq_ok_iff.1 h
    have linked := linkNames_linked nd hn
    obtain ⟨v, -, hv⟩ := grid_of_mem linked nd ha hd hg
    obtain ⟨r, c, rows, columns, -⟩ := grid_holds hv
    refine (mixed.elim (fun no => no ⟨v.rowAxis, fun name hm => ?_⟩)
      fun no => no ⟨v.columnAxis, fun name hm => ?_⟩).elim
    · exact (linked.owns_iff _ _).1 (rows name hm)
    · exact (linked.owns_iff _ _).1 (columns name hm)

/-- **Grids.** The names of each axis belong to one owner, or the run fails. Then the grid can be
read at every pair of names of the two owners, those that mods add among them: by the names or by
their indexes alike, and it answers the value of the cell that the source gives for the names, or
that of the default. No index is shared on an axis that is a table; on another, that is a
condition. -/
theorem link_gridCells {units : Units.Converter} {options : LinkOptions} {tables : List Draft}
    {predefined : Predefined} (parsed : ∀ d ∈ tables, d.Parsed) {d : Draft} {g : Grid}
    (hd : d ∈ tables) (hg : d.grid? = some g) :
    (((¬ ∃ o, ∀ name ∈ d.rowNames, Declares predefined.toList tables o name) ∨
        ¬ ∃ o, ∀ name ∈ g.columnNames, Declares predefined.toList tables o name) →
      ∃ e, (link units options tables predefined).result = .error e) ∧
    ∀ s, (link units options tables predefined).result = .ok s →
      ∃ rowAxis columnAxis r c,
        (∀ name ∈ d.rowNames, s.entityOwners.get? name = some rowAxis) ∧
        (∀ name ∈ g.columnNames, s.entityOwners.get? name = some columnAxis) ∧
        s.gridAxes.get? d.name = some (rowAxis, columnAxis) ∧
        s.enumerations.get? rowAxis = some r ∧ s.enumerations.get? columnAxis = some c ∧
        ((∃ b ∈ tables, b.format.isEnumerated ∧ b.name = rowAxis) → r.Injective) ∧
        ((∃ b ∈ tables, b.format.isEnumerated ∧ b.name = columnAxis) → c.Injective) ∧
        (r.Injective → c.Injective → ∀ row i column j, r.rows.get? row = some i →
          c.rows.get? column = some j → ∀ missing, ∃ v,
            Access.gridCell ⟨s, missing⟩ d.name (.name row) (.name column) = .ok v ∧
            Access.gridCell ⟨s, missing⟩ d.name (.index i) (.index j) = .ok v ∧
            Linking.cell ⟨units, options, s.entities⟩ d
              ((g.given? d.rowNames row column).getD g.default) g.type g.unit = .ok v) := by
  refine ⟨link_refuses_mixedAxis hd hg, fun s h => ?_⟩
  obtain ⟨nd, n, a, hn, ha, rfl⟩ := link_eq_ok_iff.1 h
  have linked := linkNames_linked nd hn
  have wf := (parsed d hd).wellFormed
  obtain ⟨v, table, hv⟩ := grid_of_mem linked nd ha hd hg
  obtain ⟨r, c, rows, columns, hr, hc, holds⟩ := grid_holds hv
  have injective : ∀ o e, n.enumerations.get? o = some e →
      (∃ b ∈ tables, b.format.isEnumerated ∧ b.name = o) → e.Injective := by
    rintro o e he ⟨b, hb, hbe, rfl⟩
    exact (linked.inverse_of_table hb hbe he).injective
  refine ⟨v.rowAxis, v.columnAxis, r, c,
    fun name hm => (Names.entityOwners_eq_some_iff rfl).2 (rows name hm),
    fun name hm => (Names.entityOwners_eq_some_iff rfl).2 (columns name hm), ?_, hr, hc,
    injective _ _ hr, injective _ _ hc,
    fun rowsApart columnsApart row i column j hi hj missing => ?_⟩
  · rw [Store.gridAxes, OrderedMap.get?_filterMapValues, table]
    rfl
  · have grid : Store.grid? ⟨a.tables, a.info, n.entities, n.enumerations, a.wiki,
        options.enablePrecisions⟩ d.name = some v := by
      simp only [Store.grid?, table]
    obtain ⟨x, hx, value⟩ := holds.value i (linked.row_lt hr hi) j (linked.row_lt hc hj)
    rw [lastRaw_gridCells rowsApart columnsApart wf.rows_nodup (wf.grid g hg).columns_nodup hi hj]
      at value
    have byIndex := Access.gridCell_index (a := ⟨_, missing⟩) grid hx
    refine ⟨x, ?_, byIndex, value⟩
    rw [Access.gridCell_name (a := ⟨_, missing⟩) grid hr hc hi hj, byIndex]

/-- What animals eat: a cell of the source for an animal that a mod adds. -/
theorem zoo_gridCells : ∃ s d g v,
    (link (.only [("g", .real 0.001), ("kg", .real 1.0)] []) {} Draft.zoo ∅).result = .ok s ∧
    d ∈ Draft.zoo ∧ d.name = "Likes" ∧ d.grid? = some g ∧
    s.gridAxes.get? d.name = some ("Animal", "Meal") ∧
    (g.given? d.rowNames "cow" "hay").isSome ∧
    Access.gridCell ⟨s, {}⟩ d.name (.name "cow") (.name "hay") = .ok v ∧
    Access.gridCell ⟨s, {}⟩ d.name (.index 2) (.index 0) = .ok v ∧
    Linking.cell ⟨.only [("g", .real 0.001), ("kg", .real 1.0)] [], {}, s.entities⟩ d
      ((g.given? d.rowNames "cow" "hay").getD g.default) g.type g.unit = .ok v := by
  have run : ((link (.only [("g", .real 0.001), ("kg", .real 1.0)] []) {} Draft.zoo
      ∅).result.toOption.map fun s => (s.gridAxes.get? "Likes",
        (s.enumerations.get? "Animal").bind fun e => e.rows.get? "cow",
        (s.enumerations.get? "Meal").bind fun e => e.rows.get? "hay")) =
      some (some ("Animal", "Meal"), some 2, some 0) := by
    decide +kernel
  have last : Draft.zoo.getLast?.map (fun d => (d.name, d.grid?.map fun g =>
      (g.given? d.rowNames "cow" "hay").isSome)) = some ("Likes", some true) := by
    decide +kernel
  have animal : ∃ b ∈ Draft.zoo, b.format.isEnumerated ∧ b.name = "Animal" := by decide +kernel
  have meal : ∃ b ∈ Draft.zoo, b.format.isEnumerated ∧ b.name = "Meal" := by decide +kernel
  obtain ⟨s, h, hs⟩ := toOption_map_eq_some.1 run
  obtain ⟨d, hd, hdg⟩ := Option.map_eq_some_iff.1 last
  simp only [Prod.mk.injEq, Option.map_eq_some_iff, Option.bind_eq_some_iff] at hs hdg
  obtain ⟨axes, ⟨r', hr', hi⟩, c', hc', hj⟩ := hs
  obtain ⟨name, g, hg, given⟩ := hdg
  have mem : d ∈ Draft.zoo := List.mem_of_getLast? hd
  obtain ⟨rowAxis, columnAxis, r, c, -, -, axes', hr, hc, rowsApart, columnsApart, read⟩ :=
    (link_gridCells (fun d => Draft.parsed_of_mem_readAll) mem hg).2 s h
  rw [name, axes, Option.some.injEq, Prod.mk.injEq] at axes'
  obtain ⟨rfl, rfl⟩ := axes'
  rw [hr'] at hr
  rw [hc'] at hc
  cases hr
  cases hc
  obtain ⟨v, byName, byIndex, value⟩ :=
    read (rowsApart animal) (columnsApart meal) "cow" 2 "hay" 0 hi hj {}
  exact ⟨s, d, g, v, h, mem, name, hg, name ▸ axes, given, byName, byIndex, value⟩

end TypedTables
