import TypedTables.Proofs.GridCells
import TypedTables.Proofs.MoreNames
/-!
# Grown names

A mod that is put after a dataset adds names to its target, at the end and before the first table is
resolved. No name changes its row. A grid over the names of the target gets larger, but the cells of
its source fall where they fell, so it holds what it held, and its default in all new places.

Results:
* `linkNames_snoc`, `Linked.grown`: the names with and without the mod.
* `grid_extended`: a grid with and without the mod.
* `grid_eq`: a grid over names of other owners.
-/
namespace TypedTables

/-! ## Names -/

/-- The names of a dataset before and after one owner has got more of them. -/
structure Names.Grown (owner : String) (n n' : Names) : Prop where
  entities : ∀ name x, n.entities.get? name = some x → n'.entities.get? name = some x
  info : n'.info = n.info
  others : ∀ o, o ≠ owner → n'.enumerations.get? o = n.enumerations.get? o
  names : ∀ o e, n.enumerations.get? o = some e →
    ∃ e', n'.enumerations.get? o = some e' ∧ e.names <+: e'.names

/-- What stands in a list stands in every longer one. -/
theorem getElem?_of_isPrefix {α : Type} {l l' : List α} (hp : l <+: l') {i : Nat} {x : α}
    (h : l[i]? = some x) : l'[i]? = some x := by
  obtain ⟨rest, rfl⟩ := hp
  rw [List.getElem?_append_left (List.getElem?_eq_some_iff.1 h).1, h]

theorem modsLast_snoc {m : Draft} (hm : m.isMod) (tables : List Draft) :
    modsLast (tables ++ [m]) = modsLast tables ++ [m] := by
  simp [modsLast, hm]

theorem Names.addTables_snoc {m : Draft} (hm : ¬ m.format.isEnumerated) (n : Names)
    (rest : List Draft) : n.addTables (rest ++ [m]) = n.addTables rest := by
  induction rest generalizing n with
  | nil => exact if_neg hm
  | cons d rest ih => simp only [List.cons_append, addTables, ih]

theorem Names.addMods_snoc_eq_ok {m : Draft} {t : String} (ht : m.target? = some t) {n n' : Names}
    {rest : List Draft} (h : (n.addMods (rest ++ [m])).result = .ok n') :
    ∃ n₁ added, (n.addMods rest).result = .ok n₁ ∧ n₁.addMod m t = .ok (n', added) := by
  induction rest generalizing n with
  | nil =>
    rw [List.nil_append, result_addMods_cons ht, bind_eq_ok] at h
    obtain ⟨⟨n₁, added⟩, h₁, h⟩ := h
    cases h
    exact ⟨n, added, rfl, h₁⟩
  | cons d rest ih =>
    rw [List.cons_append] at h
    cases hd : d.target? with
    | none =>
      unfold addMods at h ⊢
      rw [hd] at h ⊢
      exact ih h
    | some u =>
      rw [result_addMods_cons hd, bind_eq_ok] at h
      obtain ⟨p, hp, h⟩ := h
      obtain ⟨n₁, added, h₁, hm⟩ := ih h
      exact ⟨n₁, added, by rw [result_addMods_cons hd, hp]; exact h₁, hm⟩

/-- The names of a mod come last. -/
theorem linkNames_snoc {tables : List Draft} {predefined : Predefined} {m : Draft} {t : String}
    (ht : m.target? = some t) {n n' : Names}
    (h : (linkNames (modsLast tables) predefined).result = .ok n)
    (h' : (linkNames (modsLast (tables ++ [m])) predefined).result = .ok n') :
    ∃ added, n.addMod m t = .ok (n', added) := by
  have notTable : ¬ m.format.isEnumerated := fun hm => by
    rw [Draft.target?_of_isEnumerated hm] at ht
    cases ht
  rw [modsLast_snoc (Draft.isMod_iff.2 ⟨t, ht⟩)] at h'
  unfold linkNames at h h'
  simp only [Logged.result_bind, Logged.result_ofExcept, bind_eq_ok] at h h'
  obtain ⟨n₁, h₁, n₂, h₂, h₃⟩ := h
  obtain ⟨n₁', h₁', n₂', h₂', h₃'⟩ := h'
  rw [h₁] at h₁'
  cases h₁'
  rw [Names.addTables_snoc notTable, h₂] at h₂'
  cases h₂'
  obtain ⟨n₃, added, hn, hm⟩ := Names.addMods_snoc_eq_ok ht h₃'
  rw [h₃] at hn
  cases hn
  exact ⟨added, hm⟩

/-- **Names.** A mod adds names to its target and changes none. -/
theorem Linked.grown {ps : List (String × OrderedMap String Int)} {ts : List Draft} {n n' : Names}
    {m : Draft} {t : String} {added : Nat} (h : Linked ps ts n) (ht : m.target? = some t)
    (hn : n.addMod m t = .ok (n', added)) : n.Grown t n' := by
  have coherent := (h.addMod ht hn).coherent
  obtain ⟨i, e, n₁, e', hi, -, he, hx, rfl, -⟩ := Names.addMod_eq_ok_iff.1 hn
  have x := Names.extend_spec hx
  obtain ⟨b, hb, hbe, rfl, -⟩ := (h.info_iff t i).1 hi
  have inv := h.inverse_of_table hb hbe he
  have own : (n₁.enumerations.insert b.name e').get? b.name = some e' := by
    rw [OrderedMap.get?_insert, if_pos rfl]
  have others : ∀ o, o ≠ b.name →
      (n₁.enumerations.insert b.name e').get? o = n.enumerations.get? o := by
    intro o ho
    rw [OrderedMap.get?_insert, if_neg (Ne.symm ho), x.enumerations]
  refine ⟨fun name x' hx' => ?_, x.info, others, fun o e₀ he₀ => ?_⟩
  · obtain ⟨o, row⟩ := x'
    obtain ⟨e₀, he₀, hrow⟩ := (h.coherent name o row).1 hx'
    refine (coherent name o row).2 ?_
    by_cases ho : o = b.name
    · subst ho
      rw [he] at he₀
      cases he₀
      have listed := getElem?_of_isPrefix x.names_prefix ((inv.row_iff name row).1 hrow)
      exact ⟨e', own, ((x.inverse inv).row_iff name row).2 listed⟩
    · exact ⟨e₀, (others o ho).trans he₀, hrow⟩
  · by_cases ho : o = b.name
    · subst ho
      rw [he] at he₀
      cases he₀
      exact ⟨e', own, x.names_prefix⟩
    · exact ⟨e₀, (others o ho).trans he₀, List.prefix_rfl⟩

theorem Names.Grown.within {owner : String} {n n' : Names} (h : n.Grown owner n')
    (units : Units.Converter) (options : LinkOptions) :
    Linking.Within ⟨units, options, n.entities⟩ ⟨units, options, n'.entities⟩ :=
  ⟨rfl, rfl, h.entities⟩

/-! ## Grids -/

section Grids

variable {g : Grid} {rowNames : List String} {r r' c c' : Enumeration} {i j : Nat}

theorem listedAt_congr {α : Type} {e e' : Enumeration} {named : List (String × α)}
    (same : ∀ p ∈ named, e'.rows.get? p.1 = e.rows.get? p.1) (i : Nat) :
    listedAt e' i named = listedAt e i named :=
  congrArg (List.map Prod.snd) (List.filter_congr fun p hp => by rw [same p hp])

theorem listedAt_eq_nil {α : Type} {e : Enumeration} {named : List (String × α)}
    (none : ∀ p ∈ named, e.rows.get? p.1 ≠ some i) : listedAt e i named = [] := by
  rw [listedAt, List.filter_eq_nil_iff.2 fun p hp => by simpa using none p hp, List.map_nil]

/-- The cells of the source fall where they fell if its names keep their rows. -/
theorem cellsAt_congr (rows : ∀ name ∈ rowNames, r'.rows.get? name = r.rows.get? name)
    (columns : ∀ name ∈ g.columnNames, c'.rows.get? name = c.rows.get? name) (i j : Nat) :
    g.cellsAt rowNames r' c' i j = g.cellsAt rowNames r c i j := by
  unfold Grid.cellsAt
  rw [listedAt_congr fun p hp => rows p.1 (List.of_mem_zip hp).1]
  congr 1
  funext raws
  exact listedAt_congr (fun p hp => columns p.1 (List.of_mem_zip hp).1) j

/-- No cell of the source falls into a row or a column that is that of no name of the source. -/
theorem cellsAt_eq_nil (h : (∀ name ∈ rowNames, r.rows.get? name ≠ some i) ∨
      ∀ name ∈ g.columnNames, c.rows.get? name ≠ some j) : g.cellsAt rowNames r c i j = [] := by
  unfold Grid.cellsAt
  rcases h with h | h
  · rw [listedAt_eq_nil fun p hp => h p.1 (List.of_mem_zip hp).1]
    rfl
  · refine List.flatMap_eq_nil_iff.2 fun raws _ => ?_
    exact listedAt_eq_nil fun p hp => h p.1 (List.of_mem_zip hp).1

/-- Cells of one shape are the same if they are in every place. -/
theorem ShapedCells.ext {type : FieldType} {rows columns : Nat} {cells cells' : List (List Value)}
    (h : ShapedCells type rows columns cells) (h' : ShapedCells type rows columns cells')
    (same : ∀ i < rows, ∀ j < columns, valueAt? cells' i j = valueAt? cells i j) :
    cells' = cells := by
  refine List.ext_getElem (h'.length.trans h.length.symm) fun i hi' hi => ?_
  have length := (h.row _ (List.getElem_mem hi)).1
  have length' := (h'.row _ (List.getElem_mem hi')).1
  refine List.ext_getElem (length'.trans length.symm) fun j hj' hj => ?_
  have value := same i (h.length ▸ hi) j (length ▸ hj)
  simpa [valueAt?, hi, hi', hj, hj'] using value

end Grids

/-- What becomes of a grid whose axes have grown, from so many rows and columns to so many. -/
structure ValueGrid.ExtendedTo (l : Linking) (d : Draft) (g : Grid)
    (rows columns rows' columns' : Nat) (v v' : ValueGrid) : Prop where
  rowAxis : v'.rowAxis = v.rowAxis
  columnAxis : v'.columnAxis = v.columnAxis
  old : ∀ i < rows, ∀ j < columns, ∃ x, valueAt? v.cells i j = some x ∧
    valueAt? v'.cells i j = some x
  new : ∃ x, l.cell d g.default g.type g.unit = .ok x ∧ ∀ i < rows', ∀ j < columns',
    rows ≤ i ∨ columns ≤ j → valueAt? v'.cells i j = some x


/-- The axes of a grid, and its default. -/
theorem grid_axes {l : Linking} {enumerations : OrderedMap String Enumeration} {d : Draft}
    {g : Grid} {v : ValueGrid} (h : l.grid enumerations d g = .ok v) :
    axisOwner l.entities d .row d.rowNames = .ok v.rowAxis ∧
      axisOwner l.entities d .column g.columnNames = .ok v.columnAxis ∧
      ∃ x, l.cell d g.default g.type g.unit = .ok x := by
  unfold Linking.grid at h
  obtain ⟨_, -, h⟩ := bind_eq_ok.1 h
  obtain ⟨default, hd, h⟩ := bind_eq_ok.1 h
  obtain ⟨rowAxis, hrow, h⟩ := bind_eq_ok.1 h
  obtain ⟨columnAxis, hcolumn, h⟩ := bind_eq_ok.1 h
  obtain ⟨r, -, h⟩ := bind_eq_ok.1 h
  obtain ⟨c, -, h⟩ := bind_eq_ok.1 h
  obtain ⟨named, -, h⟩ := bind_eq_ok.1 h
  obtain ⟨cells, -, h⟩ := bind_eq_ok.1 h
  cases h
  exact ⟨hrow, hcolumn, default, hd⟩

/-- The axes of a grid stay. -/
theorem axes_eq {l l' : Linking} (within : l.Within l')
    {enumerations enumerations' : OrderedMap String Enumeration} {d : Draft} {g : Grid}
    {v v' : ValueGrid} (h : l.grid enumerations d g = .ok v)
    (h' : l'.grid enumerations' d g = .ok v') :
    v'.rowAxis = v.rowAxis ∧ v'.columnAxis = v.columnAxis := by
  obtain ⟨row, column, -⟩ := grid_axes h
  obtain ⟨row', column', -⟩ := grid_axes h'
  have rowKept := within.owner d _ _ _ row
  have columnKept := within.owner d _ _ _ column
  rw [row'] at rowKept
  rw [column'] at columnKept
  exact ⟨Except.ok.inj rowKept, Except.ok.inj columnKept⟩

section Growth

variable {ps ps' : List (String × OrderedMap String Int)} {ts ts' : List Draft} {n n' : Names}
  {owner : String}

/-- The names of an axis keep their rows, and those are old ones. -/
theorem Names.Grown.rows_of_axis (grown : n.Grown owner n') (linked : Linked ps ts n)
    (linked' : Linked ps' ts' n') {o : String} {e e' : Enumeration}
    (he : n.enumerations.get? o = some e) (he' : n'.enumerations.get? o = some e')
    {names : List String} (owned : ∀ name ∈ names, ∃ row, n.entities.get? name = some ⟨o, row⟩) :
    ∀ name ∈ names, e'.rows.get? name = e.rows.get? name ∧
      ∀ i, e.rows.get? name = some i → i < e.names.length := by
  intro name hm
  obtain ⟨row, hrow⟩ := owned name hm
  obtain ⟨e₁, he₁, row₁⟩ := (linked.coherent name o row).1 hrow
  obtain ⟨e₂, he₂, row₂⟩ := (linked'.coherent name o row).1 (grown.entities name _ hrow)
  rw [he] at he₁
  rw [he'] at he₂
  cases he₁
  cases he₂
  exact ⟨row₂.trans row₁.symm, fun i hi => linked.row_lt he hi⟩

/-- **Grids.** A grid over more names holds what it held, and its default in all new places. -/
theorem grid_extended (grown : n.Grown owner n') (linked : Linked ps ts n)
    (linked' : Linked ps' ts' n') {units : Units.Converter} {options : LinkOptions} {d : Draft}
    {g : Grid} {v v' : ValueGrid}
    (h : Linking.grid ⟨units, options, n.entities⟩ n.enumerations d g = .ok v)
    (h' : Linking.grid ⟨units, options, n'.entities⟩ n'.enumerations d g = .ok v') :
    ∃ r c r' c', n.enumerations.get? v.rowAxis = some r ∧
      n.enumerations.get? v.columnAxis = some c ∧
      n'.enumerations.get? v.rowAxis = some r' ∧ n'.enumerations.get? v.columnAxis = some c' ∧
      v.ExtendedTo ⟨units, options, n.entities⟩ d g r.names.length c.names.length r'.names.length
        c'.names.length v' := by
  have within := grown.within units options
  obtain ⟨-, -, default, hdefault⟩ := grid_axes h
  obtain ⟨sameRow, sameColumn⟩ := axes_eq within h h'
  obtain ⟨r, c, rows, columns, hr, hc, holds⟩ := grid_holds h
  obtain ⟨r', c', -, -, hr', hc', holds'⟩ := grid_holds h'
  rw [sameRow] at hr'
  rw [sameColumn] at hc'
  obtain ⟨_, found, rowsPrefix⟩ := grown.names _ r hr
  rw [hr'] at found
  cases found
  obtain ⟨_, found, columnsPrefix⟩ := grown.names _ c hc
  rw [hc'] at found
  cases found
  have ofRows := grown.rows_of_axis linked linked' hr hr' rows
  have ofColumns := grown.rows_of_axis linked linked' hc hc' columns
  have same := cellsAt_congr (g := g) (fun name hm => (ofRows name hm).1)
    fun name hm => (ofColumns name hm).1
  refine ⟨r, c, r', c', hr, hc, hr', hc', sameRow, sameColumn, fun i hi j hj => ?_,
    default, hdefault, fun i hi j hj new => ?_⟩
  · obtain ⟨x, hx, value⟩ := holds.value i hi j hj
    obtain ⟨x', hx', value'⟩ := holds'.value i (Nat.lt_of_lt_of_le hi rowsPrefix.length_le) j
      (Nat.lt_of_lt_of_le hj columnsPrefix.length_le)
    have kept := within.cell d _ _ _ x value
    rw [same, kept] at value'
    cases Except.ok.inj value'
    exact ⟨x, hx, hx'⟩
  · obtain ⟨x', hx', value'⟩ := holds'.value i hi j hj
    have none : g.cellsAt d.rowNames r c i j = [] := by
      refine cellsAt_eq_nil (new.imp (fun le name hm row => ?_) fun le name hm column => ?_)
      · exact absurd ((ofRows name hm).2 i row) (Nat.not_lt.2 le)
      · exact absurd ((ofColumns name hm).2 j column) (Nat.not_lt.2 le)
    have kept := within.cell d _ _ _ default hdefault
    rw [same, none] at value'
    change Linking.cell _ d g.default g.type g.unit = .ok x' at value'
    rw [kept] at value'
    rw [hx', Except.ok.inj value']

/-- A grid whose axes have not grown is the same. -/
theorem grid_eq (grown : n.Grown owner n') (linked : Linked ps ts n)
    (linked' : Linked ps' ts' n') {units : Units.Converter} {options : LinkOptions} {d : Draft}
    {g : Grid} {v v' : ValueGrid}
    (h : Linking.grid ⟨units, options, n.entities⟩ n.enumerations d g = .ok v)
    (h' : Linking.grid ⟨units, options, n'.entities⟩ n'.enumerations d g = .ok v')
    (rows : v.rowAxis ≠ owner) (columns : v.columnAxis ≠ owner) : v' = v := by
  obtain ⟨r, c, r', c', hr, hc, hr', hc', extended⟩ := grid_extended grown linked linked' h h'
  rw [grown.others _ rows, hr] at hr'
  rw [grown.others _ columns, hc] at hc'
  cases hr'
  cases hc'
  obtain ⟨_, _, found, found', shaped⟩ := grid_shaped h
  rw [hr] at found
  rw [hc] at found'
  cases found
  cases found'
  obtain ⟨_, _, found, found', shaped'⟩ := grid_shaped h'
  rw [extended.rowAxis, grown.others _ rows, hr] at found
  rw [extended.columnAxis, grown.others _ columns, hc] at found'
  cases found
  cases found'
  have cells : v'.cells = v.cells := by
    refine shaped.ext shaped' fun i hi j hj => ?_
    obtain ⟨x, hx, hx'⟩ := extended.old i hi j hj
    rw [hx, hx']
  have rowAxis := extended.rowAxis
  have columnAxis := extended.columnAxis
  cases v
  cases v'
  simp_all

end Growth

end TypedTables
