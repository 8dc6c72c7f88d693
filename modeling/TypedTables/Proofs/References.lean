import TypedTables.Proofs.GridCells
/-!
# References

An INT cell may name an entity of any table: of its own, of one that comes later, of a predefined
enumeration, or one that only a mod adds. All names are linked before the first cell is resolved and
no row is numbered anew afterwards, so every name leads to the row that its entity has in the store.

Results:
* `integer_denotes`, `cell_reads`: what the text of an INT stands for.
* `values_of_records`, `values_of_mod`, `values_of_grid`: a run that succeeds has resolved its cells.
* `Linked.located`: an entity is where its owner lists it.
* `link_references`: INT cells lead to what they name, or the run fails.
-/
namespace TypedTables

open TypedTables.Decimal (IntegerText readInteger?_eq_some_iff)

/-! ## Cells and their texts -/

/-- A cell that a run resolves, with its type and its unit: any cell of a table of records, and
those that are given in a mod of a table of entities or in a grid. -/
inductive ResolvedCell (tables : List Draft) (d : Draft) : FieldType → String → Raw → Prop
  | record {c : Column} {raw : Raw} : d.format = .entities ∨ d.format = .anonymousRows →
    c ∈ d.columns → raw ∈ c.cells → ResolvedCell tables d c.type c.unit raw
  | mod {b : Draft} {c : Column} {raw : Raw} : b ∈ tables → b.format = .entities →
    d.target? = some b.name → c ∈ d.columns → raw ∈ c.cells → ¬ raw.isEmpty →
    ResolvedCell tables d c.type c.unit raw
  | grid {g : Grid} {row : List Raw} {raw : Raw} :
    d.grid? = some g → row ∈ g.cells → raw ∈ row → ¬ raw.isEmpty →
    ResolvedCell tables d g.type g.unit raw

/-- The text of a scalar that is kept in the pool, with the prefix of its field. -/
def Draft.textOf? (d : Draft) : Raw → Option String
  | .empty => some ""
  | .code i => d.pool.lookup i
  | _ => none

/-! ## What a text stands for -/

/-- The row is the index of a predefined member, or one of the rows of a table, and there the table
lists the name. -/
inductive Store.Located (s : Store) (tables : List Draft) (predefined : Predefined) (name : String)
    (row : Nat) : String → Prop
  | member {owner : String} {members : OrderedMap String Int} :
    predefined.get? owner = some members → members.get? name = some (row : Int) →
    Located s tables predefined name row owner
  | table {b : Draft} {n : Nat} : b ∈ tables → b.format.isEnumerated →
    s.rowCount? b.name = some n → row < n → (s.namesOf b.name)[row]? = some name →
    Located s tables predefined name row b.name

/-- What the text of an INT stands for: nothing, an integer, or the row of an entity. -/
inductive Store.Denotes (s : Store) (tables : List Draft) (predefined : Predefined) :
    String → Int → Prop
  | blank : Denotes s tables predefined "" (-1)
  | literal {t : String} {i : Int} : IntegerText t.toList i → Denotes s tables predefined t i
  | entity {t owner : String} {row : Nat} : t ≠ "" → (∀ i, ¬ IntegerText t.toList i) →
    s.entityRows.get? t = some row → s.entityOwners.get? t = some owner →
    s.Located tables predefined t row owner → Denotes s tables predefined t row

/-- The value of an INT cell: what its text stands for, or for an array the texts of its
elements. -/
inductive Store.Reads (s : Store) (tables : List Draft) (predefined : Predefined) (d : Draft)
    (raw : Raw) : FieldType → Value → Prop
  | scalar {t : String} {i : Int} : d.textOf? raw = some t → s.Denotes tables predefined t i →
    Reads s tables predefined d raw ⟨.int, false⟩ (.int i)
  | array {is : List Int} :
    List.Forall₂ (fun item i => ∃ t, d.textOf? item = some t ∧ s.Denotes tables predefined t i)
      (raw.scalars ⟨.int, true⟩) is →
    Reads s tables predefined d raw ⟨.int, true⟩ (.array (is.map .int))

section Cells

variable {l : Linking} {d : Draft} {s : Store} {tables : List Draft} {predefined : Predefined}

theorem text_of_kept {raw : Raw} (h : raw = .empty ∨ raw.Keeps d.pool .int) :
    ∃ t, d.textOf? raw = some t ∧ (l.resolver d).text raw = .ok t := by
  obtain ⟨t, ht⟩ := Resolver.exists_text (r := l.resolver d) rfl rfl h
  refine ⟨t, ?_, ht⟩
  rcases h with rfl | h
  · cases ht
    rfl
  · cases h with
    | @pooled _ n _ hn =>
      unfold Resolver.text at ht
      split at ht
      · next blank =>
        cases ht
        have zero : n = 0 := by simpa [Raw.isBlank] using blank
        rw [zero]
        rfl
      · dsimp only at ht
        split at ht
        · next t' found =>
          cases ht
          exact found
        · cases ht

/-- An INT that has a value denotes it. -/
theorem integer_denotes (names : l.entities = s.entities)
    (located : ∀ name owner row, s.entities.get? name = some ⟨owner, row⟩ →
      s.Located tables predefined name row owner) {raw : Raw} {t : String} {i : Int}
    (ht : (l.resolver d).text raw = .ok t) (h : (l.resolver d).integer raw = .ok i) :
    s.Denotes tables predefined t i := by
  unfold Resolver.integer at h
  rw [ht] at h
  change (if t = "" then pure (-1) else _) = Except.ok i at h
  split at h
  · next blank =>
    cases h
    rw [blank]
    exact .blank
  · next filled =>
    cases literal : Text.readInteger? t.toList with
    | some k =>
      rw [literal] at h
      cases h
      exact .literal (readInteger?_eq_some_iff.1 literal)
    | none =>
      rw [literal] at h
      have noInteger : ∀ k, ¬ IntegerText t.toList k := fun k hk => by
        rw [readInteger?_eq_some_iff.2 hk] at literal
        cases literal
      cases hx : s.entities.get? t with
      | none =>
        simp only [Linking.resolver, names, hx] at h
        cases h
      | some x =>
        simp only [Linking.resolver, names, hx] at h
        cases h
        refine .entity filled noInteger ?_ ?_ (located t x.owner x.row hx)
        · rw [Store.entityRows, OrderedMap.get?_mapValues, hx]
          rfl
        · rw [Store.entityOwners, OrderedMap.get?_mapValues, hx]
          rfl

theorem scalar_denotes (names : l.entities = s.entities)
    (located : ∀ name owner row, s.entities.get? name = some ⟨owner, row⟩ →
      s.Located tables predefined name row owner) {item : Raw} {unit : String} {v : Value}
    (kept : item = .empty ∨ item.Keeps d.pool .int)
    (h : (l.resolver d).scalar item .int unit = .ok v) :
    ∃ t i, d.textOf? item = some t ∧ s.Denotes tables predefined t i ∧ v = .int i := by
  obtain ⟨i, hi, rfl⟩ := map_eq_ok.1 h
  obtain ⟨t, ht, text⟩ := text_of_kept (l := l) kept
  exact ⟨t, i, ht, integer_denotes names located text hi, rfl⟩

theorem elements_denote (names : l.entities = s.entities)
    (located : ∀ name owner row, s.entities.get? name = some ⟨owner, row⟩ →
      s.Located tables predefined name row owner) {items : List Raw} {unit : String}
    {values : List Value} (kept : ∀ item ∈ items, item = .empty ∨ item.Keeps d.pool .int)
    (h : List.Forall₂ (fun item v => (l.resolver d).scalar item .int unit = .ok v) items values) :
    ∃ is : List Int, values = is.map .int ∧ List.Forall₂ (fun item i =>
      ∃ t, d.textOf? item = some t ∧ s.Denotes tables predefined t i) items is := by
  induction h with
  | nil => exact ⟨[], rfl, .nil⟩
  | cons hv _ ih =>
    rw [List.forall_mem_cons] at kept
    obtain ⟨t, i, ht, denotes, rfl⟩ := scalar_denotes names located kept.1 hv
    obtain ⟨is, rfl, rest⟩ := ih kept.2
    exact ⟨i :: is, rfl, .cons ⟨t, ht, denotes⟩ rest⟩

/-- An INT cell that has a value reads as it. -/
theorem cell_reads (names : l.entities = s.entities)
    (located : ∀ name owner row, s.entities.get? name = some ⟨owner, row⟩ →
      s.Located tables predefined name row owner) {type : FieldType} {unit : String} {raw : Raw}
    {v : Value} (int : type.base = .int) (fits : raw.Fits d.pool type)
    (h : l.cell d raw type unit = .ok v) : s.Reads tables predefined d raw type v := by
  have kept := Resolver.scalars_fit fits
  obtain ⟨base, isArray⟩ := type
  cases int
  have resolved := mapError_eq_ok.1 h
  cases isArray with
  | false =>
    have value : (l.resolver d).scalar raw .int unit = .ok v := resolved
    obtain ⟨t, i, ht, denotes, rfl⟩ :=
      scalar_denotes names located (kept raw (by simp [Raw.scalars])) value
    exact .scalar ht denotes
  | true =>
    obtain ⟨items, listed, resolved⟩ := bind_eq_ok.1 resolved
    obtain ⟨values, hv, resolved⟩ := bind_eq_ok.1 resolved
    cases resolved
    have all : items = raw.scalars ⟨.int, true⟩ := by
      cases fits with
      | empty => cases listed; rfl
      | scalar scalar => cases scalar
      | array => cases listed; rfl
    subst all
    obtain ⟨is, rfl, denote⟩ := elements_denote names located kept (mapM_eq_ok.1 hv)
    exact .array denote

end Cells

/-! ## What a run resolves -/

section Steps

variable {l : Linking} {d : Draft}

/-- A cell that is not empty has a value. -/
def Linking.HasValue (l : Linking) (d : Draft) (raw : Raw) (type : FieldType) (unit : String) :
    Prop :=
  raw.isEmpty ∨ ∃ v, l.cell d raw type unit = .ok v

theorem writeRow_values {title : Option Column} {name : String} {row : Nat}
    {cells : List (Column × Raw)} {state state' : Sheet × OrderedMap String String}
    (h : l.writeRow d title name row state cells = .ok state') :
    ∀ p ∈ cells, l.HasValue d p.2 p.1.type p.1.unit := by
  induction cells generalizing state with
  | nil => exact fun p hp => by cases hp
  | cons p cells ih =>
    unfold Linking.writeRow at h
    obtain ⟨s, hs, h⟩ := bind_eq_ok.1 h
    rw [List.forall_mem_cons]
    refine ⟨?_, ?_⟩
    · rcases writeCell_eq_ok hs with ⟨empty, -⟩ | ⟨-, f, v, digits, -, hv, -⟩
      · exact .inl empty
      · exact .inr ⟨v, hv⟩
    · dsimp only at h
      split at h
      · obtain ⟨wiki, -, h⟩ := bind_eq_ok.1 h
        exact ih h
      · exact ih h

theorem writeRows_values {t : Target} {title : Option Column} {rows : List (String × Nat)}
    {state state' : Sheet × OrderedMap String String}
    (h : l.writeRows d t title state rows = .ok state') :
    ∀ p ∈ rows, ∀ c ∈ d.columns, ∀ raw, c.cells[p.2]? = some raw →
      l.HasValue d raw c.type c.unit := by
  induction rows generalizing state with
  | nil => exact fun p hp => by cases hp
  | cons p rows ih =>
    obtain ⟨row, -, h⟩ := bind_eq_ok.1 h
    obtain ⟨cells, hcells, h⟩ := bind_eq_ok.1 h
    obtain ⟨state₁, h₁, h⟩ := bind_eq_ok.1 h
    rw [List.forall_mem_cons]
    refine ⟨fun c hc raw hraw => ?_, ih h⟩
    obtain ⟨q, hq, hcq⟩ := exists_of_forall₂ (mapM_eq_ok.1 hcells) hc
    obtain ⟨raw', found, rfl⟩ := map_eq_ok.1 hcq
    rw [orBroken_eq_ok, hraw] at found
    cases found
    exact writeRow_values h₁ _ hq

theorem modify_values (wf : d.WellFormed) (hf : d.format = .entitiesMod) {t : Target}
    {s s' : Sheet} {wiki wiki' : OrderedMap String String}
    (h : l.modify d t s wiki = .ok (s', wiki')) :
    ∀ c ∈ d.columns, ∀ raw ∈ c.cells, l.HasValue d raw c.type c.unit := by
  intro c hc raw hraw
  obtain ⟨s₁, -, h⟩ := bind_eq_ok.1 h
  obtain ⟨title, -, h⟩ := bind_eq_ok.1 h
  obtain ⟨i, hi⟩ := List.mem_iff_getElem?.1 hraw
  have lt := (List.getElem?_eq_some_iff.1 hi).1
  rw [(wf.columns c hc).length_cells] at lt
  -- a mod has names for all its rows
  have named := wf.rows_needed (by rw [hf]; rfl) (Nat.ne_of_gt (Nat.zero_lt_of_lt lt))
  rw [← wf.rows_counted.resolve_left named] at lt
  have row : (d.rowNames[i], i) ∈ d.rowNames.zipIdx :=
    List.mk_mem_zipIdx_iff_getElem?.2 (List.getElem?_eq_getElem lt)
  exact writeRows_values h _ row c hc raw hi

theorem fillRow_values {g : Grid} {e : Enumeration} {row : Nat} {named : List (String × Raw)}
    {cells cells' : List (List Value)} (h : l.fillRow d g e row cells named = .ok cells') :
    ∀ p ∈ named, l.HasValue d p.2 g.type g.unit := by
  induction named generalizing cells with
  | nil => exact fun p hp => by cases hp
  | cons p named ih =>
    unfold Linking.fillRow at h
    rw [List.forall_mem_cons]
    split at h
    · next empty => exact ⟨.inl empty, ih h⟩
    · obtain ⟨column, -, h⟩ := bind_eq_ok.1 h
      obtain ⟨v, hv, h⟩ := bind_eq_ok.1 h
      obtain ⟨cells₁, -, h⟩ := bind_eq_ok.1 h
      exact ⟨.inr ⟨v, hv⟩, ih h⟩

theorem fillGrid_values {g : Grid} {r c : Enumeration} {named : List (String × List Raw)}
    {cells cells' : List (List Value)} (h : l.fillGrid d g r c cells named = .ok cells') :
    ∀ p ∈ named, ∀ q ∈ g.columnNames.zip p.2, l.HasValue d q.2 g.type g.unit := by
  induction named generalizing cells with
  | nil => exact fun p hp => by cases hp
  | cons p named ih =>
    obtain ⟨row, -, h⟩ := bind_eq_ok.1 h
    obtain ⟨pairs, hpairs, h⟩ := bind_eq_ok.1 h
    obtain ⟨cells₁, h₁, h⟩ := bind_eq_ok.1 h
    rw [List.forall_mem_cons, ← zip_of_zipEven hpairs]
    exact ⟨fillRow_values h₁, ih h⟩

end Steps

section Runs

variable {units : Units.Converter} {options : LinkOptions} {tables : List Draft}
  {predefined : Predefined} {n : Names} {a : Assembly} {d : Draft}
  (linked : Linked predefined.toList tables n)
  (nd : ((tables.filter (!·.isMod)).map Draft.name).Nodup)
  (ha : (Linking.addTables ⟨units, options, n.entities⟩ n.enumerations { info := n.info }
    (modsLast tables)).result = .ok a)
  (wf : ∀ d ∈ tables, d.WellFormed)

include nd ha wf in
theorem values_of_records (hd : d ∈ tables) (hf : d.format = .entities ∨ d.format = .anonymousRows) :
    ∀ c ∈ d.columns, ∀ raw ∈ c.cells,
      ∃ v, Linking.cell ⟨units, options, n.entities⟩ d raw c.type c.unit = .ok v := by
  have hm : d.isMod = false := by rcases hf with hf | hf <;> simp [Draft.isMod, hf]
  obtain ⟨a₁, b, h₁, -⟩ := exists_runOf nd ha hd hm
  obtain ⟨k, hk⟩ := Linking.addSheet_of_format hf h₁
  obtain ⟨s, hs, -⟩ := Linking.addSheet_eq_ok hk
  intro c hc raw hraw
  obtain ⟨f, hfield, -⟩ := (sheet_eq_ok (wf d hd).fields_nodup hs).1 c hc
  obtain ⟨-, -, -, values, -⟩ := field_eq_ok hfield
  obtain ⟨v, -, hv⟩ := exists_of_forall₂ values hraw
  exact ⟨v, hv⟩

include linked nd ha wf in
theorem values_of_mod {b : Draft} (hb : b ∈ tables) (hf : b.format = .entities) (hd : d ∈ tables)
    (ht : d.target? = some b.name) : ∀ c ∈ d.columns, ∀ raw ∈ c.cells,
      Linking.HasValue ⟨units, options, n.entities⟩ d raw c.type c.unit := by
  have enumerated : b.format.isEnumerated := by rw [hf]; rfl
  obtain ⟨a₁, a₂, i, hi, hif, turn⟩ := exists_turn_of_mod linked nd ha hb enumerated hd ht
  obtain ⟨e, i', -, hi', -, ⟨hfe, -⟩ | ⟨-, s, k, s', wiki, -, -, hmodify, -⟩⟩ :=
    Linking.addMod_eq_ok turn
  · rw [hi] at hi'
    cases hi'
    rw [hif, hf] at hfe
    cases hfe
  · refine modify_values (wf d hd) ?_ hmodify
    simpa [Draft.isMod] using Draft.isMod_iff.2 ⟨_, ht⟩

include linked nd ha wf in
theorem values_of_grid {g : Grid} (hd : d ∈ tables) (hg : d.grid? = some g) :
    ∀ row ∈ g.cells, ∀ raw ∈ row,
      Linking.HasValue ⟨units, options, n.entities⟩ d raw g.type g.unit := by
  obtain ⟨v, -, hv⟩ := grid_of_mem linked nd ha hd hg
  have even := (wf d hd).grid g hg
  unfold Linking.grid at hv
  obtain ⟨_, -, hv⟩ := bind_eq_ok.1 hv
  obtain ⟨default, -, hv⟩ := bind_eq_ok.1 hv
  obtain ⟨rowAxis, -, hv⟩ := bind_eq_ok.1 hv
  obtain ⟨columnAxis, -, hv⟩ := bind_eq_ok.1 hv
  obtain ⟨r, -, hv⟩ := bind_eq_ok.1 hv
  obtain ⟨c, -, hv⟩ := bind_eq_ok.1 hv
  obtain ⟨named, hn, hv⟩ := bind_eq_ok.1 hv
  obtain ⟨cells, hf, -⟩ := bind_eq_ok.1 hv
  rw [zip_of_zipEven hn] at hf
  intro row hrow raw hraw
  -- every row and every column has a name
  rw [← List.map_snd_zip (Nat.le_of_eq even.length_cells)] at hrow
  obtain ⟨p, hp, rfl⟩ := List.mem_map.1 hrow
  rw [← List.map_snd_zip (Nat.le_of_eq (even.length_row _ (List.of_mem_zip hp).2))] at hraw
  obtain ⟨q, hq, rfl⟩ := List.mem_map.1 hraw
  exact fillGrid_values hf p hp q hq

include linked nd ha wf in
/-- An entity is where its owner lists it. -/
theorem Linked.located {s : Store} (info : s.info = a.info)
    (enumerations : s.enumerations = n.enumerations) {name owner : String} {row : Nat}
    (hx : n.entities.get? name = some ⟨owner, row⟩) :
    s.Located tables predefined name row owner := by
  obtain ⟨e, he, hrow⟩ := (linked.coherent name owner row).1 hx
  have ofTable : ∀ b ∈ tables, b.format.isEnumerated → b.rowNames ≠ [] → b.name = owner →
      s.Located tables predefined name row owner := by
    rintro b hb hbe named rfl
    obtain ⟨e', he', inv, -⟩ := linked.table b hb hbe named
    rw [he] at he'
    cases he'
    have listed := (inv.row_iff name row).1 hrow
    refine .table hb hbe (n := e.names.length) ?_ (List.getElem?_eq_some_iff.1 listed).1 ?_
    · rw [Store.rowCount?, info]
      cases hf : b.format with
      | entities =>
        obtain ⟨o, k, b', ho, same, holds, all⟩ :=
          holdsRecords_of_mem linked nd ha wf hb (.inl hf)
        obtain ⟨e', rfl, rfl⟩ := all named
        rw [he] at ho
        cases ho
        obtain ⟨affix, hi⟩ := holds.info
        rw [same.info, hi]
        rfl
      | enumeration =>
        have rows := (wf b hb).rowCount_ne_zero named
        obtain ⟨e', b', he', same, holds⟩ := holdsRowNames_of_mem linked nd ha wf hb hf rows
        rw [he] at he'
        cases he'
        obtain ⟨affix, hi⟩ := holds.info
        rw [same.info, hi]
        rfl
      | _ => rw [hf] at hbe; cases hbe
    · rw [Store.namesOf, enumerations, he]
      exact listed
  have declared := (linked.owns_iff owner name).1 ⟨row, hx⟩
  cases declared with
  | @member _ _ members hp hm =>
    obtain ⟨nonneg, he'⟩ := linked.member _ hp
    rw [he] at he'
    cases he'
    rw [Predefined.enumeration, OrderedMap.get?_mapValues] at hrow
    obtain ⟨index, hi, rfl⟩ := Option.map_eq_some_iff.1 hrow
    have whole := nonneg (name, index) ((members.get?_eq_some_iff name index).1 hi)
    refine .member ((predefined.get?_eq_some_iff _ _).2 hp) ?_
    rw [Int.toNat_of_nonneg whole, hi]
  | @row b _ hb hbe hn => exact ofTable b hb hbe (List.ne_nil_of_mem hn) rfl
  | @modRow m _ _ hm ht hn =>
    obtain ⟨b, hb, hbe, named, hbn⟩ := linked.target m hm _ ht
    exact ofTable b hb hbe named hbn

include linked nd ha wf in
/-- A run that succeeds has a value for every cell. -/
theorem exists_value (hd : d ∈ tables) {type : FieldType} {unit : String} {raw : Raw}
    (cell : ResolvedCell tables d type unit raw) :
    ∃ v, Linking.cell ⟨units, options, n.entities⟩ d raw type unit = .ok v := by
  cases cell with
  | record hf hc hraw => exact values_of_records nd ha wf hd hf _ hc _ hraw
  | mod hb hf ht hc hraw given =>
    exact (values_of_mod linked nd ha wf hb hf hd ht _ hc _ hraw).resolve_left given
  | grid hg hrow hraw given =>
    exact (values_of_grid linked nd ha wf hd hg _ hrow _ hraw).resolve_left given

end Runs

section Denoting

variable {s : Store} {tables : List Draft} {predefined : Predefined} {d : Draft}

/-- Each element of a cell that is read denotes something. -/
theorem Store.Reads.denotes {type : FieldType} {raw : Raw} {v : Value}
    (h : s.Reads tables predefined d raw type v) : ∀ item ∈ raw.scalars type,
      ∃ t i, d.textOf? item = some t ∧ s.Denotes tables predefined t i := by
  intro item hm
  cases h with
  | scalar ht denotes =>
    have same : item = raw := List.mem_singleton.1 hm
    rw [same]
    exact ⟨_, _, ht, denotes⟩
  | array denote =>
    obtain ⟨i, -, t, ht, denotes⟩ := exists_of_forall₂ denote hm
    exact ⟨t, i, ht, denotes⟩

/-- A text that is neither blank nor an integer denotes an entity. -/
theorem Store.Denotes.owner {t : String} {i : Int} (h : s.Denotes tables predefined t i)
    (filled : t ≠ "") (noInteger : ∀ i, ¬ IntegerText t.toList i) :
    ∃ owner, s.entityOwners.get? t = some owner := by
  cases h with
  | blank => exact absurd rfl filled
  | literal literal => exact absurd literal (noInteger _)
  | entity _ _ _ owner => exact ⟨_, owner⟩

end Denoting

theorem ResolvedCell.fits {tables : List Draft} {d : Draft} (wf : d.WellFormed) {type : FieldType}
    {unit : String} {raw : Raw} (cell : ResolvedCell tables d type unit raw) :
    raw.Fits d.pool type := by
  cases cell with
  | record _ hc hraw | mod _ _ _ hc hraw => exact (wf.columns _ hc).cells_fit _ hraw
  | grid hg hrow hraw => exact (wf.grid _ hg).cells_fit _ hrow _ hraw

/-- **References.** When a run succeeds, every INT cell is resolved by its text, and so is every
element of an INT array: none is -1, that of an integer is the integer, and any other is a name of
the store and leads to the row of its entity, which is one of the rows of the table that owns it,
and listed there. If such a cell holds a text that nobody declares, the run fails. -/
theorem link_references {units : Units.Converter} {options : LinkOptions} {tables : List Draft}
    {predefined : Predefined} (parsed : ∀ d ∈ tables, d.Parsed) {d : Draft} (hd : d ∈ tables)
    {type : FieldType} {unit : String} {raw : Raw} (cell : ResolvedCell tables d type unit raw)
    (int : type.base = .int) :
    (∀ s, (link units options tables predefined).result = .ok s →
      ∃ v, Linking.cell ⟨units, options, s.entities⟩ d raw type unit = .ok v ∧
        s.Reads tables predefined d raw type v) ∧
    ∀ item ∈ raw.scalars type, ∀ t, d.textOf? item = some t → t ≠ "" →
      (∀ i, ¬ IntegerText t.toList i) → (∀ o, ¬ Declares predefined.toList tables o t) →
      ∃ e, (link units options tables predefined).result = .error e := by
  have wf : ∀ d ∈ tables, d.WellFormed := fun d hd => (parsed d hd).wellFormed
  have reads : ∀ s, (link units options tables predefined).result = .ok s →
      ∃ v, Linking.cell ⟨units, options, s.entities⟩ d raw type unit = .ok v ∧
        s.Reads tables predefined d raw type v := by
    intro s h
    obtain ⟨nd, n, a, hn, ha, rfl⟩ := link_eq_ok_iff.1 h
    have linked := linkNames_linked nd hn
    obtain ⟨v, hv⟩ := exists_value linked nd ha wf hd cell
    exact ⟨v, hv, cell_reads rfl (fun name owner row => linked.located nd ha wf rfl rfl) int
      (cell.fits (wf d hd)) hv⟩
  refine ⟨reads, fun item hm t ht filled noInteger undeclared => ?_⟩
  cases h : (link units options tables predefined).result with
  | error e => exact ⟨e, rfl⟩
  | ok s =>
    obtain ⟨v, -, read⟩ := reads s h
    obtain ⟨t', i, ht', denotes⟩ := read.denotes item hm
    rw [ht] at ht'
    cases ht'
    obtain ⟨owner, owned⟩ := denotes.owner filled noInteger
    obtain ⟨nd, n, a, hn, -, rfl⟩ := link_eq_ok_iff.1 h
    rw [Store.entityOwners, OrderedMap.get?_mapValues] at owned
    obtain ⟨x, hx, rfl⟩ := Option.map_eq_some_iff.1 owned
    exact absurd (((linkNames_linked nd hn).owns_iff x.owner t).1 ⟨x.row, hx⟩) (undeclared _)

/-- A cow with two calves, one of which only a mod adds, and an enumeration after it. -/
def Draft.herd : List Draft := readAll [
  ("Cow", ["@DB_ENTITIES", "cow\tbarn\tcalves", "Type\tINT\tARRAY[INT]", "bella\told\trosa,7"]),
  ("Barn", ["@ENUMERATION", "old"]),
  ("MoreCows", ["@DB_ENTITIES_MOD", "@MODIFIES=Cow", "cow\tbarn", "Type\tINT", "rosa\t"])]

/-- The calves: a name that a mod adds, and an integer. -/
theorem herd_references : ∃ (s : Store) (d : Draft) (c : Column) (raw : Raw) (v : Value),
    (link {} {} Draft.herd ∅).result = .ok s ∧
    s.entityRows.toList = [("bella", 0), ("old", 0), ("rosa", 1)] ∧ d ∈ Draft.herd ∧
    ResolvedCell Draft.herd d c.type c.unit raw ∧ c.type.base = .int ∧
    (raw.scalars c.type).map d.textOf? = [some "rosa", some "7"] ∧
    Linking.cell ⟨{}, {}, s.entities⟩ d raw c.type c.unit = .ok v ∧
    s.Reads Draft.herd ∅ d raw c.type v := by
  have first : Draft.herd.head?.map (fun d => (d.format, d.columns.getLast?.bind fun c =>
      c.cells.head?.map fun raw => (c.type.base, (raw.scalars c.type).map d.textOf?))) =
      some (.entities, some (.int, [some "rosa", some "7"])) := by
    decide +kernel
  have run : (link {} {} Draft.herd ∅).result.toOption.map (fun s => s.entityRows.toList) =
      some [("bella", 0), ("old", 0), ("rosa", 1)] := by
    decide +kernel
  obtain ⟨d, hd, hdf⟩ := Option.map_eq_some_iff.1 first
  obtain ⟨s, h, rows⟩ := toOption_map_eq_some.1 run
  simp only [Prod.mk.injEq, Option.bind_eq_some_iff, Option.map_eq_some_iff] at hdf
  obtain ⟨format, c, hc, raw, hraw, int, texts⟩ := hdf
  have mem : d ∈ Draft.herd := List.mem_of_mem_head? (by rw [hd]; rfl)
  have cell : ResolvedCell Draft.herd d c.type c.unit raw :=
    .record (.inl format) (List.mem_of_getLast? hc) (List.mem_of_mem_head? (by rw [hraw]; rfl))
  obtain ⟨v, hv, reads⟩ :=
    (link_references (fun d => Draft.parsed_of_mem_readAll) mem cell int).1 s h
  exact ⟨s, d, c, raw, v, h, rows, mem, cell, int, texts, hv, reads⟩

end TypedTables
