import Mathlib.Data.List.Nodup
import TypedTables.Dataset.Link
import TypedTables.Proofs.Outcome
import TypedTables.Proofs.Registration
import TypedTables.Proofs.SoundDraft
/-!
# Given cells

Several tables can give a cell for one place of a resolved table: the table itself, and every mod
that lists the entity of the row. `givenCells` lists them in order; the last that is not empty
decides, and without any the default of the table that declares the field first.

A sheet is built in steps: the columns of the table, the new columns of a mod, the new rows, then
the cells of the mod one by one. `SheetHolds` says which cells a sheet shows, and with how many
digits; every step adds to them what it writes.

Results:
* `sheet_holds`, `addFields_holds`, `growSheet_holds`, `writeCell_holds`: the steps.
* `modify_holds`: from them, a whole mod.
-/
namespace TypedTables

/-- A raw cell with the table and the column that it stands in. -/
structure Given where
  draft : Draft
  column : Column
  raw : Raw

namespace Draft

/-- The column of a field. -/
def column? (d : Draft) (field : String) : Option Column :=
  d.columns.find? fun c => c.name = field

/-- The cell of a field in a row of the source. -/
def cell? (d : Draft) (field : String) (i : Nat) : Option Given :=
  (d.column? field).bind fun c => c.cells[i]?.map fun raw => ⟨d, c, raw⟩

/-- The cell of a field in the row with a name. -/
def entityCell? (d : Draft) (field name : String) : Option Given :=
  (d.rowNames.idxOf? name).bind (d.cell? field)

/-- The default of a field, for tables that declare it. -/
def default? (d : Draft) (field : String) : Option Given :=
  (d.column? field).map fun c => ⟨d, c, c.default⟩

end Draft

/-- The cells that are given for a field in row `r`: the cell of the table itself, then those of
the mods for the entity in the row. -/
def givenCells (d : Draft) (mods : List Draft) (names : List String) (field : String) (r : Nat) :
    List Given :=
  (d.cell? field r).toList ++ mods.filterMap fun m => names[r]?.bind (m.entityCell? field)

/-- The last cell that is not empty. -/
def lastGiven (given : List Given) : Option Given :=
  (given.filter fun g => !g.raw.isEmpty).getLast?

/-- The default of the first table that declares a field. -/
def firstDefault (tables : List Draft) (field : String) : Option Given :=
  tables.findSome? fun d => d.default? field

/-- The cell that decides what stands in row `r` of a field. -/
def decidingCell (d : Draft) (mods : List Draft) (names : List String) (field : String) (r : Nat) :
    Option Given :=
  (lastGiven (givenCells d mods names field r)).or (firstDefault (d :: mods) field)

/-! ## Lists of given cells -/

theorem lastGiven_snoc (given : List Given) (g : Given) :
    lastGiven (given ++ [g]) = if g.raw.isEmpty then lastGiven given else some g := by
  unfold lastGiven
  cases h : g.raw.isEmpty <;> simp [List.filter_append, h]

namespace Draft

variable {d : Draft} {field : String}

theorem column?_eq_some (nd : (d.columns.map Column.name).Nodup) {c : Column} :
    d.column? field = some c ↔ c ∈ d.columns ∧ c.name = field := by
  unfold column?
  constructor
  · intro h
    exact ⟨List.mem_of_find?_eq_some h, by simpa using List.find?_some h⟩
  · rintro ⟨hc, rfl⟩
    cases h : d.columns.find? fun c' => c'.name = c.name with
    | none => simpa using List.find?_eq_none.1 h c hc
    | some c' =>
      have hn : c'.name = c.name := by simpa using List.find?_some h
      rw [List.inj_on_of_nodup_map nd (List.mem_of_find?_eq_some h) hc hn]

theorem column?_eq_none : d.column? field = none ↔ field ∉ d.columns.map Column.name := by
  unfold column?
  simp [List.find?_eq_none]

theorem default?_eq_none : d.default? field = none ↔ d.column? field = none := by
  simp [default?]

theorem cell?_of_undeclared (h : d.column? field = none) (i : Nat) : d.cell? field i = none := by
  rw [cell?, h]
  rfl

theorem entityCell?_of_undeclared (h : d.column? field = none) (name : String) :
    d.entityCell? field name = none := by
  unfold entityCell?
  cases d.rowNames.idxOf? name with
  | none => rfl
  | some i => exact cell?_of_undeclared h i

end Draft

/-- A table has no cells below its rows. -/
theorem Draft.Sound.cell?_eq_none {d : Draft} (hd : d.Sound) {r : Nat} (hr : d.rowCount ≤ r)
    (field : String) : d.cell? field r = none := by
  unfold Draft.cell?
  cases hc : d.column? field with
  | none => rfl
  | some c =>
    have hm := ((Draft.column?_eq_some hd.fields_nodup).1 hc).1
    rw [Option.bind_some, List.getElem?_eq_none (by rw [(hd.filled c hm).length_cells]; exact hr)]
    rfl

theorem givenCells_of_undeclared {d : Draft} {mods : List Draft} {field : String}
    (h : firstDefault (d :: mods) field = none) (names : List String) (r : Nat) :
    givenCells d mods names field r = [] := by
  rw [firstDefault, List.findSome?_eq_none_iff] at h
  have un : ∀ m ∈ d :: mods, m.column? field = none := fun m hm =>
    Draft.default?_eq_none.1 (h m hm)
  have none : ∀ m ∈ mods, names[r]?.bind (m.entityCell? field) = none := by
    intro m hm
    cases names[r]? with
    | none => rfl
    | some name => exact Draft.entityCell?_of_undeclared (un m (List.mem_cons_of_mem _ hm)) name
  rw [givenCells, Draft.cell?_of_undeclared (un d List.mem_cons_self),
    List.filterMap_eq_nil_iff.2 none]
  rfl

theorem givenCells_snoc (d : Draft) (mods : List Draft) (m : Draft) (names : List String)
    (field : String) (r : Nat) : givenCells d (mods ++ [m]) names field r =
      givenCells d mods names field r ++ (names[r]?.bind (m.entityCell? field)).toList := by
  rw [givenCells, givenCells, List.filterMap_append, List.append_assoc]
  cases h : names[r]?.bind (m.entityCell? field) <;> simp [h]

/-! ## What a sheet shows -/

/-- The value of a given cell. -/
def Linking.value (l : Linking) (g : Given) : Except LinkError Value :=
  l.cell g.draft g.raw g.column.type g.column.unit

/-- The significant digits of the last cell that is given; none are known of a default that is
filled in. -/
def recordedDigits (given : List Given) : Except LinkError Int :=
  match lastGiven given with
  | some g => Linking.digits g.raw
  | none => .ok Decimal.unknownPrecision

/-- Where digits are tracked, the field has those of what stands in each of `n` rows. -/
def Field.HoldsDigits (l : Linking) (given : Nat → List Given) (n : Nat) (f : Field) : Prop :=
  if l.tracks f.type then ∃ ds, f.precisions = some ds ∧ ds.length = n ∧
    ∀ r < n, ∃ k, ds[r]? = some k ∧ recordedDigits (given r) = .ok k
  else f.precisions = none

/-- In each of `n` rows the field holds the value of the last cell that is given for it, and new
rows get the value of `first`. -/
structure Field.Holds (l : Linking) (first : Given) (given : Nat → List Given) (n : Nat)
    (f : Field) : Prop where
  type : f.type = first.column.type
  digits : f.HoldsDigits l given n
  default : l.value first = .ok f.default
  length : f.values.length = n
  value : ∀ r < n, ∃ v, f.values[r]? = some v ∧
    l.value ((lastGiven (given r)).getD first) = .ok v

/-- The fields of a sheet are those that the tables declare, and hold what is given. -/
structure SheetHolds (l : Linking) (tables : List Draft) (given : String → Nat → List Given)
    (n : Nat) (s : Sheet) : Prop where
  absent : ∀ field, field ≠ nameField → firstDefault tables field = none → s.get? field = none
  holds : ∀ field first, field ≠ nameField → firstDefault tables field = some first →
    ∃ f, s.get? field = some f ∧ f.Holds l first (given field) n

section Steps

variable {l : Linking} {tables : List Draft} {given given' : String → Nat → List Given} {n : Nat}
  {s s' : Sheet}

theorem Field.HoldsDigits.congr {given given' : Nat → List Given} {f : Field}
    (h : f.HoldsDigits l given n) (hg : ∀ r, lastGiven (given r) = lastGiven (given' r)) :
    f.HoldsDigits l given' n := by
  have same : ∀ r, recordedDigits (given r) = recordedDigits (given' r) := fun r => by
    rw [recordedDigits, recordedDigits, hg]
  simpa only [HoldsDigits, same] using h

theorem SheetHolds.congr (h : SheetHolds l tables given n s)
    (hg : ∀ field r, lastGiven (given field r) = lastGiven (given' field r)) :
    SheetHolds l tables given' n s where
  absent := h.absent
  holds field first hf hd := by
    obtain ⟨f, hs, hold⟩ := h.holds field first hf hd
    exact ⟨f, hs, { hold with
      digits := hold.digits.congr (hg field)
      value := fun r hr => hg field r ▸ hold.value r hr }⟩

/-- What a column is resolved to. -/
theorem field_eq_ok {d : Draft} {c : Column} {f : Field} (h : l.field d c = .ok f) :
    l.checkUnit d c.unit c.name = .ok () ∧ f.type = c.type ∧
      l.value ⟨d, c, c.default⟩ = .ok f.default ∧
      List.Forall₂ (fun raw v => l.value ⟨d, c, raw⟩ = .ok v) c.cells f.values ∧
      if l.tracks c.type then ∃ digits, f.precisions = some digits ∧
        List.Forall₂ (fun raw k => Linking.digits raw = .ok k) c.cells digits
      else f.precisions = none := by
  unfold Linking.field at h
  obtain ⟨_, hu, h⟩ := bind_eq_ok.1 h
  obtain ⟨values, hv, h⟩ := bind_eq_ok.1 h
  obtain ⟨default, hd, h⟩ := bind_eq_ok.1 h
  dsimp only at h
  split at h
  · next tracked =>
    obtain ⟨precisions, hp, h⟩ := bind_eq_ok.1 h
    obtain ⟨digits, hk, rfl⟩ := map_eq_ok.1 hp
    cases h
    refine ⟨hu, rfl, hd, mapM_eq_ok.1 hv, ?_⟩
    rw [if_pos tracked]
    exact ⟨digits, rfl, mapM_eq_ok.1 hk⟩
  · next untracked =>
    cases h
    refine ⟨hu, rfl, hd, mapM_eq_ok.1 hv, ?_⟩
    rw [if_neg untracked]

/-- The columns of a table. -/
theorem field_holds {d : Draft} {c : Column} {f : Field} (hc : c.Filled n)
    (h : l.field d c = .ok f) :
    f.Holds l ⟨d, c, c.default⟩ (fun r => (c.cells[r]?.map fun raw => ⟨d, c, raw⟩).toList) n := by
  obtain ⟨-, type, hd, hv, hk⟩ := field_eq_ok h
  -- an empty cell means that the default is empty too
  have empty : ∀ r (hr : r < c.cells.length), c.cells[r].isEmpty →
      c.cells[r] = .empty ∧ c.default = .empty := by
    intro r hr he
    have empty : c.cells[r] = .empty := by
      cases hraw : c.cells[r] <;> simp_all [Raw.isEmpty]
    exact ⟨empty, hc.default_of_empty (empty ▸ List.getElem_mem hr)⟩
  have last : ∀ r (hr : r < c.cells.length),
      lastGiven (c.cells[r]?.map fun raw => (⟨d, c, raw⟩ : Given)).toList =
        if c.cells[r].isEmpty then none else some ⟨d, c, c.cells[r]⟩ := by
    intro r hr
    rw [List.getElem?_eq_getElem hr]
    exact lastGiven_snoc [] ⟨d, c, c.cells[r]⟩
  refine ⟨type, ?_, hd, by rw [← hc.length_cells, hv.length_eq], fun r hr => ?_⟩
  · unfold Field.HoldsDigits
    rw [type]
    split at hk
    · next tracked =>
      rw [if_pos tracked]
      obtain ⟨ds, hds, hk⟩ := hk
      have length := hk.length_eq
      rw [hc.length_cells] at length
      refine ⟨ds, hds, length.symm, fun r hr => ?_⟩
      have hr₁ : r < c.cells.length := by rw [hc.length_cells]; exact hr
      have hr₂ : r < ds.length := by rw [← length]; exact hr
      have digits : Linking.digits c.cells[r] = .ok ds[r] := hk.get hr₁ hr₂
      refine ⟨ds[r], List.getElem?_eq_getElem hr₂, ?_⟩
      rw [recordedDigits, last r hr₁]
      by_cases he : c.cells[r].isEmpty
      · rw [(empty r hr₁ he).1] at digits
        rw [if_pos he]
        exact digits
      · rw [if_neg he]
        exact digits
    · next untracked =>
      rw [if_neg untracked]
      exact hk
  · have hr₁ : r < c.cells.length := by rw [hc.length_cells]; exact hr
    have hr₂ : r < f.values.length := by rw [← hv.length_eq]; exact hr₁
    have hval : l.value ⟨d, c, c.cells[r]⟩ = .ok f.values[r] := hv.get hr₁ hr₂
    refine ⟨f.values[r], List.getElem?_eq_getElem hr₂, ?_⟩
    rw [last r hr₁]
    split
    · next he =>
      obtain ⟨hraw, hdef⟩ := empty r hr₁ he
      rw [hraw] at hval
      rw [show (none : Option Given).getD ⟨d, c, c.default⟩ = ⟨d, c, .empty⟩ by rw [hdef]; rfl]
      exact hval
    · exact hval

/-- The fields of a sheet are those of the columns, and that of the row names. -/
theorem sheet_eq_ok {d : Draft} (nd : (d.columns.map Column.name).Nodup) (h : l.sheet d = .ok s) :
    (∀ c ∈ d.columns, ∃ f, l.field d c = .ok f ∧ s.get? c.name = some f) ∧
      ∀ field, field ∉ d.columns.map Column.name → s.get? field =
        if nameField = field ∧ d.rowNames ≠ [] then some (rowNameField d.rowNames) else none := by
  unfold Linking.sheet at h
  obtain ⟨fields, hf, h⟩ := bind_eq_ok.1 h
  cases h
  rw [mapM_eq_ok] at hf
  have keys : fields.map Prod.fst = d.columns.map Column.name :=
    map_eq_of_forall₂ hf fun c p hp => by
      obtain ⟨f, -, rfl⟩ := map_eq_ok.1 hp
      rfl
  refine ⟨fun c hc => ?_, fun field hn => ?_⟩
  · obtain ⟨p, hp, hcp⟩ := exists_of_forall₂ hf hc
    obtain ⟨f, hfield, rfl⟩ := map_eq_ok.1 hcp
    exact ⟨f, hfield, OrderedMap.get?_insertAll_of_mem _ (keys ▸ nd) hp⟩
  · rw [OrderedMap.get?_insertAll_of_not_mem _ (keys ▸ hn)]
    simp only [Draft.isNamed_iff]
    split
    · next named =>
      rw [OrderedMap.get?_insert]
      simp [named]
    · next unnamed =>
      rw [if_neg fun e => unnamed e.2]
      rfl

theorem sheet_holds {d : Draft} (hd : d.Sound) (h : l.sheet d = .ok s) :
    SheetHolds l [d] (fun field r => (d.cell? field r).toList) d.rowCount s := by
  obtain ⟨declared, others⟩ := sheet_eq_ok hd.fields_nodup h
  have first : firstDefault [d] = d.default? := by
    funext field
    simp [firstDefault]
  constructor
  · intro field hn hfirst
    rw [first, Draft.default?_eq_none, Draft.column?_eq_none] at hfirst
    rw [others field hfirst, if_neg fun e => hn e.1.symm]
  · intro field g hn hfirst
    rw [first] at hfirst
    obtain ⟨c, hc, rfl⟩ := Option.map_eq_some_iff.1 hfirst
    obtain ⟨hm, rfl⟩ := (Draft.column?_eq_some hd.fields_nodup).1 hc
    obtain ⟨f, hfield, hget⟩ := declared c hm
    refine ⟨f, hget, ?_⟩
    have hold := field_holds (hd.filled c hm) hfield
    simpa only [Draft.cell?, hc, Option.bind_some] using hold

/-! ## New columns of a mod -/

/-- A new field: its default in each of `n` rows, with no digits known. -/
def Linking.imputed (l : Linking) (c : Column) (default : Value) (n : Nat) : Field where
  type := c.type
  default := default
  values := List.replicate n default
  precisions :=
    if l.tracks c.type then some (List.replicate n Decimal.unknownPrecision) else none

theorem imputed_holds {d : Draft} {c : Column} {default : Value} {given : Nat → List Given}
    (hd : l.value ⟨d, c, c.default⟩ = .ok default) (un : ∀ r, given r = []) :
    (l.imputed c default n).Holds l ⟨d, c, c.default⟩ given n where
  type := rfl
  digits := by
    unfold Field.HoldsDigits Linking.imputed
    dsimp only
    split
    · refine ⟨_, rfl, List.length_replicate, fun r hr => ⟨Decimal.unknownPrecision, ?_, ?_⟩⟩
      · rw [List.getElem?_replicate, if_pos hr]
      · rw [un]
        rfl
    · rfl
  default := hd
  length := List.length_replicate
  value r hr := by
    refine ⟨default, ?_, ?_⟩
    · rw [Linking.imputed, List.getElem?_replicate, if_pos hr]
    · rw [un]
      exact hd

/-- A column of a mod finds a field of its type, or makes one. -/
theorem addField_eq_ok {d : Draft} {t : Target} {c : Column} (h : l.addField d t s c = .ok s') :
    l.checkUnit d c.unit c.name = .ok () ∧
      ((∃ f, s.get? c.name = some f ∧ f.type = c.type ∧ s' = s) ∨
        s.get? c.name = none ∧ ∃ default, l.value ⟨d, c, c.default⟩ = .ok default ∧
          s' = s.insert c.name (l.imputed c default t.rowCount)) := by
  unfold Linking.addField at h
  obtain ⟨_, hu, h⟩ := bind_eq_ok.1 h
  refine ⟨hu, ?_⟩
  cases hs : s.get? c.name with
  | some f =>
    rw [hs] at h
    dsimp only at h
    split at h
    · cases h
    · next same =>
      cases h
      exact .inl ⟨f, rfl, by simpa using same, rfl⟩
  | none =>
    rw [hs] at h
    obtain ⟨default, hd, h⟩ := bind_eq_ok.1 h
    cases h
    exact .inr ⟨rfl, default, hd, rfl⟩

/-- A column fills its field unless the field is there. -/
theorem addFields_get? {d : Draft} {t : Target} {columns : List Column}
    (nd : (columns.map Column.name).Nodup) (h : columns.foldlM (l.addField d t) s = .ok s') :
    (∀ field f, s.get? field = some f → s'.get? field = some f) ∧
    (∀ field, s.get? field = none → field ∉ columns.map Column.name → s'.get? field = none) ∧
    ∀ c ∈ columns, s.get? c.name = none → ∃ default, l.value ⟨d, c, c.default⟩ = .ok default ∧
      s'.get? c.name = some (l.imputed c default t.rowCount) := by
  induction columns generalizing s with
  | nil =>
    cases h
    exact ⟨fun _ _ => id, fun _ hs _ => hs, fun c hc => by cases hc⟩
  | cons c columns ih =>
    rw [List.foldlM_cons] at h
    obtain ⟨s₁, h₁, h⟩ := bind_eq_ok.1 h
    simp only [List.map_cons, List.nodup_cons] at nd
    obtain ⟨kept, absent, new⟩ := ih nd.2 h
    obtain ⟨-, ⟨f, hf, -, rfl⟩ | ⟨none, default, hd, rfl⟩⟩ := addField_eq_ok h₁
    · refine ⟨kept, fun field hs hn => absent field hs fun hm => hn (by simp [hm]), ?_⟩
      intro c' hc' hs
      rcases List.mem_cons.1 hc' with rfl | hc'
      · rw [hf] at hs
        cases hs
      · exact new c' hc' hs
    · simp only [OrderedMap.get?_insert] at kept absent new
      refine ⟨fun field f' hs => kept field f' ?_, fun field hs hn => absent field ?_ ?_, ?_⟩
      · have : c.name ≠ field := fun e => by rw [← e, none] at hs; cases hs
        rw [if_neg this, hs]
      · have : c.name ≠ field := fun e => hn (by simp [e])
        rw [if_neg this, hs]
      · exact fun hm => hn (by simp [hm])
      · intro c' hc' hs
        rcases List.mem_cons.1 hc' with rfl | hc'
        · exact ⟨default, hd, kept _ _ (if_pos rfl)⟩
        · have : c.name ≠ c'.name := fun e => nd.1 (e ▸ List.mem_map_of_mem hc')
          exact new c' hc' (by rw [if_neg this, hs])

theorem addFields_holds {d : Draft} {t : Target} (nd : (d.columns.map Column.name).Nodup)
    (h : SheetHolds l tables given t.rowCount s)
    (un : ∀ field r, firstDefault tables field = none → given field r = [])
    (ha : d.columns.foldlM (l.addField d t) s = .ok s') :
    SheetHolds l (tables ++ [d]) given t.rowCount s' := by
  obtain ⟨kept, absent, new⟩ := addFields_get? nd ha
  have first : ∀ field, firstDefault (tables ++ [d]) field =
      (firstDefault tables field).or (d.default? field) := by
    intro field
    simp [firstDefault, List.findSome?_append]
  constructor
  · intro field hn hfirst
    rw [first, Option.or_eq_none_iff, Draft.default?_eq_none, Draft.column?_eq_none] at hfirst
    exact absent field (h.absent field hn hfirst.1) hfirst.2
  · intro field g hn hfirst
    rw [first] at hfirst
    cases hold : firstDefault tables field with
    | some g' =>
      rw [hold] at hfirst
      cases hfirst
      obtain ⟨f, hf, holds⟩ := h.holds field g hn hold
      exact ⟨f, kept field f hf, holds⟩
    | none =>
      rw [hold, Option.none_or] at hfirst
      obtain ⟨c, hc, rfl⟩ := Option.map_eq_some_iff.1 hfirst
      obtain ⟨hm, rfl⟩ := (Draft.column?_eq_some nd).1 hc
      obtain ⟨default, hd, hf⟩ := new c hm (h.absent c.name hn hold)
      refine ⟨_, hf, imputed_holds hd fun r => un c.name r hold⟩

/-! ## New rows -/

theorem Field.HoldsDigits.grow {given : Nat → List Given} {f : Field} {k : Nat}
    (h : f.HoldsDigits l given n) (new : ∀ r, n ≤ r → given r = []) :
    (f.grow k).HoldsDigits l given (n + k) := by
  unfold Field.HoldsDigits Field.grow at *
  dsimp only
  split
  · next tracked =>
    rw [if_pos tracked] at h
    obtain ⟨ds, hds, length, digits⟩ := h
    rw [hds]
    refine ⟨_, rfl, by simp [length], fun r hr => ?_⟩
    by_cases hn : r < n
    · obtain ⟨k, hk, recorded⟩ := digits r hn
      exact ⟨k, by rw [List.getElem?_append_left (by rw [length]; exact hn), hk], recorded⟩
    · refine ⟨Decimal.unknownPrecision, ?_, ?_⟩
      · rw [List.getElem?_append_right (by rw [length]; omega), List.getElem?_replicate, length,
          if_pos (by omega)]
      · rw [new r (by omega)]
        rfl
  · next untracked =>
    rw [if_neg untracked] at h
    rw [h]
    rfl

theorem Field.Holds.grow {first : Given} {given : Nat → List Given} {f : Field} {k : Nat}
    (h : f.Holds l first given n) (new : ∀ r, n ≤ r → given r = []) :
    (f.grow k).Holds l first given (n + k) := by
  refine ⟨h.type, h.digits.grow new, h.default, by simp [Field.grow, h.length], fun r hr => ?_⟩
  unfold Field.grow
  by_cases hn : r < n
  · obtain ⟨v, hv, hval⟩ := h.value r hn
    refine ⟨v, ?_, hval⟩
    rw [List.getElem?_append_left (by rw [h.length]; exact hn), hv]
  · refine ⟨f.default, ?_, ?_⟩
    · rw [List.getElem?_append_right (by rw [h.length]; omega), List.getElem?_replicate, h.length,
        if_pos (by omega)]
    · rw [new r (by omega)]
      exact h.default

theorem growSheet_holds {t : Target} (h : SheetHolds l tables given t.rowCount s)
    (le : t.rowCount ≤ t.enumeration.names.length)
    (new : ∀ field r, t.rowCount ≠ t.enumeration.names.length → t.rowCount ≤ r →
      given field r = []) :
    SheetHolds l tables given t.enumeration.names.length (growSheet t s) := by
  unfold growSheet
  dsimp only
  split
  · next he =>
    have : t.enumeration.names.length = t.rowCount := by omega
    rwa [this]
  · next hne =>
    have total : t.rowCount + (t.enumeration.names.length - t.rowCount) =
        t.enumeration.names.length := by omega
    constructor
    · intro field hn hfirst
      rw [OrderedMap.get?_mapValues, h.absent field hn hfirst]
      rfl
    · intro field first hn hfirst
      obtain ⟨f, hf, holds⟩ := h.holds field first hn hfirst
      refine ⟨f.grow (t.enumeration.names.length - t.rowCount), ?_, ?_⟩
      · rw [OrderedMap.get?_mapValues, hf, Option.map_some, if_neg hn]
      · have grown := holds.grow (k := t.enumeration.names.length - t.rowCount) fun r hr =>
          new field r (by omega) hr
        rwa [total] at grown

/-! ## Cells of a mod -/

theorem orBroken_eq_ok {α : Type} {o : Option α} {a : α} : orBroken o = .ok a ↔ o = some a := by
  cases o <;> simp [orBroken]

/-- The field with a value, and its digits where they are tracked, in a row. -/
def Field.written (f : Field) (row : Nat) (v : Value) (digits : Int) : Field :=
  { f with values := f.values.set row v, precisions := f.precisions.map (·.set row digits) }

theorem write_eq_ok {f f' : Field} {row : Nat} {v : Value} {digits : Int}
    (h : f.write row v digits = .ok f') : row < f.values.length ∧ f' = f.written row v digits := by
  unfold Field.write at h
  split at h
  · next hr =>
    cases h
    exact ⟨hr.1, rfl⟩
  · cases h

/-- A cell that is not empty is written with its digits, if they are tracked. -/
theorem writeCell_eq_ok {d : Draft} {row : Nat} {c : Column} {raw : Raw}
    (h : l.writeCell d row s c raw = .ok s') :
    (raw.isEmpty ∧ s' = s) ∨ (¬ raw.isEmpty ∧ ∃ f v digits, s.get? c.name = some f ∧
      l.value ⟨d, c, raw⟩ = .ok v ∧
      (if f.precisions.isSome then Linking.digits raw = .ok digits
        else digits = Decimal.unknownPrecision) ∧
      row < f.values.length ∧ s' = s.insert c.name (f.written row v digits)) := by
  unfold Linking.writeCell at h
  split at h
  · next he =>
    cases h
    exact .inl ⟨he, rfl⟩
  · next he =>
    obtain ⟨v, hv, h⟩ := bind_eq_ok.1 h
    obtain ⟨f, hf, h⟩ := bind_eq_ok.1 h
    rw [orBroken_eq_ok] at hf
    obtain ⟨digits, hk, h⟩ : ∃ digits : Int,
        (if f.precisions.isSome then Linking.digits raw = .ok digits
          else digits = Decimal.unknownPrecision) ∧
          (do let f ← f.write row v digits; pure (s.insert c.name f)) = Except.ok s' := by
      dsimp only at h
      split at h
      · next tracked =>
        obtain ⟨digits, hk, h⟩ := bind_eq_ok.1 h
        exact ⟨digits, by rw [if_pos tracked]; exact hk, h⟩
      · next untracked => exact ⟨_, by rw [if_neg untracked], h⟩
    obtain ⟨f', hw, h⟩ := bind_eq_ok.1 h
    obtain ⟨hr, rfl⟩ := write_eq_ok hw
    cases h
    exact .inr ⟨he, f, v, digits, hf, hv, hk, hr, rfl⟩

theorem Field.HoldsDigits.written {given : Nat → List Given} {f : Field} {g : Given} {row : Nat}
    {v : Value} {digits : Int} (h : f.HoldsDigits l given n) (he : ¬ g.raw.isEmpty)
    (hk : if f.precisions.isSome then Linking.digits g.raw = .ok digits
      else digits = Decimal.unknownPrecision) :
    (f.written row v digits).HoldsDigits l
      (fun r => if r = row then given r ++ [g] else given r) n := by
  unfold Field.HoldsDigits Field.written at *
  dsimp only
  split
  · next tracked =>
    rw [if_pos tracked] at h
    obtain ⟨ds, hds, length, recorded⟩ := h
    have hk : Linking.digits g.raw = .ok digits := by simpa [hds] using hk
    rw [hds]
    refine ⟨_, rfl, by rw [List.length_set, length], fun r hr => ?_⟩
    by_cases hrow : r = row
    · subst hrow
      refine ⟨digits, List.getElem?_set_self (by rw [length]; exact hr), ?_⟩
      rw [if_pos rfl, recordedDigits, lastGiven_snoc, if_neg he]
      exact hk
    · obtain ⟨k, hk', hrec⟩ := recorded r hr
      exact ⟨k, by rw [List.getElem?_set_ne (Ne.symm hrow), hk'], by rwa [if_neg hrow]⟩
  · next untracked =>
    rw [if_neg untracked] at h
    rw [h]
    rfl

/-- A cell that is written into a field is given last, in its row and in no other. -/
theorem Field.Holds.written {first : Given} {given : Nat → List Given} {f : Field} {g : Given}
    {row : Nat} {v : Value} {digits : Int} (h : f.Holds l first given n) (he : ¬ g.raw.isEmpty)
    (hv : l.value g = .ok v)
    (hk : if f.precisions.isSome then Linking.digits g.raw = .ok digits
      else digits = Decimal.unknownPrecision) :
    (f.written row v digits).Holds l first
      (fun r => if r = row then given r ++ [g] else given r) n := by
  refine ⟨h.type, h.digits.written he hk, h.default, ?_, fun r hr => ?_⟩
  · rw [Field.written, List.length_set, h.length]
  · by_cases hrow : r = row
    · subst hrow
      refine ⟨v, List.getElem?_set_self (by rw [h.length]; exact hr), ?_⟩
      rw [if_pos rfl, lastGiven_snoc, if_neg he]
      exact hv
    · obtain ⟨w, hw, hval⟩ := h.value r hr
      exact ⟨w, by rw [Field.written, List.getElem?_set_ne (Ne.symm hrow), hw],
        by rwa [if_neg hrow]⟩

/-- A cell that is written is given last, at its place and nowhere else. -/
theorem writeCell_holds {d : Draft} {row : Nat} {c : Column} {raw : Raw}
    (h : SheetHolds l tables given n s) (hw : l.writeCell d row s c raw = .ok s') :
    SheetHolds l tables (fun field r => if c.name = field ∧ r = row
      then given field r ++ [⟨d, c, raw⟩] else given field r) n s' := by
  rcases writeCell_eq_ok hw with ⟨he, rfl⟩ | ⟨he, f, v, digits, hf, hv, hk, hr, rfl⟩
  · refine h.congr fun field r => ?_
    split
    · rw [lastGiven_snoc, if_pos he]
    · rfl
  · constructor
    · intro field hn hfirst
      have absent := h.absent field hn hfirst
      have : c.name ≠ field := fun e => by rw [← e, hf] at absent; cases absent
      rw [OrderedMap.get?_insert, if_neg this, absent]
    · intro field first hn hfirst
      obtain ⟨g, hg, holds⟩ := h.holds field first hn hfirst
      by_cases hc : c.name = field
      · subst hc
        rw [hf] at hg
        cases hg
        refine ⟨_, by rw [OrderedMap.get?_insert, if_pos rfl], ?_⟩
        simpa only [true_and] using holds.written he hv hk
      · refine ⟨g, by rw [OrderedMap.get?_insert, if_neg hc, hg], ?_⟩
        simpa only [hc, false_and, if_false] using holds

/-- The cells of a field among those of a row. -/
def cellsOf (d : Draft) (field : String) (cells : List (Column × Raw)) : List Given :=
  cells.filterMap fun p => if p.1.name = field then some ⟨d, p.1, p.2⟩ else none

theorem writeRow_holds {d : Draft} {title : Option Column} {name : String} {row : Nat}
    {cells : List (Column × Raw)} {wiki wiki' : OrderedMap String String}
    (h : SheetHolds l tables given n s)
    (hw : l.writeRow d title name row (s, wiki) cells = .ok (s', wiki')) :
    SheetHolds l tables (fun field r => if r = row
      then given field r ++ cellsOf d field cells else given field r) n s' := by
  induction cells generalizing s wiki given with
  | nil =>
    cases hw
    refine h.congr fun field r => ?_
    simp [cellsOf]
  | cons p cells ih =>
    obtain ⟨c, raw⟩ := p
    unfold Linking.writeRow at hw
    obtain ⟨s₁, h₁, hw⟩ := bind_eq_ok.1 hw
    have h₁ := writeCell_holds h h₁
    have rest : ∃ wiki₁, l.writeRow d title name row (s₁, wiki₁) cells = .ok (s', wiki') := by
      dsimp only at hw
      split at hw
      · obtain ⟨wiki₁, -, hw⟩ := bind_eq_ok.1 hw
        exact ⟨wiki₁, hw⟩
      · exact ⟨_, hw⟩
    obtain ⟨wiki₁, hw⟩ := rest
    refine (ih h₁ hw).congr fun field r => ?_
    by_cases hr : r = row
    · by_cases hc : c.name = field
      · simp [hr, hc, cellsOf]
      · simp [hr, hc, cellsOf]
    · simp [hr]

theorem cellsOf_cellsAt {d : Draft} (nd : (d.columns.map Column.name).Nodup) {i : Nat}
    {cells : List (Column × Raw)} (h : cellsAt d.columns i = .ok cells) (field : String) :
    cellsOf d field cells = (d.cell? field i).toList := by
  unfold cellsAt at h
  unfold Draft.cell? Draft.column?
  rw [mapM_eq_ok] at h
  generalize d.columns = columns at h nd
  induction h with
  | nil => rfl
  | @cons c p columns cells hp hrest ih =>
    simp only [List.map_cons, List.nodup_cons] at nd
    obtain ⟨raw, hraw, rfl⟩ := map_eq_ok.1 hp
    rw [orBroken_eq_ok] at hraw
    by_cases hc : c.name = field
    · -- the other columns have other names
      have none : cellsOf d field cells = [] := by
        rw [ih nd.2, List.find?_eq_none.2]
        · rfl
        · intro c' hc' hn
          exact nd.1 (List.mem_map.2 ⟨c', hc', by rw [hc]; simpa using hn⟩)
      rw [List.find?_cons_of_pos (by simpa using hc), Option.bind_some, hraw]
      simpa [cellsOf, hc] using none
    · rw [List.find?_cons_of_neg (by simpa using hc), ← ih nd.2]
      simp [cellsOf, hc]

theorem writeRows_holds {d : Draft} {t : Target} {title : Option Column}
    {rows : List (String × Nat)} {wiki wiki' : OrderedMap String String}
    (nd : (d.columns.map Column.name).Nodup) (h : SheetHolds l tables given n s)
    (hw : l.writeRows d t title (s, wiki) rows = .ok (s', wiki')) :
    SheetHolds l tables (fun field r => given field r ++ rows.flatMap fun p =>
      if t.enumeration.rows.get? p.1 = some r then (d.cell? field p.2).toList else []) n s' := by
  induction rows generalizing s wiki given with
  | nil =>
    cases hw
    exact h.congr fun field r => by simp
  | cons p rows ih =>
    obtain ⟨name, i⟩ := p
    unfold Linking.writeRows at hw
    obtain ⟨row, hrow, hw⟩ := bind_eq_ok.1 hw
    obtain ⟨cells, hcells, hw⟩ := bind_eq_ok.1 hw
    obtain ⟨⟨s₁, wiki₁⟩, h₁, hw⟩ := bind_eq_ok.1 hw
    rw [orBroken_eq_ok] at hrow
    refine (ih (writeRow_holds h h₁) hw).congr fun field r => ?_
    rw [cellsOf_cellsAt nd hcells, List.flatMap_cons, hrow]
    by_cases hr : r = row
    · rw [if_pos hr, if_pos (congrArg some hr.symm), List.append_assoc]
    · rw [if_neg hr, if_neg fun e => hr (Option.some.inj e).symm, List.nil_append]

/-- A name that is listed once is found at its place. -/
theorem flatMap_zipIdx_eq {names : List String} (nd : names.Nodup) (name : String) (k : Nat)
    (f : Nat → List Given) :
    (names.zipIdx k).flatMap (fun p => if p.1 = name then f p.2 else []) =
      ((names.idxOf? name).map fun i => f (k + i)).getD [] := by
  induction names generalizing k with
  | nil => rfl
  | cons x names ih =>
    rw [List.nodup_cons] at nd
    rw [List.zipIdx_cons, List.flatMap_cons, ih nd.2, List.idxOf?_cons]
    by_cases hx : x = name
    · have none : names.idxOf? name = none := List.idxOf?_eq_none_iff.2 (hx ▸ nd.1)
      simp [hx, none]
    · have comm : ∀ i, k + 1 + i = k + (i + 1) := fun i => by omega
      cases h : names.idxOf? name <;> simp [hx, comm]

theorem flatMap_rows_eq {d : Draft} {e : Enumeration} (he : e.Inverse) (nd : d.rowNames.Nodup)
    (field : String) (r : Nat) :
    (d.rowNames.zipIdx.flatMap fun p =>
        if e.rows.get? p.1 = some r then (d.cell? field p.2).toList else []) =
      (e.names[r]?.bind (d.entityCell? field)).toList := by
  simp only [he.row_iff]
  cases hr : e.names[r]? with
  | none => simp
  | some name =>
    have comm : ∀ x : String, some name = some x ↔ x = name := fun x => by simp [eq_comm]
    simp only [comm, Option.bind_some]
    rw [flatMap_zipIdx_eq nd name 0 fun i => (d.cell? field i).toList]
    unfold Draft.entityCell?
    cases d.rowNames.idxOf? name <;> simp

/-- **A mod.** After a mod its cells are given last, each for the row of its entity, and all rows
of the enumeration are there. -/
theorem modify_holds {d : Draft} {t : Target} {wiki wiki' : OrderedMap String String}
    (hd : d.Sound) (he : t.enumeration.Inverse)
    (h : SheetHolds l tables given t.rowCount s)
    (un : ∀ field r, firstDefault tables field = none → given field r = [])
    (le : t.rowCount ≤ t.enumeration.names.length)
    (new : ∀ field r, t.rowCount ≠ t.enumeration.names.length → t.rowCount ≤ r →
      given field r = [])
    (hm : l.modify d t s wiki = .ok (s', wiki')) :
    SheetHolds l (tables ++ [d]) (fun field r => given field r ++
      (t.enumeration.names[r]?.bind (d.entityCell? field)).toList)
      t.enumeration.names.length s' := by
  unfold Linking.modify at hm
  obtain ⟨s₁, h₁, hm⟩ := bind_eq_ok.1 hm
  obtain ⟨title, -, hm⟩ := bind_eq_ok.1 hm
  have added := addFields_holds hd.fields_nodup h un h₁
  have grown := growSheet_holds added le new
  refine (writeRows_holds hd.fields_nodup grown hm).congr fun field r => ?_
  rw [flatMap_rows_eq he hd.rows_nodup]

end Steps

end TypedTables
