import TypedTables.Proofs.AcceptedUnits
import TypedTables.Proofs.GivenCells
import TypedTables.Proofs.ParsedDraft
/-!
# The shape of a sheet

All fields of a sheet have one value a row, of the type of the field, and significant digits for
each of them where they are tracked. A mod adds fields and rows at different moments, and every
step keeps the shape for the number of rows that there are then.

Results:
* `sheet_shaped`: the fields of a table.
* `addField_shaped`, `growSheet_shaped`, `writeCell_shaped`: the steps of a mod.
* `modify_shaped`: from them, a whole mod.
-/
namespace TypedTables

/-- The field has `n` values of its type, and digits for all of them if they are tracked. -/
structure Field.Shaped (tracked : Bool) (n : Nat) (f : Field) : Prop where
  length : f.values.length = n
  kinds : ∀ v ∈ f.values, v.hasKind f.type
  default_kind : f.default.hasKind f.type
  tracks : f.precisions.isSome ↔ tracked ∧ f.type = ⟨.float, false⟩
  digits : ∀ digits, f.precisions = some digits → digits.length = n ∧ ∀ k ∈ digits, -1 ≤ k

/-- All fields of the sheet have this shape. -/
def Sheet.Shaped (tracked : Bool) (n : Nat) (s : Sheet) : Prop :=
  ∀ name f, OrderedMap.get? s name = some f → f.Shaped tracked n

theorem Sheet.Shaped.insert {tracked : Bool} {n : Nat} {s : Sheet} (h : s.Shaped tracked n)
    (name : String) {f : Field} (hf : f.Shaped tracked n) :
    Sheet.Shaped tracked n (OrderedMap.insert s name f) := by
  intro name' f' hf'
  rw [OrderedMap.get?_insert] at hf'
  split at hf'
  · cases hf'
    exact hf
  · exact h name' f' hf'

/-- The sheet has for each column a field of its type. -/
def Sheet.Covers (s : Sheet) (columns : List Column) : Prop :=
  ∀ c ∈ columns, ∃ f, OrderedMap.get? s c.name = some f ∧ f.type = c.type

variable {l : Linking} {d : Draft} {n : Nat} {s s' : Sheet}

/-! ## Digits -/

/-- Digits are counted, or not known. -/
theorem digits_ge {raw : Raw} {k : Int} (h : Linking.digits raw = .ok k) : -1 ≤ k := by
  unfold Linking.digits at h
  split at h
  · cases h
    exact Int.le_refl _
  · rw [mapError_eq_ok] at h
    unfold Decimal.precision at h
    dsimp only at h
    split at h
    · cases h
      exact Int.le_refl _
    · split at h
      · cases h
        decide
      · split at h
        · cases h
          omega
        · cases h
  · cases h

theorem tracks_iff {type : FieldType} :
    l.tracks type ↔ l.options.enablePrecisions ∧ type = ⟨.float, false⟩ := by
  simp [Linking.tracks]

/-! ## Tables -/

theorem field_shaped {c : Column} {f : Field} (hc : c.cells.length = n)
    (h : l.field d c = .ok f) : f.Shaped l.options.enablePrecisions n := by
  obtain ⟨hu, type, hd, hv, hp⟩ := field_eq_ok h
  have accepts := Linking.checkUnit_eq_ok hu
  refine ⟨hv.length_eq ▸ hc, fun v hm => ?_, type ▸ Linking.cell_hasKind accepts hd, ?_, ?_⟩
  · obtain ⟨raw, -, hr⟩ := exists_of_forall₂ hv.flip hm
    exact type ▸ Linking.cell_hasKind accepts hr
  · rw [type, ← tracks_iff]
    split at hp
    · next tracked =>
      obtain ⟨digits, hp, -⟩ := hp
      exact iff_of_true (by rw [hp]; rfl) tracked
    · next untracked => exact iff_of_false (by simp [hp]) untracked
  · intro digits hds
    split at hp
    · obtain ⟨_, hp, counted⟩ := hp
      rw [hds] at hp
      cases hp
      refine ⟨counted.length_eq ▸ hc, fun k hk => ?_⟩
      obtain ⟨raw, -, hr⟩ := exists_of_forall₂ counted.flip hk
      exact digits_ge hr
    · rw [hds] at hp
      cases hp

theorem rowNameField_shaped (tracked : Bool) (names : List String) :
    (rowNameField names).Shaped tracked names.length where
  length := List.length_map ..
  kinds := List.forall_mem_map.2 fun _ _ => rfl
  default_kind := rfl
  tracks := iff_of_false (by simp [rowNameField]) (by simp [rowNameField])
  digits := by simp [rowNameField]

/-- The fields of a table, with that of its row names. -/
theorem sheet_shaped (hd : d.WellFormed) (h : l.sheet d = .ok s) :
    s.Shaped l.options.enablePrecisions d.rowCount ∧
      s.get? nameField = if d.rowNames = [] then none else some (rowNameField d.rowNames) := by
  obtain ⟨declared, others⟩ := sheet_eq_ok hd.fields_nodup h
  constructor
  · intro name f hget
    by_cases hm : name ∈ d.columns.map Column.name
    · obtain ⟨c, hc, rfl⟩ := List.mem_map.1 hm
      obtain ⟨f', hfield, hf'⟩ := declared c hc
      rw [hget] at hf'
      cases hf'
      exact field_shaped (hd.columns c hc).length_cells hfield
    · rw [others name hm] at hget
      split at hget
      · next named =>
        cases hget
        rw [← hd.rows_counted.resolve_left named.2]
        exact rowNameField_shaped _ _
      · cases hget
  · rw [others]
    · by_cases hn : d.rowNames = [] <;> simp [hn]
    · intro hm
      obtain ⟨c, hc, hn⟩ := List.mem_map.1 hm
      exact (hd.fields_named c hc).2 hn

/-! ## New columns of a mod -/

theorem imputed_shaped {c : Column} {default : Value} (hd : default.hasKind c.type) (n : Nat) :
    (l.imputed c default n).Shaped l.options.enablePrecisions n where
  length := List.length_replicate
  kinds v hv := by
    rw [(List.mem_replicate.1 hv).2]
    exact hd
  default_kind := hd
  tracks := by
    show _ ↔ _ ∧ c.type = _
    rw [← tracks_iff, Linking.imputed]
    split <;> simp_all
  digits digits hds := by
    rw [Linking.imputed] at hds
    dsimp only at hds
    split at hds
    · cases hds
      refine ⟨List.length_replicate, fun k hk => ?_⟩
      rw [(List.mem_replicate.1 hk).2]
      exact Int.le_refl _
    · cases hds

theorem addField_shaped {t : Target} {c : Column} (hs : s.Shaped l.options.enablePrecisions n)
    (ht : t.rowCount = n) (h : l.addField d t s c = .ok s') :
    s'.Shaped l.options.enablePrecisions n ∧ l.Accepts c.unit ∧
      (∃ f, s'.get? c.name = some f ∧ f.type = c.type) ∧
      ∀ name f, s.get? name = some f → s'.get? name = some f := by
  obtain ⟨hu, ⟨f, hf, type, rfl⟩ | ⟨none, default, hd, rfl⟩⟩ := addField_eq_ok h
  · exact ⟨hs, Linking.checkUnit_eq_ok hu, ⟨f, hf, type⟩, fun _ _ => id⟩
  · have accepts := Linking.checkUnit_eq_ok hu
    have shaped := imputed_shaped (l := l) (Linking.cell_hasKind accepts hd) t.rowCount
    refine ⟨hs.insert c.name (ht ▸ shaped), accepts,
      ⟨_, by rw [OrderedMap.get?_insert, if_pos rfl], rfl⟩, fun name f hf => ?_⟩
    have : c.name ≠ name := fun e => by rw [← e, none] at hf; cases hf
    rw [OrderedMap.get?_insert, if_neg this, hf]

theorem addFields_shaped {t : Target} {columns : List Column}
    (hs : s.Shaped l.options.enablePrecisions n) (ht : t.rowCount = n)
    (h : columns.foldlM (l.addField d t) s = .ok s') :
    s'.Shaped l.options.enablePrecisions n ∧ (∀ c ∈ columns, l.Accepts c.unit) ∧
      s'.Covers columns ∧ ∀ name f, s.get? name = some f → s'.get? name = some f := by
  induction columns generalizing s with
  | nil =>
    cases h
    exact ⟨hs, by simp, fun c hc => (List.not_mem_nil hc).elim, fun _ _ => id⟩
  | cons c columns ih =>
    rw [List.foldlM_cons] at h
    obtain ⟨s₁, h₁, h⟩ := bind_eq_ok.1 h
    obtain ⟨hs₁, accepts, ⟨f, hf, type⟩, kept₁⟩ := addField_shaped hs ht h₁
    obtain ⟨hs', accepts', covers, kept⟩ := ih hs₁ h
    refine ⟨hs', List.forall_mem_cons.2 ⟨accepts, accepts'⟩, ?_, fun name f hf =>
      kept name f (kept₁ name f hf)⟩
    exact List.forall_mem_cons.2 ⟨⟨f, kept _ f hf, type⟩, covers⟩

/-! ## New rows -/

theorem Field.Shaped.grow {tracked : Bool} {f : Field} (h : f.Shaped tracked n) (k : Nat) :
    (f.grow k).Shaped tracked (n + k) where
  length := by simp [Field.grow, h.length]
  kinds v hv := by
    rcases List.mem_append.1 hv with hv | hv
    · exact h.kinds v hv
    · rw [(List.mem_replicate.1 hv).2]
      exact h.default_kind
  default_kind := h.default_kind
  tracks := by
    show _ ↔ tracked ∧ f.type = _
    rw [← h.tracks, Field.grow, Option.isSome_map]
  digits digits hd := by
    obtain ⟨old, ho, rfl⟩ := Option.map_eq_some_iff.1 hd
    obtain ⟨length, ge⟩ := h.digits old ho
    refine ⟨by simp [length], fun x hx => ?_⟩
    rcases List.mem_append.1 hx with hx | hx
    · exact ge x hx
    · rw [(List.mem_replicate.1 hx).2]
      exact Int.le_refl _

/-- The first rows of an enumeration become all of them. -/
theorem growSheet_shaped {t : Target} {tracked : Bool} (hs : s.Shaped tracked t.rowCount)
    (hn : s.get? nameField = some (rowNameField (t.enumeration.names.take t.rowCount)))
    (le : t.rowCount ≤ t.enumeration.names.length) :
    (growSheet t s).Shaped tracked t.enumeration.names.length ∧
      (growSheet t s).get? nameField = some (rowNameField t.enumeration.names) := by
  unfold growSheet
  dsimp only
  split
  · next none =>
    have all : t.rowCount = t.enumeration.names.length := by omega
    rw [all, List.take_length] at hn
    exact ⟨all ▸ hs, hn⟩
  · have total : t.rowCount + (t.enumeration.names.length - t.rowCount) =
        t.enumeration.names.length := by omega
    constructor
    · intro name f hf
      rw [OrderedMap.get?_mapValues] at hf
      obtain ⟨g, hg, rfl⟩ := Option.map_eq_some_iff.1 hf
      split
      · next same =>
        rw [same, hn] at hg
        cases hg
        exact rowNameField_shaped _ _
      · have grown := (hs name g hg).grow (t.enumeration.names.length - t.rowCount)
        rwa [total] at grown
    · rw [OrderedMap.get?_mapValues, hn]
      rfl

theorem growSheet_covers {t : Target} {columns : List Column} (h : s.Covers columns) :
    (growSheet t s).Covers columns := by
  unfold growSheet
  dsimp only
  split
  · exact h
  · intro c hc
    obtain ⟨f, hf, type⟩ := h c hc
    refine ⟨_, by rw [OrderedMap.get?_mapValues, hf]; rfl, ?_⟩
    split <;> exact type

/-! ## Cells of a mod -/

theorem written_shaped {tracked : Bool} {f : Field} {v : Value} {digits : Int}
    (hf : f.Shaped tracked n) (hv : v.hasKind f.type) (hd : -1 ≤ digits) (row : Nat) :
    (f.written row v digits).Shaped tracked n where
  length := by rw [Field.written, List.length_set, hf.length]
  kinds w hw := by
    rcases List.mem_or_eq_of_mem_set hw with hw | rfl
    · exact hf.kinds w hw
    · exact hv
  default_kind := hf.default_kind
  tracks := by
    show _ ↔ tracked ∧ f.type = _
    rw [← hf.tracks, Field.written, Option.isSome_map]
  digits ds hds := by
    obtain ⟨old, ho, rfl⟩ := Option.map_eq_some_iff.1 hds
    obtain ⟨length, ge⟩ := hf.digits old ho
    refine ⟨by rw [List.length_set, length], fun k hk => ?_⟩
    rcases List.mem_or_eq_of_mem_set hk with hk | rfl
    · exact ge k hk
    · exact hd

/-- What every step that writes a cell of a mod keeps: the shape, the fields of the mod and the
row names. -/
structure Sheet.Written (l : Linking) (d : Draft) (names : List String) (s : Sheet) : Prop where
  shaped : s.Shaped l.options.enablePrecisions names.length
  covers : s.Covers d.columns
  names : s.get? nameField = some (rowNameField names)

theorem writeCell_shaped {names : List String} {row : Nat} {c : Column} {raw : Raw}
    (hd : d.WellFormed) (accepts : ∀ c ∈ d.columns, l.Accepts c.unit) (hc : c ∈ d.columns)
    (hs : s.Written l d names) (h : l.writeCell d row s c raw = .ok s') :
    s'.Written l d names := by
  rcases writeCell_eq_ok h with ⟨-, rfl⟩ | ⟨-, f, v, digits, hf, hv, hk, -, rfl⟩
  · exact hs
  · obtain ⟨f', hf', type⟩ := hs.covers c hc
    rw [hf] at hf'
    cases hf'
    have kind : v.hasKind f.type := type ▸ Linking.cell_hasKind (accepts c hc) hv
    have ge : -1 ≤ digits := by
      split at hk
      · exact digits_ge hk
      · exact hk ▸ Int.le_refl _
    refine ⟨hs.shaped.insert c.name (written_shaped (hs.shaped c.name f hf) kind ge row),
      fun c' hc' => ?_, ?_⟩
    · rw [OrderedMap.get?_insert]
      split
      · next same =>
        obtain ⟨g, hg, hgt⟩ := hs.covers c' hc'
        rw [← same, hf] at hg
        cases hg
        exact ⟨_, rfl, hgt⟩
      · exact hs.covers c' hc'
    · rw [OrderedMap.get?_insert, if_neg (hd.fields_named c hc).2, hs.names]

theorem writeRow_shaped {names : List String} {title : Option Column} {name : String} {row : Nat}
    {cells : List (Column × Raw)} {wiki wiki' : OrderedMap String String} (hd : d.WellFormed)
    (accepts : ∀ c ∈ d.columns, l.Accepts c.unit) (hc : ∀ p ∈ cells, p.1 ∈ d.columns)
    (hs : s.Written l d names)
    (h : l.writeRow d title name row (s, wiki) cells = .ok (s', wiki')) :
    s'.Written l d names := by
  induction cells generalizing s wiki with
  | nil =>
    cases h
    exact hs
  | cons p cells ih =>
    rw [List.forall_mem_cons] at hc
    obtain ⟨s₁, h₁, h⟩ := bind_eq_ok.1 h
    have hs₁ := writeCell_shaped hd accepts hc.1 hs h₁
    dsimp only at h
    split at h
    · obtain ⟨wiki₁, -, h⟩ := bind_eq_ok.1 h
      exact ih hc.2 hs₁ h
    · exact ih hc.2 hs₁ h

/-- The cells of a row are those of its columns, one each. -/
theorem cellsAt_columns {columns : List Column} {i : Nat} {cells : List (Column × Raw)}
    (h : cellsAt columns i = .ok cells) : cells.map Prod.fst = columns := by
  rw [← List.map_id columns]
  refine map_eq_of_forall₂ (mapM_eq_ok.1 h) fun c p hp => ?_
  obtain ⟨raw, -, rfl⟩ := map_eq_ok.1 hp
  rfl

theorem writeRows_shaped {names : List String} {t : Target} {title : Option Column}
    {rows : List (String × Nat)} {wiki wiki' : OrderedMap String String} (hd : d.WellFormed)
    (accepts : ∀ c ∈ d.columns, l.Accepts c.unit) (hs : s.Written l d names)
    (h : l.writeRows d t title (s, wiki) rows = .ok (s', wiki')) : s'.Written l d names := by
  induction rows generalizing s wiki with
  | nil =>
    cases h
    exact hs
  | cons p rows ih =>
    obtain ⟨row, -, h⟩ := bind_eq_ok.1 h
    obtain ⟨cells, hcells, h⟩ := bind_eq_ok.1 h
    obtain ⟨⟨s₁, wiki₁⟩, h₁, h⟩ := bind_eq_ok.1 h
    refine ih (writeRow_shaped hd accepts (fun p hp => ?_) hs h₁) h
    rw [← cellsAt_columns hcells]
    exact List.mem_map_of_mem hp

/-- **The shape after a mod.** All rows of the enumeration are there, and their names. -/
theorem modify_shaped {t : Target} {wiki wiki' : OrderedMap String String} (hd : d.WellFormed)
    (hs : s.Shaped l.options.enablePrecisions t.rowCount)
    (hn : s.get? nameField = some (rowNameField (t.enumeration.names.take t.rowCount)))
    (le : t.rowCount ≤ t.enumeration.names.length)
    (h : l.modify d t s wiki = .ok (s', wiki')) : s'.Written l d t.enumeration.names := by
  obtain ⟨s₁, h₁, h⟩ := bind_eq_ok.1 h
  obtain ⟨title, -, h⟩ := bind_eq_ok.1 h
  obtain ⟨added, accepts, covers, kept⟩ := addFields_shaped hs rfl h₁
  obtain ⟨grown, names⟩ := growSheet_shaped added (kept _ _ hn) le
  exact writeRows_shaped hd accepts ⟨grown, growSheet_covers covers, names⟩ h

end TypedTables
