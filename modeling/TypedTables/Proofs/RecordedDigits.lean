import TypedTables.Proofs.StoreShape
/-!
# Recorded digits

Values and significant digits are written by separate steps into separate lists, and new fields,
new rows and overwritten cells fill them in different ways. Both lists follow the same given cells,
so the digits of a place are those of the very text whose value stands there; where no cell is given
the value is a default and no digits are known.

Results:
* `digits_eq_ok`: only a text, or an empty cell, has digits.
* `Field.Holds.counted`: the digits of a field beside its values.
* `type_of_rowNames`: the field of row names is no FLOAT.
* `link_recordedDigits`: the digits that a store has of its FLOAT fields.
-/
namespace TypedTables

/-- The digits `k` belong to a place with value `v`: they are those of the last text that is given
for it, which has this value; or nothing is given, and they are not known. -/
inductive Linking.Counted (l : Linking) (given : List Given) (v : Value) (k : Int) : Prop
  | text {g : Given} {t : String} : lastGiven given = some g → g.raw = .text t →
    l.value g = .ok v → Decimal.precision t = .ok k → Counted l given v k
  | nothing : lastGiven given = none → k = -1 → Counted l given v k

theorem digits_eq_ok {raw : Raw} {k : Int} (h : Linking.digits raw = .ok k) :
    raw = .empty ∧ k = -1 ∨ ∃ t, raw = .text t ∧ Decimal.precision t = .ok k := by
  unfold Linking.digits at h
  split at h
  · cases h
    exact .inl ⟨rfl, rfl⟩
  · next t => exact .inr ⟨t, rfl, mapError_eq_ok.1 h⟩
  · cases h

/-- The cell that is given last is not empty. -/
theorem not_isEmpty_of_lastGiven {given : List Given} {g : Given} (h : lastGiven given = some g) :
    g.raw ≠ .empty := by
  have mem := List.mem_of_getLast? h
  rw [List.mem_filter] at mem
  intro empty
  rw [empty] at mem
  exact absurd mem.2 (by simp [Raw.isEmpty])

/-- What is given for a row decides its digits along with its value. -/
theorem Field.Holds.counted {l : Linking} {first : Given} {given : Nat → List Given} {n : Nat}
    {f : Field} (h : f.Holds l first given n) (tracked : l.tracks f.type) :
    ∃ ds, f.precisions = some ds ∧ ds.length = n ∧ ∀ r < n, ∃ v k, f.values[r]? = some v ∧
      ds[r]? = some k ∧ l.Counted (given r) v k := by
  have digits := h.digits
  rw [Field.HoldsDigits, if_pos tracked] at digits
  obtain ⟨ds, hds, length, recorded⟩ := digits
  refine ⟨ds, hds, length, fun r hr => ?_⟩
  obtain ⟨v, hv, value⟩ := h.value r hr
  obtain ⟨k, hk, last⟩ := recorded r hr
  refine ⟨v, k, hv, hk, ?_⟩
  unfold recordedDigits at last
  cases hg : lastGiven (given r) with
  | none =>
    rw [hg] at last
    cases last
    exact .nothing hg rfl
  | some g =>
    rw [hg] at last
    rw [hg, Option.getD_some] at value
    obtain ⟨empty, -⟩ | ⟨t, ht, counted⟩ := digits_eq_ok last
    · exact absurd empty (not_isEmpty_of_lastGiven hg)
    · exact .text hg ht value counted

section Runs

variable {units : Units.Converter} {options : LinkOptions} {tables : List Draft}
  {predefined : Predefined} {n : Names} {a : Assembly} {d : Draft}
  (linked : Linked predefined.toList tables n)
  (nd : ((tables.filter (!·.isMod)).map Draft.name).Nodup)
  (ha : (Linking.addTables ⟨units, options, n.entities⟩ n.enumerations { info := n.info }
    (modsLast tables)).result = .ok a)
  (wf : ∀ d ∈ tables, d.WellFormed)

include linked nd ha wf in
/-- The field of row names holds names; a table without row names has none. -/
theorem type_of_rowNames (hd : d ∈ tables) (hf : d.format = .entities ∨ d.format = .anonymousRows)
    {s : Sheet} (hs : a.tables.get? d.name = some (.sheet s)) {f : Field}
    (h : s.get? nameField = some f) : f.type = ⟨.stringName, false⟩ := by
  by_cases named : d.rowNames = []
  · have hm : d.isMod = false := by rcases hf with hf | hf <;> simp [Draft.isMod, hf]
    obtain ⟨a₁, b, h₁, hb, same⟩ := exists_runOf nd ha hd hm
    rw [linked.modsOf_eq_nil nd hd hm fun e => e.2 named] at hb
    cases hb
    obtain ⟨_, hn⟩ := Linking.addSheet_of_format hf h₁
    obtain ⟨s₁, hs₁, inserted, -⟩ := Linking.addSheet_eq_ok hn
    rw [same.tables, inserted, OrderedMap.get?_insert, if_pos rfl] at hs
    cases hs
    rw [(sheet_shaped (wf d hd) hs₁).2, if_pos named] at h
    cases h
  · obtain ⟨_, _, b, -, same, records, -⟩ := holdsRecords_of_mem linked nd ha wf hd hf
    obtain ⟨s₁, hs₁, -, names⟩ := records.sheet
    rw [same.tables, hs₁] at hs
    cases hs
    rw [names named] at h
    cases h
    rfl

end Runs

/-- **Recorded digits.** When digits are tracked, every scalar FLOAT field of a table has digits for
each of its rows: those of the text whose value the row holds, which is the last that the table or a
mod of it gives for the row, and none where no text is given. -/
theorem link_recordedDigits {units : Units.Converter} {options : LinkOptions} {tables : List Draft}
    {predefined : Predefined} {s : Store} (parsed : ∀ d ∈ tables, d.Parsed)
    (h : (link units options tables predefined).result = .ok s)
    (tracked : options.enablePrecisions) {d : Draft} (hd : d ∈ tables)
    (hf : d.format = .entities ∨ d.format = .anonymousRows) :
    ∃ sheet n digits, s.sheet? d.name = some sheet ∧ s.rowCount? d.name = some n ∧
      s.precisions.get? d.name = some digits ∧
      ∀ field f, sheet.get? field = some f → f.type = ⟨.float, false⟩ →
        f.values.length = n ∧ ∃ ds, digits.get? field = some ds ∧ ds.length = n ∧
          ∀ r < n, ∃ v k, f.values[r]? = some v ∧ ds[r]? = some k ∧
            Linking.Counted ⟨units, options, s.entities⟩
              (givenCells d (modsOf tables d.name) (s.namesOf d.name) field r) v k := by
  obtain ⟨nd, names, a, hn, ha, rfl⟩ := link_eq_ok_iff.1 h
  have linked := linkNames_linked nd hn
  have wf : ∀ d ∈ tables, d.WellFormed := fun d hd => (parsed d hd).wellFormed
  have shows := shows_of_mem linked nd ha (fun b hb => (parsed b hb).sound) hd hf
  obtain ⟨sheet, n, affix, hs, hi, holds, -⟩ := shows.shows
  refine ⟨sheet, n, sheet.filterMapValues fun _ f => f.precisions, ?_, ?_, ?_, ?_⟩
  · simp only [Store.sheet?, hs]
  · simp only [Store.rowCount?, hi, Option.bind_some]
  · rw [Store.precisions, if_pos tracked, OrderedMap.get?_filterMapValues]
    simp only [hs, Option.bind_some]
  · intro field f hget float
    have hn : field ≠ nameField := by
      rintro rfl
      rw [type_of_rowNames linked nd ha wf hd hf hs hget] at float
      cases float
    cases hfirst : firstDefault (d :: modsOf tables d.name) field with
    | none =>
      rw [holds.absent field hn hfirst] at hget
      cases hget
    | some first =>
      obtain ⟨_, found, hold⟩ := holds.holds field first hn hfirst
      rw [hget] at found
      cases found
      obtain ⟨ds, hds, length, rows⟩ := hold.counted (tracks_iff.2 ⟨tracked, float⟩)
      refine ⟨hold.length, ds, ?_, length, rows⟩
      rw [OrderedMap.get?_filterMapValues, hget]
      exact hds

/-- Heights that are measured more than once. -/
def Draft.peaks : List Draft := readAll [
  ("Peak", ["@DB_ENTITIES", "peak\theight", "Type\tFLOAT", "Unit\tm", "alp\t4478.", "ben\t~1300",
    "col\t"]),
  ("Survey", ["@DB_ENTITIES_MOD", "@MODIFIES=Peak", "peak\theight\tprominence", "Type\tFLOAT\tFLOAT",
    "Unit\tkm\tkm", "ben\t1.3450\t1.345", "dom\t\t0"])]

/-- A height that is measured again is as exact as the second measurement; one that is not measured
has no digits, also for a peak that only the survey adds. -/
theorem peaks_recordedDigits : ∃ s d sheet f ds,
    (link (.only [("m", .real 1.0), ("km", .real 1000.0)] []) { enablePrecisions := true }
      Draft.peaks ∅).result = .ok s ∧
    d ∈ Draft.peaks ∧ d.name = "Peak" ∧ s.sheet? d.name = some sheet ∧
    sheet.get? "height" = some f ∧
    ((s.precisions.get? d.name).bind fun digits => digits.get? "height") = some ds ∧
    ds = [4, 5, -1, -1] ∧
    ∀ r < 4, ∃ v k, f.values[r]? = some v ∧ ds[r]? = some k ∧
      Linking.Counted ⟨.only [("m", .real 1.0), ("km", .real 1000.0)] [],
          { enablePrecisions := true }, s.entities⟩
        (givenCells d (modsOf Draft.peaks d.name) (s.namesOf d.name) "height" r) v k := by
  have parsed : ∀ d ∈ Draft.peaks, d.Parsed := fun d => Draft.parsed_of_mem_readAll
  have first : Draft.peaks.head?.map (fun d => (d.name, d.format)) = some ("Peak", .entities) := by
    decide +kernel
  have run : ((link (.only [("m", .real 1.0), ("km", .real 1000.0)] [])
      { enablePrecisions := true } Draft.peaks ∅).result.toOption.map fun s =>
        (((s.sheet? "Peak").bind fun sheet => sheet.get? "height").map Field.type,
          (s.precisions.get? "Peak").bind fun digits => digits.get? "height")) =
      some (some ⟨.float, false⟩, some [4, 5, -1, -1]) := by
    decide +kernel
  obtain ⟨d, hd, hdf⟩ := Option.map_eq_some_iff.1 first
  rw [Prod.mk.injEq] at hdf
  obtain ⟨s, h, hs⟩ := toOption_map_eq_some.1 run
  rw [Prod.mk.injEq] at hs
  obtain ⟨type, recorded⟩ := hs
  have mem : d ∈ Draft.peaks := List.mem_of_mem_head? (by rw [hd]; rfl)
  obtain ⟨sheet, n, digits, hsheet, -, hdigits, counted⟩ :=
    link_recordedDigits parsed h rfl mem (.inl hdf.2)
  rw [← hdf.1] at type recorded
  rw [hsheet] at type
  obtain ⟨f, hf, float⟩ := Option.map_eq_some_iff.1 type
  obtain ⟨-, ds, hds, length, rows⟩ := counted "height" f hf float
  have same : ds = [4, 5, -1, -1] := by
    rw [hdigits, Option.bind_some, hds] at recorded
    exact Option.some.inj recorded
  have four : n = 4 := by rw [← length, same]; rfl
  subst four
  exact ⟨s, d, sheet, f, ds, h, mem, hdf.1, hsheet, hf, by rw [hdigits, Option.bind_some, hds], same,
    rows⟩

end TypedTables
