import TypedTables.Proofs.LastWriter
/-!
# The steps of a mod

When each step of a mod succeeds, and what it answers then. Unlike the lemmas that only say what
follows from an answer, these go both ways, so that one run of a mod can be built from another.

Results:
* `writeCell_eq_ok_iff`, `addTitle_eq_ok_iff`: a cell, and the title that it may be.
* `writeRow_cons_eq_ok`, `writeRows_cons_eq_ok`: the cells of a row, the rows of a mod.
* `modify_eq_ok_iff`, `Linking.addMod_eq_ok_iff`: a mod.
-/
namespace TypedTables

/-! ## Cells -/

/-- A value can be written into the rows that a field has. -/
theorem Field.write_eq_ok_iff {f f' : Field} {row : Nat} {v : Value} {k : Int} :
    f.write row v k = .ok f' ↔
    row < f.values.length ∧ (∀ ds, f.precisions = some ds → row < ds.length) ∧
      f' = f.written row v k := by
  have inside : (f.precisions.all fun ds => decide (row < ds.length)) ↔
      ∀ ds, f.precisions = some ds → row < ds.length := by
    cases f.precisions <;> simp
  rw [← inside, ← and_assoc]
  unfold Field.write
  split
  · next hr =>
    rw [Except.ok.injEq, and_iff_right hr]
    exact eq_comm
  · next hr => exact iff_of_false (by simp) fun h => hr h.1

section Steps

variable {l : Linking} {d : Draft} {t : Target} {s s' : Sheet} {row : Nat} {c : Column} {raw : Raw}
  {wiki wiki' : OrderedMap String String} {name : String} {title : Option Column}
  {st st' : Sheet × OrderedMap String String}

/-- The digits that go with a cell of a field. -/
def Field.digitsOf (f : Field) (raw : Raw) : Except LinkError Int :=
  if f.precisions.isSome then Linking.digits raw else pure Decimal.unknownPrecision

theorem writeCell_of_given (given : ¬ raw.isEmpty) : l.writeCell d row s c raw = (do
    let v ← l.value ⟨d, c, raw⟩
    let f ← orBroken (s.get? c.name)
    let k ← f.digitsOf raw
    let f ← f.write row v k
    pure (s.insert c.name f)) := by
  unfold Linking.writeCell
  rw [if_neg given]
  refine bind_congr fun v => bind_congr fun f => ?_
  unfold Field.digitsOf
  split <;> rfl

/-- A cell that is not empty goes into its row of its field. -/
theorem writeCell_eq_ok_iff : l.writeCell d row s c raw = .ok s' ↔
    if raw.isEmpty then s' = s else ∃ v f k f', l.value ⟨d, c, raw⟩ = .ok v ∧
      s.get? c.name = some f ∧ f.digitsOf raw = .ok k ∧ f.write row v k = .ok f' ∧
      s' = s.insert c.name f' := by
  split
  · next he =>
    unfold Linking.writeCell
    rw [if_pos he, Except.ok.injEq]
    exact eq_comm
  · next given =>
    rw [writeCell_of_given given]
    simp only [bind_eq_ok, orBroken_eq_ok, pure, Except.pure, Except.ok.injEq]
    constructor
    · rintro ⟨v, hv, f, hf, k, hk, f', hw, rfl⟩
      exact ⟨v, f, k, f', hv, hf, hk, hw, rfl⟩
    · rintro ⟨v, f, k, f', hv, hf, hk, hw, rfl⟩
      exact ⟨v, hv, f, hf, k, hk, f', hw, rfl⟩

/-- A title that is not blank is recorded. -/
theorem addTitle_eq_ok_iff : l.addTitle d wiki name raw = .ok wiki' ↔
    if raw.isBlank then wiki' = wiki else
      ∃ title, (l.resolver d).text raw = .ok title ∧ wiki' = wiki.insert name title := by
  unfold Linking.addTitle
  split
  · rw [Except.ok.injEq]
    exact eq_comm
  · simp only [bind_eq_ok, mapError_eq_ok, pure, Except.pure, Except.ok.injEq, eq_comm (b := wiki')]

/-! ## Rows -/

theorem writeRow_cons_eq_ok {p : Column × Raw} {cells : List (Column × Raw)} :
    l.writeRow d title name row st (p :: cells) = .ok st' ↔
      ∃ s wiki, l.writeCell d row st.1 p.1 p.2 = .ok s ∧
        (if title.any fun t => t.name == p.1.name then l.addTitle d st.2 name p.2 = .ok wiki
          else wiki = st.2) ∧ l.writeRow d title name row (s, wiki) cells = .ok st' := by
  obtain ⟨c, raw⟩ := p
  rw [Linking.writeRow]
  simp only [bind_eq_ok, exists_and_left]
  refine exists_congr fun s => and_congr_right fun _ => ?_
  split
  · exact bind_eq_ok
  · simp only [exists_eq_left]
    rfl

theorem writeRows_cons_eq_ok {r : String × Nat} {rows : List (String × Nat)} :
    l.writeRows d t title st (r :: rows) = .ok st' ↔
      ∃ row cells st₁, t.enumeration.rows.get? r.1 = some row ∧ cellsAt d.columns r.2 = .ok cells ∧
        l.writeRow d title r.1 row st cells = .ok st₁ ∧ l.writeRows d t title st₁ rows = .ok st' := by
  rw [Linking.writeRows]
  simp only [bind_eq_ok, orBroken_eq_ok, exists_and_left]

/-! ## Mods -/

theorem modify_eq_ok_iff : l.modify d t s wiki = .ok st' ↔
    ∃ s₁ title, d.columns.foldlM (l.addField d t) s = .ok s₁ ∧ l.wikiColumn? d = .ok title ∧
      l.writeRows d t title (growSheet t s₁, wiki) d.rowNames.zipIdx = .ok st' := by
  unfold Linking.modify
  simp only [bind_eq_ok, exists_and_left]

end Steps

/-- A mod of an enumeration only adds rows; one of a table of entities is written into its sheet. -/
theorem Linking.addMod_eq_ok_iff {l : Linking} {enumerations : OrderedMap String Enumeration}
    {a a' : Assembly} {d : Draft} {target : String} :
    l.addMod enumerations a d target = .ok a' ↔ ∃ e info, enumerations.get? target = some e ∧
      a.info.get? target = some info ∧
      if info.format = .enumeration then d.columns = [] ∧ a' = { a with
        info := a.info.insert target { info with rowCount := some e.names.length } }
      else ∃ s n st, a.tables.get? target = some (.sheet s) ∧ info.rowCount = some n ∧
        l.modify d ⟨target, e, n⟩ s a.wiki = .ok st ∧
        a' = ⟨a.tables.insert target (.sheet st.1),
          a.info.insert target { info with rowCount := some e.names.length }, st.2⟩ := by
  unfold addMod
  simp only [bind_eq_ok, orBroken_eq_ok, exists_and_left]
  refine exists_congr fun e => and_congr_right fun _ => exists_congr fun info =>
    and_congr_right fun _ => ?_
  split
  · split
    · next columns => simp [columns]
    · next columns => simp [Decidable.not_not.1 columns, pure, Except.pure, eq_comm]
  · cases a.tables.get? target with
    | none => simp
    | some contents =>
      cases contents with
      | grid g => simp
      | sheet s =>
        constructor
        · intro h
          obtain ⟨n, hn, h⟩ := bind_eq_ok.1 h
          obtain ⟨st, hm, h⟩ := bind_eq_ok.1 h
          cases h
          exact ⟨s, rfl, n, orBroken_eq_ok.1 hn, st, hm, rfl⟩
        · rintro ⟨_, ⟨⟩, n, hn, st, hm, rfl⟩
          exact bind_eq_ok.2 ⟨n, orBroken_eq_ok.2 hn, bind_eq_ok.2 ⟨st, hm, rfl⟩⟩

end TypedTables
