import TypedTables.Proofs.Linkable
import TypedTables.Proofs.Locality
import TypedTables.Proofs.Rerun
/-!
# The order of the tables

The tables of a dataset may be listed in any order, as long as the mods of one table stay in theirs.
A run links the same names, since the checks come to a condition without an order, and each
enumeration is put together from one table and its mods. Then it makes of every table what the
drafts about it make of it, which are the same in the same order.

Results:
* `addMods_enumeration`, `addTables_enumeration`: of what an enumeration is put together.
* `linkNames_same`: both orders link the same names.
* `run_orderIndependent`: both orders give the same store, listings apart, or none.
-/
namespace TypedTables

/-! ## Enumerations -/

/-- An enumeration with further names at its end, except for those that it has. -/
def Enumeration.extendBy (e : Enumeration) (names : List String) : Enumeration :=
  names.foldl (fun e name => if e.rows.contains name then e else e.add name) e

theorem Enumeration.extendBy_append (e : Enumeration) (names names' : List String) :
    e.extendBy (names ++ names') = (e.extendBy names).extendBy names' :=
  List.foldl_append

namespace Names

theorem extend_eq_extendBy {n n' : Names} {owner : String} {e e' : Enumeration}
    {names : List String} (h : n.extend owner e names = .ok (n', e')) : e' = e.extendBy names := by
  induction names generalizing n e with
  | nil =>
    cases h
    rfl
  | cons name rest ih =>
    unfold extend at h
    rw [Enumeration.extendBy, List.foldl_cons]
    split at h
    · next hc =>
      rw [if_pos hc]
      exact ih h
    · next hc =>
      obtain ⟨n₁, -, h⟩ := bind_eq_ok.1 h
      rw [if_neg hc]
      exact ih h

/-- A mod extends the enumeration of its target. -/
theorem addMod_enumeration {n n' : Names} {d : Draft} {target : String} {added : Nat}
    (h : n.addMod d target = .ok (n', added)) (o : String) :
    n'.enumerations.get? o =
      (n.enumerations.get? o).map fun e => if target = o then e.extendBy d.rowNames else e := by
  obtain ⟨i, e, n₁, e', -, -, he, hx, rfl, -⟩ := addMod_eq_ok_iff.1 h
  rw [OrderedMap.get?_insert, (extend_spec hx).enumerations]
  split
  · next ho =>
    subst ho
    rw [he, extend_eq_extendBy hx]
    rfl
  · simp

/-- The mods of a table extend its enumeration one after the other. -/
theorem addMods_enumeration {n n' : Names} {rest : List Draft}
    (h : (n.addMods rest).result = .ok n') (o : String) :
    n'.enumerations.get? o =
      (n.enumerations.get? o).map fun e => e.extendBy ((modsOf rest o).flatMap Draft.rowNames) := by
  induction rest generalizing n with
  | nil =>
    cases h
    exact Option.map_id'.symm
  | cons d rest ih =>
    cases ht : d.target? with
    | none =>
      unfold addMods at h
      rw [ht] at h
      rw [modsOf_cons_of_ne (by simp [ht])]
      exact ih h
    | some target =>
      rw [result_addMods_cons ht, bind_eq_ok] at h
      obtain ⟨⟨n₁, added⟩, h₁, h⟩ := h
      rw [ih h, addMod_enumeration h₁, Option.map_map]
      congr 1
      funext e
      by_cases ho : target = o
      · rw [Function.comp, if_pos ho, modsOf_cons_of_target (ho ▸ ht), List.flatMap_cons,
          Enumeration.extendBy_append]
      · rw [Function.comp, if_neg ho, modsOf_cons_of_ne (by simpa [ht] using ho)]

/-- An enumeration that is there is not replaced. -/
theorem addTables_keep {n n' : Names} {rest : List Draft} (h : n.addTables rest = .ok n')
    {o : String} {e : Enumeration} (he : n.enumerations.get? o = some e) :
    n'.enumerations.get? o = some e := by
  induction rest generalizing n with
  | nil =>
    cases h
    exact he
  | cons d rest ih =>
    unfold addTables at h
    split at h
    · obtain ⟨n₁, h₁, h⟩ := bind_eq_ok.1 h
      obtain ⟨none, -, -, rfl⟩ := addTable_eq_ok_iff.1 h₁
      refine ih h ?_
      rw [get?_enumerations_withTable, if_neg, he]
      rintro ⟨rfl, -⟩
      rw [he] at none
      cases none
    · exact ih h he

/-- The enumeration of a table has its row names; no other enumeration changes. -/
theorem addTables_enumeration {n n' : Names} {rest : List Draft} (h : n.addTables rest = .ok n') :
    (∀ d ∈ rest, d.format.isEnumerated → d.rowNames ≠ [] →
      n'.enumerations.get? d.name = some d.enumeration) ∧
    ∀ o, (∀ d ∈ rest, d.format.isEnumerated → d.rowNames ≠ [] → d.name ≠ o) →
      n'.enumerations.get? o = n.enumerations.get? o := by
  induction rest generalizing n with
  | nil =>
    cases h
    exact ⟨by simp, fun _ _ => rfl⟩
  | cons d rest ih =>
    unfold addTables at h
    simp only [List.forall_mem_cons]
    split at h
    · next hd =>
      obtain ⟨n₁, h₁, h⟩ := bind_eq_ok.1 h
      obtain ⟨-, -, -, rfl⟩ := addTable_eq_ok_iff.1 h₁
      obtain ⟨own, other⟩ := ih h
      refine ⟨⟨fun _ named => addTables_keep h ?_, own⟩, fun o hne => ?_⟩
      · rw [get?_enumerations_withTable, if_pos ⟨rfl, named⟩]
      · rw [other o hne.2, get?_enumerations_withTable, if_neg fun e => hne.1 hd e.2 e.1]
    · next hd =>
      obtain ⟨own, other⟩ := ih h
      exact ⟨⟨fun he => absurd he hd, own⟩, fun o hne => other o hne.2⟩

end Names

/-! ## Names -/

/-- Names that are the same, listings apart. -/
structure Names.Same (n n' : Names) : Prop where
  entities : ∀ name, n.entities.get? name = n'.entities.get? name
  enumerations : ∀ o, n.enumerations.get? o = n'.enumerations.get? o
  info : ∀ t, n.info.get? t = n'.info.get? t

section Orders

variable {tables tables' : List Draft} {predefined : Predefined}

/-- The mods of a table are last in the order of a run, and stay in theirs. -/
theorem modsOf_modsLast (tables : List Draft) (t : String) :
    modsOf (modsLast tables) t = modsOf tables t := by
  have base : modsOf (tables.filter (!·.isMod)) t = [] := by
    refine List.filter_eq_nil_iff.2 fun d hd => ?_
    rw [Draft.target?_eq_none (by simpa using (List.mem_filter.1 hd).2)]
    simp
  rw [modsLast, modsOf, List.filter_append]
  show modsOf _ t ++ modsOf _ t = _
  rw [base, modsOf_filter_isMod, List.nil_append]

theorem Linkable.perm (l : Linkable tables predefined) (perm : tables.Perm tables') :
    Linkable tables' predefined where
  names := ((perm.filter _).map _).nodup_iff.1 l.names
  indexes := l.indexes
  apart d hd := l.apart d (perm.mem_iff.2 hd)
  targets d hd t ht := by
    obtain ⟨b, hb, h⟩ := l.targets d (perm.mem_iff.2 hd) t ht
    exact ⟨b, perm.mem_iff.1 hb, h⟩
  owners o o' name h h' :=
    l.owners o o' name (h.mono (fun _ => id) fun d => perm.mem_iff.2)
      (h'.mono (fun _ => id) fun d => perm.mem_iff.2)

/-- Both orders link the same names. -/
theorem linkNames_same (perm : tables.Perm tables') (mods : ∀ t, modsOf tables t = modsOf tables' t)
    (nd : ((tables.filter (!·.isMod)).map Draft.name).Nodup) {n n' : Names}
    (h : (linkNames (modsLast tables) predefined).result = .ok n)
    (h' : (linkNames (modsLast tables') predefined).result = .ok n') : n.Same n' := by
  have nd' : ((tables'.filter (!·.isMod)).map Draft.name).Nodup :=
    ((perm.filter _).map _).nodup_iff.1 nd
  have linked := linkNames_linked nd h
  have linked' := linkNames_linked nd' h'
  unfold linkNames at h h'
  simp only [Logged.result_bind, Logged.result_ofExcept, bind_eq_ok] at h h'
  obtain ⟨n₁, h₁, n₂, h₂, h₃⟩ := h
  obtain ⟨n₁', h₁', n₂', h₂', h₃'⟩ := h'
  rw [h₁] at h₁'
  cases h₁'
  obtain ⟨own, other⟩ := Names.addTables_enumeration h₂
  obtain ⟨own', other'⟩ := Names.addTables_enumeration h₂'
  have mem : ∀ d, d ∈ modsLast tables' ↔ d ∈ modsLast tables := fun d => by
    rw [mem_modsLast, mem_modsLast, perm.mem_iff]
  have tablesSame : ∀ o, n₂.enumerations.get? o = n₂'.enumerations.get? o := by
    intro o
    by_cases ho : ∃ d ∈ modsLast tables, d.format.isEnumerated ∧ d.rowNames ≠ [] ∧ d.name = o
    · obtain ⟨d, hd, hde, hdr, rfl⟩ := ho
      rw [own d hd hde hdr, own' d ((mem d).2 hd) hde hdr]
    · rw [other o fun d hd hde hdr hn => ho ⟨d, hd, hde, hdr, hn⟩,
        other' o fun d hd hde hdr hn => ho ⟨d, (mem d).1 hd, hde, hdr, hn⟩]
  have enumerations : ∀ o, n.enumerations.get? o = n'.enumerations.get? o := by
    intro o
    rw [Names.addMods_enumeration h₃, Names.addMods_enumeration h₃', modsOf_modsLast,
      modsOf_modsLast, mods, tablesSame]
  refine ⟨fun name => Option.ext fun x => ?_, enumerations, fun t => Option.ext fun i => ?_⟩
  · obtain ⟨o, row⟩ := x
    rw [linked.coherent, linked'.coherent, enumerations]
  · rw [linked.info_iff, linked'.info_iff]
    simp only [perm.mem_iff]

/-- The drafts about a table come in one order. -/
theorem about_modsLast_eq (perm : tables.Perm tables')
    (mods : ∀ t, modsOf tables t = modsOf tables' t)
    (nd : ((tables.filter (!·.isMod)).map Draft.name).Nodup) (t : String) :
    about (modsLast tables) t = about (modsLast tables') t := by
  have nd' : ((tables'.filter (!·.isMod)).map Draft.name).Nodup :=
    ((perm.filter _).map _).nodup_iff.1 nd
  by_cases ht : ∃ d ∈ tables, d.isMod = false ∧ d.name = t
  · obtain ⟨d, hd, hm, rfl⟩ := ht
    rw [about_modsLast_of_mem nd hd hm, about_modsLast_of_mem nd' (perm.mem_iff.1 hd) hm, mods]
  · have none : ∀ ts : List Draft, (∀ d, d ∈ ts ↔ d ∈ tables) →
        (ts.filter (!·.isMod)).filter (fun d => d.name = t) = [] := by
      intro ts hts
      refine List.filter_eq_nil_iff.2 fun d hd hn => ht ⟨d, ?_, ?_, by simpa using hn⟩
      · exact (hts d).1 (List.mem_filter.1 hd).1
      · simpa using (List.mem_filter.1 hd).2
    rw [about_modsLast, about_modsLast, none tables fun _ => Iff.rfl,
      none tables' fun d => perm.mem_iff.symm, mods]

end Orders

/-! ## Stores -/

/-- Two stores have the same entries in every container but that of titles, listings apart. -/
structure Store.SameMaps (s s' : Store) : Prop where
  tables : ∀ t, s.tables.get? t = s'.tables.get? t
  entityRows : ∀ name, s.entityRows.get? name = s'.entityRows.get? name
  entityOwners : ∀ name, s.entityOwners.get? name = s'.entityOwners.get? name
  /-- the rows of the names of each owner, and its names by their rows -/
  enumerations : ∀ o, s.enumerations.get? o = s'.enumerations.get? o
  formats : ∀ t, s.formats.get? t = s'.formats.get? t
  rowCounts : ∀ t, s.rowCounts.get? t = s'.rowCounts.get? t
  entityAffixes : ∀ t, s.entityAffixes.get? t = s'.entityAffixes.get? t
  fieldTypes : ∀ t, s.fieldTypes.get? t = s'.fieldTypes.get? t
  precisions : ∀ t, s.precisions.get? t = s'.precisions.get? t
  gridAxes : ∀ t, s.gridAxes.get? t = s'.gridAxes.get? t

theorem Store.sameMaps {s s' : Store} (tables : ∀ t, s.tables.get? t = s'.tables.get? t)
    (info : ∀ t, s.info.get? t = s'.info.get? t)
    (entities : ∀ name, s.entities.get? name = s'.entities.get? name)
    (enumerations : ∀ o, s.enumerations.get? o = s'.enumerations.get? o)
    (tracks : s.tracksPrecision = s'.tracksPrecision) : s.SameMaps s' where
  tables := tables
  enumerations := enumerations
  entityRows name := by
    simp only [entityRows, OrderedMap.get?_mapValues, entities]
  entityOwners name := by
    simp only [entityOwners, OrderedMap.get?_mapValues, entities]
  formats t := by
    simp only [formats, OrderedMap.get?_mapValues, info]
  rowCounts t := by
    simp only [rowCounts, OrderedMap.get?_filterMapValues, info]
  entityAffixes t := by
    simp only [entityAffixes, OrderedMap.get?_filterMapValues, info]
  fieldTypes t := by
    simp only [fieldTypes, OrderedMap.get?_filterMapValues, tables]
  precisions t := by
    unfold precisions
    rw [tracks]
    split
    · simp only [OrderedMap.get?_filterMapValues, tables]
    · rfl
  gridAxes t := by
    simp only [gridAxes, OrderedMap.get?_filterMapValues, tables]

/-! ## Runs -/

section Runs

variable {l : Linker} {tables tables' : List Draft} {predefined : Predefined}

/-- What one order gives, another order gives. -/
theorem exists_run_same (parsed : ∀ d ∈ tables, d.Parsed) (perm : tables.Perm tables')
    (mods : ∀ t, modsOf tables t = modsOf tables' t) {s : Store}
    (h : (l.run tables predefined).1.result = .ok s) :
    ∃ s', (l.run tables' predefined).1.result = .ok s' ∧ s.SameMaps s' := by
  have parsed' : ∀ d ∈ tables', d.Parsed := fun d hd => parsed d (perm.mem_iff.2 hd)
  rw [l.run_fst] at h ⊢
  obtain ⟨nd, n, a, hn, ha, rfl⟩ := link_eq_ok_iff.1 h
  -- the names
  have linkable := (Linkable.of_linked nd (linkNames_linked nd hn)).perm perm
  obtain ⟨n', hn'⟩ := linkable.exists_linkAll parsed'
  obtain ⟨nd', hn'⟩ := linkAll_eq_ok_iff.1 hn'
  have same := linkNames_same perm mods nd hn hn'
  -- the tables, one at a time
  have agrees : Linking.Agrees ⟨l.units, l.options, n.entities⟩ ⟨l.units, l.options, n'.entities⟩ :=
    ⟨rfl, same.entities, fun _ _ => rfl⟩
  have start : ∀ t, Assembly.SameAt t { info := n.info } { info := n'.info } := fun t =>
    ⟨rfl, same.info t⟩
  have each : ∀ t, ∃ b, (Linking.addTables ⟨l.units, l.options, n'.entities⟩ n'.enumerations
      { info := n'.info } (about (modsLast tables') t)).result = .ok b ∧ a.SameAt t b := by
    intro t
    obtain ⟨b, hb, hab⟩ := Linking.addTables_about (start t) ha
    rw [agrees.addTables same.enumerations, about_modsLast_eq perm mods nd] at hb
    exact ⟨b, hb, hab⟩
  obtain ⟨a', ha'⟩ := Linking.exists_addTables fun t => ⟨_, (each t).choose_spec.1⟩
  have sameAt : ∀ t, a.SameAt t a' := by
    intro t
    obtain ⟨b, hb, hab⟩ := each t
    obtain ⟨b', hb', hab'⟩ := Linking.addTables_about (.refl _) ha'
    rw [hb] at hb'
    cases hb'
    exact hab.trans hab'.symm
  refine ⟨_, link_eq_ok_iff.2 ⟨nd', n', a', hn', ha', rfl⟩, ?_⟩
  exact Store.sameMaps (fun t => (sameAt t).tables) (fun t => (sameAt t).info) same.entities
    same.enumerations rfl

/-- **The order of the tables.** If the mods of each table keep their order, a run succeeds on both
orders of the tables or on neither, and both stores have the same entries. -/
theorem run_orderIndependent (parsed : ∀ d ∈ tables, d.Parsed) (perm : tables.Perm tables')
    (mods : ∀ t, modsOf tables t = modsOf tables' t) :
    ((∃ s, (l.run tables predefined).1.result = .ok s) ↔
      ∃ s', (l.run tables' predefined).1.result = .ok s') ∧
    ∀ s s', (l.run tables predefined).1.result = .ok s →
      (l.run tables' predefined).1.result = .ok s' → s.SameMaps s' := by
  refine ⟨⟨?_, ?_⟩, fun s s' h h' => ?_⟩
  · rintro ⟨s, h⟩
    obtain ⟨s', h', -⟩ := exists_run_same parsed perm mods h
    exact ⟨s', h'⟩
  · rintro ⟨s, h⟩
    obtain ⟨s', h', -⟩ := exists_run_same (fun d hd => parsed d (perm.mem_iff.2 hd)) perm.symm
      (fun t => (mods t).symm) h
    exact ⟨s', h'⟩
  · obtain ⟨s₁, h₁, same⟩ := exists_run_same parsed perm mods h
    rw [h'] at h₁
    cases h₁
    exact same

end Runs

/-- The pets, and the same with the mod before its target. -/
theorem pets_orderIndependent : ∃ s s',
    (({} : Linker).run Draft.pets ∅).1.result = .ok s ∧
    (({} : Linker).run Draft.pets.reverse ∅).1.result = .ok s' ∧
    Draft.pets.map Draft.isMod = [false, true] ∧ s.SameMaps s' := by
  have parsed : ∀ d ∈ Draft.pets, d.Parsed := fun d => Draft.parsed_of_mem_readAll
  have targets : Draft.pets.map Draft.target? = [none, some "Pet"] := by decide +kernel
  have mods : ∀ t, modsOf Draft.pets t = modsOf Draft.pets.reverse t := by
    intro t
    obtain ⟨d, rest, hd, hn, hrest⟩ := List.map_eq_cons_iff.1 targets
    obtain ⟨m, last, rfl, -, hlast⟩ := List.map_eq_cons_iff.1 hrest
    rw [List.map_eq_nil_iff.1 hlast] at hd
    rw [hd]
    show modsOf [d, m] t = modsOf [m, d] t
    rw [modsOf_cons_of_ne (by simp [hn])]
    by_cases ht : m.target? = some t
    · rw [modsOf_cons_of_target ht, modsOf_cons_of_target ht, modsOf_cons_of_ne (by simp [hn])]
    · rw [modsOf_cons_of_ne ht, modsOf_cons_of_ne ht, modsOf_cons_of_ne (by simp [hn])]
  have run : (({} : Linker).run Draft.pets ∅).1.result.toOption.isSome := by decide +kernel
  cases h : (({} : Linker).run Draft.pets ∅).1.result with
  | error e =>
    rw [h] at run
    cases run
  | ok s =>
    have perm := (List.reverse_perm Draft.pets).symm
    obtain ⟨s', h'⟩ := (run_orderIndependent parsed perm mods).1.1 ⟨s, h⟩
    exact ⟨s, s', rfl, h', by decide +kernel, (run_orderIndependent parsed perm mods).2 s s' h h'⟩

end TypedTables
