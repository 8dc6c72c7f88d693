import TypedTables.Proofs.Registration
/-!
# Linked names

What the names of a dataset are when they are linked. `Declares` says of a dataset which names
each owner has, and `Linked` what a run has made of the part that it has read: every name is in
one place for each who asks, and nothing is there that the dataset does not declare.

Results:
* `Linked.addPredefined`, `Linked.addTable`, `Linked.addMod`: every step keeps `Linked`.
* `linkNames_linked`: a run that succeeds has linked the whole dataset.
* `link_eq_of_linkNames`, `link_eq_ok_iff`: the stages of a run, and of one that succeeds.
-/
namespace TypedTables

namespace Draft

theorem target?_of_isEnumerated {d : Draft} (h : d.format.isEnumerated) : d.target? = none := by
  unfold Draft.format at h
  unfold target?
  split
  · next target columns hc => rw [hc] at h; cases h
  · rfl

/-- The row names of the table are entities. -/
def isEnumerated (d : Draft) : Bool := d.format.isEnumerated

theorem isMod_iff {d : Draft} : d.isMod = true ↔ ∃ target, d.target? = some target := by
  unfold isMod Draft.format target?
  cases d.content with
  | grid g => simp
  | records kind columns => cases kind <;> simp [RecordKind.format]

theorem target?_eq_none {d : Draft} (h : d.isMod = false) : d.target? = none := by
  refine Option.eq_none_iff_forall_not_mem.2 fun t ht => ?_
  rw [isMod_iff.2 ⟨t, ht⟩] at h
  cases h

theorem content_of_grid? {d : Draft} {g : Grid} (h : d.grid? = some g) : d.content = .grid g := by
  unfold grid? at h
  split at h
  · cases h
  · next hc =>
    cases h
    exact hc

theorem isMod_of_isEnumerated {d : Draft} (h : d.format.isEnumerated) : d.isMod = false := by
  rw [← Bool.not_eq_true, isMod_iff, target?_of_isEnumerated h]
  simp

end Draft

/-- The name belongs to the owner: a predefined member to its enumeration, a row name to its
table, and a row name of a mod to the target. -/
inductive Declares (predefined : List (String × OrderedMap String Int)) (tables : List Draft) :
    String → String → Prop
  | member {owner name : String} {members : OrderedMap String Int} :
    (owner, members) ∈ predefined → name ∈ members.keys → Declares predefined tables owner name
  | row {d : Draft} {name : String} :
    d ∈ tables → d.format.isEnumerated → name ∈ d.rowNames → Declares predefined tables d.name name
  | modRow {d : Draft} {target name : String} :
    d ∈ tables → d.target? = some target → name ∈ d.rowNames →
      Declares predefined tables target name

namespace Declares

variable {ps ps' : List (String × OrderedMap String Int)} {ts ts' : List Draft}
  {owner name : String}

theorem mono (hp : ∀ p ∈ ps, p ∈ ps') (ht : ∀ d ∈ ts, d ∈ ts') (h : Declares ps ts owner name) :
    Declares ps' ts' owner name := by
  cases h with
  | member hm hn => exact .member (hp _ hm) hn
  | row hd he hn => exact .row (ht _ hd) he hn
  | modRow hd he hn => exact .modRow (ht _ hd) he hn

theorem append_iff : Declares (ps ++ ps') (ts ++ ts') owner name ↔
    Declares ps ts owner name ∨ Declares ps' ts' owner name := by
  constructor
  · intro h
    cases h with
    | member hm hn =>
      rcases List.mem_append.1 hm with hm | hm
      · exact .inl (.member hm hn)
      · exact .inr (.member hm hn)
    | row hd he hn =>
      rcases List.mem_append.1 hd with hd | hd
      · exact .inl (.row hd he hn)
      · exact .inr (.row hd he hn)
    | modRow hd he hn =>
      rcases List.mem_append.1 hd with hd | hd
      · exact .inl (.modRow hd he hn)
      · exact .inr (.modRow hd he hn)
  · rintro (h | h)
    · exact h.mono (fun _ => List.mem_append_left _) (fun _ => List.mem_append_left _)
    · exact h.mono (fun _ => List.mem_append_right _) (fun _ => List.mem_append_right _)

theorem snoc_iff {d : Draft} : Declares ps (ts ++ [d]) owner name ↔
    Declares ps ts owner name ∨ Declares [] [d] owner name := by
  rw [← append_iff, List.append_nil]

theorem nil_iff : ¬ Declares [] [] owner name := by
  intro h
  cases h with
  | member hm hn => cases hm
  | row hd he hn => cases hd
  | modRow hd he hn => cases hd

theorem predefined_iff {o : String} {members : OrderedMap String Int} :
    Declares [(o, members)] [] owner name ↔ owner = o ∧ name ∈ members.keys := by
  constructor
  · intro h
    cases h with
    | member hm hn => cases List.mem_singleton.1 hm; exact ⟨rfl, hn⟩
    | row hd he hn => cases hd
    | modRow hd he hn => cases hd
  · rintro ⟨rfl, hn⟩
    exact .member List.mem_cons_self hn

theorem table_iff {d : Draft} (he : d.format.isEnumerated) :
    Declares [] [d] owner name ↔ owner = d.name ∧ name ∈ d.rowNames := by
  constructor
  · intro h
    cases h with
    | member hm hn => cases hm
    | row hd _ hn => cases List.mem_singleton.1 hd; exact ⟨rfl, hn⟩
    | modRow hd ht hn =>
      cases List.mem_singleton.1 hd
      rw [Draft.target?_of_isEnumerated he] at ht
      cases ht
  · rintro ⟨rfl, hn⟩
    exact .row List.mem_cons_self he hn

theorem mod_iff {d : Draft} {target : String} (ht : d.target? = some target) :
    Declares [] [d] owner name ↔ owner = target ∧ name ∈ d.rowNames := by
  constructor
  · intro h
    cases h with
    | member hm hn => cases hm
    | row hd he hn =>
      cases List.mem_singleton.1 hd
      rw [Draft.target?_of_isEnumerated he] at ht
      cases ht
    | modRow hd ht' hn =>
      cases List.mem_singleton.1 hd
      rw [ht] at ht'
      cases ht'
      exact ⟨rfl, hn⟩
  · rintro ⟨rfl, hn⟩
    exact .modRow List.mem_cons_self ht hn

end Declares

/-! ## The invariant -/

/-- What a run knows when it has read these predefined enumerations and tables. -/
structure Linked (predefined : List (String × OrderedMap String Int)) (tables : List Draft)
    (n : Names) : Prop where
  coherent : n.Coherent
  owns_iff : ∀ owner name, n.Owns owner name ↔ Declares predefined tables owner name
  /-- predefined enumerations are taken over as they are -/
  member : ∀ p ∈ predefined,
    (∀ m ∈ p.2.toList, 0 ≤ m.2) ∧ n.enumerations.get? p.1 = some (Predefined.enumeration p.2)
  /-- the rows of a table come first in its enumeration -/
  table : ∀ d ∈ tables, d.format.isEnumerated → d.rowNames ≠ [] →
    ∃ e, n.enumerations.get? d.name = some e ∧ e.Inverse ∧ d.rowNames <+: e.names
  /-- nothing else has an enumeration -/
  origin : ∀ o e, n.enumerations.get? o = some e →
    (∃ members, (o, members) ∈ predefined) ∨
      ∃ d ∈ tables, d.format.isEnumerated ∧ d.rowNames ≠ [] ∧ d.name = o
  apart : ∀ d ∈ tables, d.format.isEnumerated → ∀ p ∈ predefined, p.1 ≠ d.name
  info_iff : ∀ t i, n.info.get? t = some i ↔
    ∃ d ∈ tables, d.format.isEnumerated ∧ d.name = t ∧ d.info = i
  target : ∀ d ∈ tables, ∀ t, d.target? = some t →
    ∃ b ∈ tables, b.format.isEnumerated ∧ b.rowNames ≠ [] ∧ b.name = t

namespace Linked

variable {ps : List (String × OrderedMap String Int)} {ts : List Draft} {n n' : Names}

theorem empty : Linked [] [] {} where
  coherent := Names.coherent_empty
  owns_iff owner name := iff_of_false (by rintro ⟨row, h⟩; cases h) Declares.nil_iff
  member := by simp
  table := by simp
  origin o e h := by cases h
  apart := by simp
  info_iff t i := iff_of_false (fun h => by cases h) (by simp)
  target := by simp

/-- Who declares a name has an enumeration. -/
theorem owner_of_declares (h : Linked ps ts n) {o name : String} (hd : Declares ps ts o name) :
    ∃ e, n.enumerations.get? o = some e ∧ name ∈ e.rows.keys :=
  h.coherent.owns_iff.1 ((h.owns_iff o name).2 hd)

/-- A name is new if nobody has declared it. -/
theorem fresh_iff (h : Linked ps ts n) {name : String} :
    n.entities.get? name = none ↔ ∀ o, ¬ Declares ps ts o name := by
  simp only [← h.owns_iff]
  constructor
  · rintro hn o ⟨row, hr⟩
    rw [hn] at hr
    cases hr
  · intro hn
    cases hr : n.entities.get? name with
    | none => rfl
    | some x => exact absurd ⟨x.row, hr⟩ (hn x.owner)

/-! ## Steps -/

theorem enumeration_new (h : Linked ps ts n) {o : String} (hp : ∀ p ∈ ps, p.1 ≠ o)
    (ht : ∀ d ∈ ts, d.format.isEnumerated → d.name ≠ o) : n.enumerations.get? o = none := by
  cases he : n.enumerations.get? o with
  | none => rfl
  | some e =>
    rcases h.origin o e he with ⟨members, hm⟩ | ⟨d, hd, hde, -, rfl⟩
    · exact absurd rfl (hp _ hm)
    · exact absurd rfl (ht d hd hde)

theorem addPredefined {owner : String} {members : OrderedMap String Int} (h : Linked ps [] n)
    (new : ∀ p ∈ ps, p.1 ≠ owner) (hn : n.addPredefined owner members = .ok n') :
    Linked (ps ++ [(owner, members)]) [] n' := by
  obtain ⟨hi, fresh, rfl⟩ := Names.addPredefined_eq_ok_iff.1 hn
  have none := h.enumeration_new new (by simp)
  have enumerations : ∀ o, (n.register owner (Predefined.enumeration members)).enumerations.get? o =
      if owner = o then some (Predefined.enumeration members) else n.enumerations.get? o :=
    fun o => OrderedMap.get?_insert _ _ _ _
  exact {
    coherent := h.coherent.register none fresh
    owns_iff := fun o name => by
      rw [Names.owns_register fresh, h.owns_iff]
      show _ ↔ Declares (ps ++ [(owner, members)]) ([] ++ []) o name
      rw [Declares.append_iff, Declares.predefined_iff]
      simp [Predefined.enumeration]
    member := fun p hp => by
      rw [enumerations]
      rcases List.mem_append.1 hp with hp | hp
      · rw [if_neg (Ne.symm (new p hp))]
        exact h.member p hp
      · cases List.mem_singleton.1 hp
        exact ⟨hi, if_pos rfl⟩
    table := by simp
    origin := fun o e he => by
      rw [enumerations] at he
      split at he
      · next ho => exact .inl ⟨members, by simp [ho]⟩
      · rcases h.origin o e he with ⟨m, hm⟩ | ⟨d, hd, -⟩
        · exact .inl ⟨m, List.mem_append_left _ hm⟩
        · cases hd
    apart := by simp
    info_iff := h.info_iff
    target := by simp }

/-- Every predefined enumeration is there, so a name without one is none of theirs. -/
theorem ne_predefined (h : Linked ps ts n) {o : String} (none : n.enumerations.get? o = none) :
    ∀ p ∈ ps, p.1 ≠ o := by
  rintro p hp rfl
  rw [(h.member p hp).2] at none
  cases none

/-! ### A table -/

section Table

variable {d : Draft} (h : Linked ps ts n)
include h

theorem member_withTable (none : n.enumerations.get? d.name = none) : ∀ p ∈ ps,
    (∀ m ∈ p.2.toList, 0 ≤ m.2) ∧
      (n.withTable d).enumerations.get? p.1 = some (Predefined.enumeration p.2) := by
  intro p hp
  rw [n.get?_enumerations_withTable, if_neg fun e => h.ne_predefined none p hp e.1.symm]
  exact h.member p hp

theorem table_withTable (nd : d.rowNames.Nodup)
    (new : ∀ b ∈ ts, b.format.isEnumerated → b.name ≠ d.name) :
    ∀ b ∈ ts ++ [d], b.format.isEnumerated → b.rowNames ≠ [] →
      ∃ e, (n.withTable d).enumerations.get? b.name = some e ∧ e.Inverse ∧
        b.rowNames <+: e.names := by
  intro b hb hbe hbr
  rw [n.get?_enumerations_withTable]
  rcases List.mem_append.1 hb with hb | hb
  · rw [if_neg fun e => new b hb hbe e.1.symm]
    exact h.table b hb hbe hbr
  · cases List.mem_singleton.1 hb
    exact ⟨_, if_pos ⟨rfl, hbr⟩, Draft.enumeration_inverse nd, List.prefix_rfl⟩

theorem origin_withTable (hd : d.format.isEnumerated) :
    ∀ o e, (n.withTable d).enumerations.get? o = some e →
      (∃ members, (o, members) ∈ ps) ∨
        ∃ b ∈ ts ++ [d], b.format.isEnumerated ∧ b.rowNames ≠ [] ∧ b.name = o := by
  intro o e he
  rw [n.get?_enumerations_withTable] at he
  split at he
  · next ho => exact .inr ⟨d, by simp, hd, ho.2, ho.1⟩
  · rcases h.origin o e he with hm | ⟨b, hb, hb'⟩
    · exact .inl hm
    · exact .inr ⟨b, List.mem_append_left _ hb, hb'⟩

theorem apart_withTable (none : n.enumerations.get? d.name = none) :
    ∀ b ∈ ts ++ [d], b.format.isEnumerated → ∀ p ∈ ps, p.1 ≠ b.name := by
  intro b hb hbe
  rcases List.mem_append.1 hb with hb | hb
  · exact h.apart b hb hbe
  · cases List.mem_singleton.1 hb
    exact h.ne_predefined none

theorem info_withTable (hd : d.format.isEnumerated)
    (new : ∀ b ∈ ts, b.format.isEnumerated → b.name ≠ d.name) (t : String) (i : TableInfo) :
    (n.withTable d).info.get? t = some i ↔
      ∃ b ∈ ts ++ [d], b.format.isEnumerated ∧ b.name = t ∧ b.info = i := by
  rw [Names.get?_info_withTable]
  simp only [List.mem_append, List.mem_singleton, or_and_right, exists_or, exists_eq_left]
  split
  · next ht =>
    have old : ¬ ∃ b ∈ ts, b.format.isEnumerated ∧ b.name = t ∧ b.info = i := by
      rintro ⟨b, hb, hbe, hbn, -⟩
      exact new b hb hbe (hbn.trans ht.symm)
    simp [old, hd, ht]
  · next ht =>
    rw [h.info_iff]
    simp [ht]

theorem target_withTable (hd : d.format.isEnumerated) :
    ∀ c ∈ ts ++ [d], ∀ t, c.target? = some t →
      ∃ b ∈ ts ++ [d], b.format.isEnumerated ∧ b.rowNames ≠ [] ∧ b.name = t := by
  intro c hc t ht
  have old : c ∈ ts := by
    refine (List.mem_append.1 hc).resolve_right fun e => ?_
    cases List.mem_singleton.1 e
    rw [Draft.target?_of_isEnumerated hd] at ht
    cases ht
  obtain ⟨b, hb, hb'⟩ := h.target c old t ht
  exact ⟨b, List.mem_append_left _ hb, hb'⟩

end Table

theorem addTable {d : Draft} (h : Linked ps ts n) (hd : d.format.isEnumerated)
    (new : ∀ b ∈ ts, b.format.isEnumerated → b.name ≠ d.name) (hn : n.addTable d = .ok n') :
    Linked ps (ts ++ [d]) n' := by
  obtain ⟨none, nd, fresh, rfl⟩ := Names.addTable_eq_ok_iff.1 hn
  exact {
    coherent := Names.coherent_withTable nd fresh h.coherent none
    owns_iff := fun o name => by
      rw [Names.owns_withTable nd fresh, h.owns_iff, Declares.snoc_iff, Declares.table_iff hd]
    member := h.member_withTable none
    table := h.table_withTable nd new
    origin := h.origin_withTable hd
    apart := h.apart_withTable none
    info_iff := h.info_withTable hd new
    target := h.target_withTable hd }

/-! ### A mod -/

section Mod

variable {d : Draft} {target : String} (ht : d.target? = some target)

include ht in
/-- A mod is not among the tables that have names of their own. -/
theorem mem_snoc_mod {c : Draft} (hc : c.format.isEnumerated) : c ∈ ts ++ [d] ↔ c ∈ ts := by
  refine ⟨fun h => (List.mem_append.1 h).resolve_right fun e => ?_, List.mem_append_left _⟩
  cases List.mem_singleton.1 e
  rw [Draft.target?_of_isEnumerated hc] at ht
  cases ht

variable {i : TableInfo} {e e' : Enumeration} (h : Linked ps ts n)
  (hi : n.info.get? target = some i) (he : n.enumerations.get? target = some e)
include h

include hi in
theorem target_ne_predefined : ∀ p ∈ ps, target ≠ p.1 := by
  intro p hp hpt
  obtain ⟨b, hb, hbe, hbn, -⟩ := (h.info_iff target i).1 hi
  exact h.apart b hb hbe p hp (hpt.symm.trans hbn.symm)

include hi he in
/-- The target is no predefined enumeration, so its enumeration is that of a table. -/
theorem exists_mod_target :
    ∃ b ∈ ts, b.format.isEnumerated ∧ b.rowNames ≠ [] ∧ b.name = target := by
  rcases h.origin target e he with ⟨members, hm⟩ | hb
  · exact absurd rfl (h.target_ne_predefined hi _ hm)
  · exact hb

include ht hi he in
theorem target_extended : ∀ c ∈ ts ++ [d], ∀ t, c.target? = some t →
    ∃ b ∈ ts ++ [d], b.format.isEnumerated ∧ b.rowNames ≠ [] ∧ b.name = t := by
  intro c hc t hct
  have old : ∃ b ∈ ts, b.format.isEnumerated ∧ b.rowNames ≠ [] ∧ b.name = t := by
    rcases List.mem_append.1 hc with hc | hc
    · exact h.target c hc t hct
    · cases List.mem_singleton.1 hc
      rw [ht] at hct
      cases hct
      exact h.exists_mod_target hi he
  obtain ⟨b, hb, hb'⟩ := old
  exact ⟨b, List.mem_append_left _ hb, hb'⟩

variable (x : Names.Extension target d.rowNames n e n' e')
include x

include ht he in
theorem owns_extended (o name : String) :
    { n' with enumerations := n'.enumerations.insert target e' }.Owns o name ↔
      Declares ps (ts ++ [d]) o name := by
  have coherent := x.coherent (h.coherent.insert_self he)
  rw [Declares.snoc_iff, Declares.mod_iff ht, ← h.owns_iff, coherent.owns_iff, h.coherent.owns_iff,
    x.get?_insert]
  split
  · next ho =>
    subst ho
    simp [he, x.mem_keys]
  · next ho => simp [Ne.symm ho]

include hi in
theorem member_extended : ∀ p ∈ ps, (∀ m ∈ p.2.toList, 0 ≤ m.2) ∧
    (n'.enumerations.insert target e').get? p.1 = some (Predefined.enumeration p.2) := by
  intro p hp
  rw [x.get?_insert, if_neg (h.target_ne_predefined hi p hp)]
  exact h.member p hp

include ht he in
theorem table_extended : ∀ c ∈ ts ++ [d], c.format.isEnumerated → c.rowNames ≠ [] →
    ∃ e₁, (n'.enumerations.insert target e').get? c.name = some e₁ ∧ e₁.Inverse ∧
      c.rowNames <+: e₁.names := by
  intro c hc hce hcr
  obtain ⟨e₀, he₀, inv, hp⟩ := h.table c ((mem_snoc_mod ht hce).1 hc) hce hcr
  rw [x.get?_insert]
  split
  · next hct =>
    rw [← hct, he] at he₀
    cases he₀
    exact ⟨e', rfl, x.inverse inv, hp.trans x.names_prefix⟩
  · exact ⟨e₀, he₀, inv, hp⟩

include he in
theorem origin_extended : ∀ o e₁, (n'.enumerations.insert target e').get? o = some e₁ →
    (∃ members, (o, members) ∈ ps) ∨
      ∃ c ∈ ts ++ [d], c.format.isEnumerated ∧ c.rowNames ≠ [] ∧ c.name = o := by
  intro o e₁ ho
  have old : ∃ e₀, n.enumerations.get? o = some e₀ := by
    rw [x.get?_insert] at ho
    split at ho
    · next hot => exact ⟨e, hot ▸ he⟩
    · exact ⟨e₁, ho⟩
  obtain ⟨e₀, he₀⟩ := old
  rcases h.origin o e₀ he₀ with hm | ⟨c, hc, hc'⟩
  · exact .inl hm
  · exact .inr ⟨c, List.mem_append_left _ hc, hc'⟩

include ht in
theorem info_extended (t : String) (j : TableInfo) : n'.info.get? t = some j ↔
    ∃ c ∈ ts ++ [d], c.format.isEnumerated ∧ c.name = t ∧ c.info = j := by
  rw [x.info, h.info_iff]
  refine exists_congr fun c => ⟨?_, ?_⟩
  · rintro ⟨hc, hce, hc'⟩
    exact ⟨(mem_snoc_mod ht hce).2 hc, hce, hc'⟩
  · rintro ⟨hc, hce, hc'⟩
    exact ⟨(mem_snoc_mod ht hce).1 hc, hce, hc'⟩

end Mod

theorem addMod {d : Draft} {target : String} {added : Nat} (h : Linked ps ts n)
    (ht : d.target? = some target) (hn : n.addMod d target = .ok (n', added)) :
    Linked ps (ts ++ [d]) n' := by
  obtain ⟨i, e, n₁, e', hi, -, he, hx, rfl, -⟩ := Names.addMod_eq_ok_iff.1 hn
  have x := Names.extend_spec hx
  have info := h.info_extended ht x
  exact {
    coherent := x.coherent (h.coherent.insert_self he)
    owns_iff := h.owns_extended ht he x
    member := h.member_extended hi x
    table := h.table_extended ht he x
    origin := h.origin_extended he x
    apart := fun c hc hce => h.apart c ((mem_snoc_mod ht hce).1 hc) hce
    info_iff := info
    target := h.target_extended ht hi he }

/-- The other tables have no part in the names. -/
theorem congr {ts' : List Draft} (h : Linked ps ts n)
    (he : ∀ d, d.format.isEnumerated → (d ∈ ts ↔ d ∈ ts'))
    (hm : ∀ d target, d.target? = some target → (d ∈ ts ↔ d ∈ ts')) : Linked ps ts' n where
  coherent := h.coherent
  owns_iff owner name := by
    rw [h.owns_iff]
    constructor
    · intro hd
      cases hd with
      | member hp hn => exact .member hp hn
      | row hd hde hn => exact .row ((he _ hde).1 hd) hde hn
      | modRow hd ht hn => exact .modRow ((hm _ _ ht).1 hd) ht hn
    · intro hd
      cases hd with
      | member hp hn => exact .member hp hn
      | row hd hde hn => exact .row ((he _ hde).2 hd) hde hn
      | modRow hd ht hn => exact .modRow ((hm _ _ ht).2 hd) ht hn
  member := h.member
  table d hd hde := h.table d ((he d hde).2 hd) hde
  origin o e ho := by
    rcases h.origin o e ho with hp | ⟨d, hd, hde, hd'⟩
    · exact .inl hp
    · exact .inr ⟨d, (he d hde).1 hd, hde, hd'⟩
  apart d hd hde := h.apart d ((he d hde).2 hd) hde
  info_iff t i := by
    rw [h.info_iff]
    constructor
    · rintro ⟨d, hd, hde, hd'⟩
      exact ⟨d, (he d hde).1 hd, hde, hd'⟩
    · rintro ⟨d, hd, hde, hd'⟩
      exact ⟨d, (he d hde).2 hd, hde, hd'⟩
  target d hd t ht := by
    obtain ⟨b, hb, hbe, hb'⟩ := h.target d ((hm d t ht).2 hd) t ht
    exact ⟨b, (he b hbe).1 hb, hbe, hb'⟩

/-- The enumeration of a table lists its names by their rows. -/
theorem inverse_of_table (h : Linked ps ts n) {b : Draft} (hb : b ∈ ts)
    (hbe : b.format.isEnumerated) {e : Enumeration}
    (he : n.enumerations.get? b.name = some e) : e.Inverse := by
  rcases h.origin b.name e he with ⟨members, hm⟩ | ⟨c, hc, hce, hcr, hcn⟩
  · exact absurd rfl (h.apart b hb hbe _ hm)
  · obtain ⟨e', he', inv, -⟩ := h.table c hc hce hcr
    rw [hcn, he] at he'
    cases he'
    exact inv

end Linked

/-! ## Runs -/

theorem checkTableNames_eq_ok_iff {seen : List String} {l : List Draft} :
    checkTableNames seen l = .ok () ↔ (l.map Draft.name).Nodup ∧ ∀ d ∈ l, d.name ∉ seen := by
  induction l generalizing seen with
  | nil => simp [checkTableNames]
  | cons d l ih =>
    unfold checkTableNames
    split
    · next hd => simp [hd]
    · next hd =>
      rw [ih, List.map_cons, List.nodup_cons]
      constructor
      · rintro ⟨nd, h⟩
        refine ⟨⟨fun hm => ?_, nd⟩, fun b hb => ?_⟩
        · obtain ⟨b, hb, hbn⟩ := List.mem_map.1 hm
          exact h b hb (by simp [hbn])
        · rcases List.mem_cons.1 hb with rfl | hb
          · exact hd
          · exact fun hs => h b hb (List.mem_cons_of_mem _ hs)
      · rintro ⟨⟨hn, nd⟩, h⟩
        refine ⟨nd, fun b hb hs => ?_⟩
        rcases List.mem_cons.1 hs with hbn | hs
        · exact hn (List.mem_map.2 ⟨b, hb, hbn⟩)
        · exact h b (List.mem_cons_of_mem _ hb) hs

/-- The tables with the mods last. -/
def modsLast (tables : List Draft) : List Draft :=
  tables.filter (!·.isMod) ++ tables.filter Draft.isMod

theorem mem_modsLast {tables : List Draft} {d : Draft} : d ∈ modsLast tables ↔ d ∈ tables := by
  unfold modsLast
  cases h : d.isMod <;> simp [h]

/-- The names of the enumerated tables differ, as those of all tables but mods do. -/
theorem nodup_enumerated {tables : List Draft}
    (nd : ((tables.filter (!·.isMod)).map Draft.name).Nodup) :
    (([] ++ (modsLast tables).filter Draft.isEnumerated).map Draft.name).Nodup := by
  have mods : (tables.filter Draft.isMod).filter Draft.isEnumerated = [] := by
    rw [List.filter_eq_nil_iff]
    intro d hd he
    rw [List.mem_filter, Draft.isMod_of_isEnumerated he] at hd
    exact Bool.false_ne_true hd.2
  rw [List.nil_append, modsLast, List.filter_append, mods, List.append_nil]
  exact nd.sublist (List.filter_sublist.map _)

theorem orderTables_eq_ok_iff {tables ordered : List Draft} :
    orderTables tables = .ok ordered ↔
      ((tables.filter (!·.isMod)).map Draft.name).Nodup ∧ ordered = modsLast tables := by
  unfold orderTables
  simp only [bind_eq_ok]
  constructor
  · rintro ⟨⟨⟩, hc, h⟩
    cases h
    exact ⟨(checkTableNames_eq_ok_iff.1 hc).1, rfl⟩
  · rintro ⟨nd, rfl⟩
    exact ⟨(), checkTableNames_eq_ok_iff.2 ⟨nd, by simp⟩, rfl⟩

section Runs

variable {ps : List (String × OrderedMap String Int)} {ts : List Draft} {n n' : Names}

theorem Names.addAllPredefined_linked {rest : List (String × OrderedMap String Int)}
    (h : Linked ps [] n) (nd : ((ps ++ rest).map Prod.fst).Nodup)
    (hn : n.addAllPredefined rest = .ok n') : Linked (ps ++ rest) [] n' := by
  induction rest generalizing ps n with
  | nil =>
    cases hn
    rwa [List.append_nil]
  | cons p rest ih =>
    obtain ⟨n₁, h₁, hn⟩ := bind_eq_ok.1 hn
    have new : ∀ q ∈ ps, q.1 ≠ p.1 := by
      rw [List.map_append, List.nodup_append] at nd
      exact fun q hq => nd.2.2 _ (List.mem_map_of_mem hq) _ (by simp)
    rw [List.append_cons] at nd ⊢
    exact ih (h.addPredefined new h₁) nd hn

theorem Names.addTables_linked {rest : List Draft} (h : Linked ps ts n)
    (nd : ((ts ++ rest.filter Draft.isEnumerated).map Draft.name).Nodup)
    (hn : n.addTables rest = .ok n') :
    Linked ps (ts ++ rest.filter Draft.isEnumerated) n' := by
  induction rest generalizing ts n with
  | nil =>
    cases hn
    rwa [List.filter_nil, List.append_nil]
  | cons d rest ih =>
    unfold addTables at hn
    split at hn
    · next hd =>
      obtain ⟨n₁, h₁, hn⟩ := bind_eq_ok.1 hn
      rw [List.filter_cons_of_pos (show d.isEnumerated from hd)] at nd ⊢
      have new : ∀ b ∈ ts, b.format.isEnumerated → b.name ≠ d.name := by
        rw [List.map_append, List.nodup_append] at nd
        exact fun b hb _ => nd.2.2 _ (List.mem_map_of_mem hb) _ (by simp)
      rw [List.append_cons] at nd ⊢
      exact ih (h.addTable hd new h₁) nd hn
    · next hd =>
      rw [List.filter_cons_of_neg (show ¬ d.isEnumerated from hd)] at nd ⊢
      exact ih h nd hn

/-- Notices apart, the mods are added one after the other. -/
theorem Names.result_addMods_cons {d : Draft} {target : String} (ht : d.target? = some target)
    (n : Names) (rest : List Draft) :
    (n.addMods (d :: rest)).result = n.addMod d target >>= fun p => (p.1.addMods rest).result := by
  rw [addMods, ht]
  simp only [Logged.result_bind, Logged.result_ofExcept]
  congr 1
  funext p
  split
  · rw [Logged.result_bind, Logged.result_tell]
    rfl
  · rfl

theorem Names.addMods_linked {rest : List Draft} (h : Linked ps ts n)
    (hn : (n.addMods rest).result = .ok n') : Linked ps (ts ++ rest.filter Draft.isMod) n' := by
  induction rest generalizing ts n with
  | nil =>
    cases hn
    rwa [List.filter_nil, List.append_nil]
  | cons d rest ih =>
    cases ht : d.target? with
    | none =>
      have hd : ¬ d.isMod := by simp [Draft.isMod_iff, ht]
      unfold addMods at hn
      rw [ht] at hn
      rw [List.filter_cons_of_neg hd]
      exact ih h hn
    | some target =>
      rw [result_addMods_cons ht, bind_eq_ok] at hn
      obtain ⟨⟨n₁, added⟩, h₁, hn⟩ := hn
      rw [List.filter_cons_of_pos (Draft.isMod_iff.2 ⟨target, ht⟩), List.append_cons]
      exact ih (h.addMod ht h₁) hn

end Runs

/-- **A run that succeeds.** When the names of a dataset are linked, every name is where the
dataset declares it. -/
theorem linkNames_linked {tables : List Draft} {predefined : Predefined} {n : Names}
    (nd : ((tables.filter (!·.isMod)).map Draft.name).Nodup)
    (h : (linkNames (modsLast tables) predefined).result = .ok n) :
    Linked predefined.toList tables n := by
  unfold linkNames at h
  simp only [Logged.result_bind, Logged.result_ofExcept, bind_eq_ok] at h
  obtain ⟨n₁, h₁, n₂, h₂, h₃⟩ := h
  have l₁ := Names.addAllPredefined_linked .empty predefined.nodup_keys h₁
  have l₂ := Names.addTables_linked l₁ (nodup_enumerated nd) h₂
  refine (Names.addMods_linked l₂ h₃).congr (fun d hd => ?_) (fun d target ht => ?_)
  · have notMod : d.isMod = false := by simp [Draft.isMod_of_isEnumerated hd]
    simp [Draft.isEnumerated, hd, notMod, mem_modsLast]
  · have isMod : d.isMod := Draft.isMod_iff.2 ⟨target, ht⟩
    have notTable : ¬ d.isEnumerated := fun hd => by
      rw [Draft.isMod_of_isEnumerated hd] at isMod
      cases isMod
    simp [isMod, notTable, mem_modsLast]

/-- The stages of a run that succeeds. -/
theorem link_eq_ok_iff {units : Units.Converter} {options : LinkOptions} {tables : List Draft}
    {predefined : Predefined} {s : Store} :
    (link units options tables predefined).result = .ok s ↔
      ((tables.filter (!·.isMod)).map Draft.name).Nodup ∧
      ∃ n a, (linkNames (modsLast tables) predefined).result = .ok n ∧
        (Linking.addTables ⟨units, options, n.entities⟩ n.enumerations { info := n.info }
          (modsLast tables)).result = .ok a ∧
        s = ⟨a.tables, a.info, n.entities, n.enumerations, a.wiki, options.enablePrecisions⟩ := by
  unfold link
  simp only [Logged.result_bind, Logged.result_ofExcept, bind_eq_ok, orderTables_eq_ok_iff]
  constructor
  · rintro ⟨_, ⟨nd, rfl⟩, n, hn, a, ha, ⟨⟩⟩
    exact ⟨nd, n, a, hn, ha, rfl⟩
  · rintro ⟨nd, n, a, hn, ha, rfl⟩
    exact ⟨_, ⟨nd, rfl⟩, n, hn, a, ha, rfl⟩

/-- When the names are linked, a run is the work on the tables. -/
theorem link_eq_of_linkNames {units : Units.Converter} {options : LinkOptions}
    {tables : List Draft} {predefined : Predefined} {n : Names}
    (nd : ((tables.filter (!·.isMod)).map Draft.name).Nodup)
    (hn : (linkNames (modsLast tables) predefined).result = .ok n) :
    (link units options tables predefined).result =
      (fun a => (⟨a.tables, a.info, n.entities, n.enumerations, a.wiki, options.enablePrecisions⟩ :
        Store)) <$> (Linking.addTables ⟨units, options, n.entities⟩ n.enumerations
          { info := n.info } (modsLast tables)).result := by
  unfold link
  simp only [Logged.result_bind, Logged.result_ofExcept]
  rw [orderTables_eq_ok_iff.2 ⟨nd, rfl⟩]
  show (linkNames (modsLast tables) predefined).result >>= _ = _
  rw [hn]
  show (Linking.addTables _ _ _ _).result >>= _ = _
  cases (Linking.addTables ⟨units, options, n.entities⟩ n.enumerations { info := n.info }
    (modsLast tables)).result <;> rfl

end TypedTables
