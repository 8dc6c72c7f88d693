import TypedTables.Proofs.Linked
import TypedTables.Proofs.SoundDraft
/-!
# When names can be linked

The check that a name has one owner is made name by name, in several passes, and a name that a
mod repeats is not looked at. `Linkable` says of a whole dataset, without any order, what the
passes come to.

Results:
* `Linkable.of_linked`: what a run that succeeds has found out.
* `exists_addAllPredefined`, `exists_addTables`, `exists_addMods`: no pass refuses a linkable
  dataset.
* `linkAll_iff_linkable`: the names of a dataset can be linked just if it is linkable.
-/
namespace TypedTables

/-- The stages of a run that link the names. -/
def linkAll (tables : List Draft) (predefined : Predefined) : Logged LinkError Names := do
  let ordered ← Logged.ofExcept (orderTables tables)
  linkNames ordered predefined

/-- The tables and the predefined enumerations make a dataset. -/
structure Linkable (tables : List Draft) (predefined : Predefined) : Prop where
  names : ((tables.filter (!·.isMod)).map Draft.name).Nodup
  indexes : ∀ p ∈ predefined.toList, ∀ m ∈ p.2.toList, 0 ≤ m.2
  apart : ∀ d ∈ tables, d.format.isEnumerated → d.name ∉ predefined.keys
  targets : ∀ d ∈ tables, ∀ t, d.target? = some t →
    ∃ b ∈ tables, b.format.isEnumerated ∧ b.rowNames ≠ [] ∧ b.name = t
  /-- a name has one owner -/
  owners : ∀ o o' name, Declares predefined.toList tables o name →
    Declares predefined.toList tables o' name → o = o'

theorem linkAll_eq_ok_iff {tables : List Draft} {predefined : Predefined} {n : Names} :
    (linkAll tables predefined).result = .ok n ↔
      ((tables.filter (!·.isMod)).map Draft.name).Nodup ∧
      (linkNames (modsLast tables) predefined).result = .ok n := by
  unfold linkAll
  simp only [Logged.result_bind, Logged.result_ofExcept, bind_eq_ok, orderTables_eq_ok_iff]
  constructor
  · rintro ⟨_, ⟨nd, rfl⟩, h⟩
    exact ⟨nd, h⟩
  · rintro ⟨nd, h⟩
    exact ⟨_, ⟨nd, rfl⟩, h⟩

theorem Linkable.of_linked {tables : List Draft} {predefined : Predefined} {n : Names}
    (nd : ((tables.filter (!·.isMod)).map Draft.name).Nodup)
    (h : Linked predefined.toList tables n) : Linkable tables predefined where
  names := nd
  indexes p hp := (h.member p hp).1
  apart d hd hde hk := by
    obtain ⟨members, hm⟩ := (predefined.mem_keys_iff d.name).1 hk
    exact h.apart d hd hde _ ((predefined.get?_eq_some_iff _ _).1 hm) rfl
  targets := h.target
  owners o o' name ho ho' :=
    Names.owns_unique ((h.owns_iff o name).2 ho) ((h.owns_iff o' name).2 ho')

/-! ## Progress -/

section Progress

variable {tables : List Draft} {predefined : Predefined} (l : Linkable tables predefined)
  {ps : List (String × OrderedMap String Int)} {ts : List Draft} {n : Names}

include l in
/-- A name of a linkable dataset that is registered already is that of the same owner. -/
theorem Linked.fresh_or_declares (h : Linked ps ts n) (hp : ∀ p ∈ ps, p ∈ predefined.toList)
    (ht : ∀ d ∈ ts, d ∈ tables) {owner name : String}
    (hd : Declares predefined.toList tables owner name) :
    n.entities.get? name = none ∨ Declares ps ts owner name := by
  rw [h.fresh_iff]
  by_cases hn : ∃ o, Declares ps ts o name
  · obtain ⟨o, ho⟩ := hn
    cases l.owners o owner name (ho.mono hp ht) hd
    exact .inr ho
  · exact .inl fun o ho => hn ⟨o, ho⟩

include l in
theorem Linked.fresh_of_new (h : Linked ps ts n) (hp : ∀ p ∈ ps, p ∈ predefined.toList)
    (ht : ∀ d ∈ ts, d ∈ tables) {owner : String} (new : n.enumerations.get? owner = none)
    {name : String} (hd : Declares predefined.toList tables owner name) :
    n.entities.get? name = none := by
  refine (h.fresh_or_declares l hp ht hd).resolve_right fun ho => ?_
  obtain ⟨e, he, -⟩ := h.owner_of_declares ho
  rw [new] at he
  cases he

include l in
theorem Names.exists_addAllPredefined {rest : List (String × OrderedMap String Int)}
    (h : Linked ps [] n) (hp : predefined.toList = ps ++ rest) :
    ∃ n', n.addAllPredefined rest = .ok n' := by
  induction rest generalizing ps n with
  | nil => exact ⟨n, rfl⟩
  | cons p rest ih =>
    obtain ⟨owner, members⟩ := p
    have hm : (owner, members) ∈ predefined.toList := by simp [hp]
    have nd : ((ps ++ (owner, members) :: rest).map Prod.fst).Nodup := hp ▸ predefined.nodup_keys
    have new : ∀ q ∈ ps, q.1 ≠ owner := by
      rw [List.map_append, List.nodup_append] at nd
      exact fun q hq => nd.2.2 _ (List.mem_map_of_mem hq) _ (by simp)
    have fresh : ∀ q ∈ (Predefined.enumeration members).rows.toList,
        n.entities.get? q.1 = none := by
      intro q hq
      refine h.fresh_of_new l (by simp +contextual [hp]) (by simp)
        (h.enumeration_new new (by simp)) (.member hm ?_)
      have : q.1 ∈ (Predefined.enumeration members).rows.keys := List.mem_map_of_mem hq
      rwa [Predefined.enumeration, OrderedMap.keys_mapValues] at this
    have h₁ : n.addPredefined owner members = .ok _ :=
      addPredefined_eq_ok_iff.2 ⟨l.indexes _ hm, fresh, rfl⟩
    obtain ⟨n', h'⟩ := ih (h.addPredefined new h₁) (by rw [hp, List.append_cons])
    exact ⟨n', bind_eq_ok.2 ⟨_, h₁, h'⟩⟩

include l in
theorem Names.exists_addTables {rest : List Draft} (parsed : ∀ d ∈ tables, d.Parsed)
    (h : Linked predefined.toList ts n) (ht : ∀ d ∈ ts, d ∈ tables) (hr : ∀ d ∈ rest, d ∈ tables)
    (nd : ((ts ++ rest.filter Draft.isEnumerated).map Draft.name).Nodup) :
    ∃ n', n.addTables rest = .ok n' := by
  induction rest generalizing ts n with
  | nil => exact ⟨n, rfl⟩
  | cons d rest ih =>
    have hd := hr d List.mem_cons_self
    have hr' : ∀ b ∈ rest, b ∈ tables := fun b hb => hr b (List.mem_cons_of_mem _ hb)
    unfold addTables
    split
    · next hde =>
      rw [List.filter_cons_of_pos (show d.isEnumerated from hde)] at nd
      have new : ∀ b ∈ ts, b.format.isEnumerated → b.name ≠ d.name := by
        rw [List.map_append, List.nodup_append] at nd
        exact fun b hb _ => nd.2.2 _ (List.mem_map_of_mem hb) _ (by simp)
      have none := h.enumeration_new (o := d.name) (fun p hp hpd => l.apart d hd hde
        (List.mem_map.2 ⟨p, hp, hpd⟩)) new
      have h₁ := addTable_eq_ok_iff.2 ⟨none, (parsed d hd).sound.rows_nodup,
        fun name hn => h.fresh_of_new l (fun _ => id) ht none (.row hd hde hn), rfl⟩
      rw [List.append_cons] at nd
      obtain ⟨n', h'⟩ := ih (h.addTable hde new h₁)
        (by simpa [or_imp, forall_and] using ⟨ht, hd⟩) hr' nd
      exact ⟨n', bind_eq_ok.2 ⟨_, h₁, h'⟩⟩
    · next hde =>
      rw [List.filter_cons_of_neg (show ¬ d.isEnumerated from hde)] at nd
      exact ih h ht hr' nd

include l in
theorem Names.exists_addMods {rest : List Draft} (h : Linked predefined.toList ts n)
    (ht : ∀ d ∈ ts, d ∈ tables) (hr : ∀ d ∈ rest, d ∈ tables)
    (all : ∀ b ∈ tables, b.format.isEnumerated → b ∈ ts) :
    ∃ n', (n.addMods rest).result = .ok n' := by
  induction rest generalizing ts n with
  | nil => exact ⟨n, rfl⟩
  | cons d rest ih =>
    have hd := hr d List.mem_cons_self
    have hr' : ∀ b ∈ rest, b ∈ tables := fun b hb => hr b (List.mem_cons_of_mem _ hb)
    cases hdt : d.target? with
    | none =>
      unfold addMods
      rw [hdt]
      exact ih h ht hr' all
    | some target =>
      obtain ⟨b, hb, hbe, hbr, rfl⟩ := l.targets d hd target hdt
      obtain ⟨e, he, -, -⟩ := h.table b (all b hb hbe) hbe hbr
      have known : ∀ name ∈ d.rowNames, name ∈ e.rows.keys ∨ n.entities.get? name = none := by
        intro name hn
        rcases h.fresh_or_declares l (fun _ => id) ht (.modRow hd hdt hn) with fresh | ho
        · exact .inr fresh
        · obtain ⟨e', he', hm⟩ := h.owner_of_declares ho
          rw [he] at he'
          cases he'
          exact .inl hm
      obtain ⟨n₁, e', hx⟩ := extend_eq_ok known
      have h₁ := addMod_eq_ok_iff.2 ⟨b.info, e, n₁, e',
        (h.info_iff _ _).2 ⟨b, all b hb hbe, hbe, rfl, rfl⟩, hbe, he, hx, rfl, rfl⟩
      obtain ⟨n', h'⟩ := ih (h.addMod hdt h₁) (by simpa [or_imp, forall_and] using ⟨ht, hd⟩) hr'
        fun c hc hce => List.mem_append_left _ (all c hc hce)
      exact ⟨n', by rw [result_addMods_cons hdt]; exact bind_eq_ok.2 ⟨_, h₁, h'⟩⟩

include l in
/-- No pass refuses a linkable dataset. -/
theorem Linkable.exists_linkAll (parsed : ∀ d ∈ tables, d.Parsed) :
    ∃ n, (linkAll tables predefined).result = .ok n := by
  obtain ⟨n₁, h₁⟩ := Names.exists_addAllPredefined l .empty rfl
  have l₁ := Names.addAllPredefined_linked .empty predefined.nodup_keys h₁
  have mem : ∀ d ∈ modsLast tables, d ∈ tables := fun d => mem_modsLast.1
  have nd := nodup_enumerated l.names
  obtain ⟨n₂, h₂⟩ := Names.exists_addTables l parsed l₁ (by simp) mem nd
  have l₂ := Names.addTables_linked l₁ nd h₂
  obtain ⟨n₃, h₃⟩ := Names.exists_addMods l l₂ (by simp +contextual [mem_modsLast]) mem
    fun b hb hbe => by simp [mem_modsLast, hb, Draft.isEnumerated, hbe]
  refine ⟨n₃, linkAll_eq_ok_iff.2 ⟨l.names, ?_⟩⟩
  unfold linkNames
  simp only [Logged.result_bind, Logged.result_ofExcept, bind_eq_ok]
  exact ⟨n₁, h₁, n₂, h₂, h₃⟩

end Progress

/-! ## Refusals -/

/-- The error is one of names or of the form of a table, and not of a cell. -/
structure LinkError.OfNames (e : LinkError) : Prop where
  kind : e.isEnumeration ∨ e.isSchema
  not_cell : ∀ f, e ≠ .cell f

namespace Names

theorem addEntity_raises (n : Names) (name owner : String) (row : Nat) :
    Raises LinkError.OfNames (n.addEntity name owner row) := by
  unfold addEntity
  split
  · exact .error ⟨.inl rfl, by simp⟩
  · exact .ok _

theorem addEntities_raises (n : Names) (owner : String) (l : List (String × Nat)) :
    Raises LinkError.OfNames (n.addEntities owner l) := by
  induction l generalizing n with
  | nil => exact .ok _
  | cons p l ih => exact .bind (addEntity_raises _ _ _ _) fun n _ => ih n

theorem addMembers_raises (n : Names) (owner : String) (l : List (String × Int)) :
    Raises LinkError.OfNames (n.addMembers owner l) := by
  induction l generalizing n with
  | nil => exact .ok _
  | cons p l ih =>
    unfold addMembers
    dsimp only
    split
    · exact .error ⟨.inl rfl, by simp⟩
    · exact .bind (addEntity_raises _ _ _ _) fun n _ => ih n

theorem addAllPredefined_raises (n : Names) (l : List (String × OrderedMap String Int)) :
    Raises LinkError.OfNames (n.addAllPredefined l) := by
  induction l generalizing n with
  | nil => exact .ok _
  | cons p l ih =>
    exact .bind (.bind (addMembers_raises _ _ _) fun _ _ => .ok _) fun n _ => ih n

theorem addTable_raises (n : Names) (d : Draft) : Raises LinkError.OfNames (n.addTable d) := by
  unfold addTable
  dsimp only
  split
  · exact .error ⟨.inl rfl, by simp⟩
  · split
    · exact .ok _
    · exact .bind (addEntities_raises _ _ _) fun _ _ => .ok _

theorem addTables_raises (n : Names) (l : List Draft) : Raises LinkError.OfNames (n.addTables l) := by
  induction l generalizing n with
  | nil => exact .ok _
  | cons d l ih =>
    unfold addTables
    split
    · exact .bind (addTable_raises _ _) fun n _ => ih n
    · exact ih n

theorem extend_raises (n : Names) (owner : String) (e : Enumeration) (l : List String) :
    Raises LinkError.OfNames (n.extend owner e l) := by
  induction l generalizing n e with
  | nil => exact .ok _
  | cons name l ih =>
    unfold extend
    split
    · exact ih n e
    · exact .bind (addEntity_raises _ _ _ _) fun n _ => ih n _

theorem addMod_raises (n : Names) (d : Draft) (target : String) :
    Raises LinkError.OfNames (n.addMod d target) := by
  unfold addMod
  dsimp only
  split
  · exact .error ⟨.inr rfl, by simp⟩
  · cases n.enumerations.get? target with
    | none => exact .error ⟨.inr rfl, by simp⟩
    | some e => exact .bind (extend_raises _ _ _ _) fun _ _ => .ok _

theorem addMods_raises (n : Names) (l : List Draft) :
    Raises LinkError.OfNames (n.addMods l).result := by
  induction l generalizing n with
  | nil => exact .ok _
  | cons d l ih =>
    cases hd : d.target? with
    | none =>
      rw [addMods, hd]
      exact ih n
    | some target =>
      rw [result_addMods_cons hd]
      exact .bind (addMod_raises _ _ _) fun p _ => ih p.1

end Names

theorem checkTableNames_raises (seen : List String) (l : List Draft) :
    Raises LinkError.OfNames (checkTableNames seen l) := by
  induction l generalizing seen with
  | nil => exact .ok _
  | cons d l ih =>
    unfold checkTableNames
    split
    · exact .error ⟨.inr rfl, by simp⟩
    · exact ih _

theorem linkAll_raises (tables : List Draft) (predefined : Predefined) :
    Raises LinkError.OfNames (linkAll tables predefined).result := by
  unfold linkAll linkNames
  simp only [Logged.result_bind, Logged.result_ofExcept]
  exact .bind (.bind (checkTableNames_raises _ _) fun _ _ => .ok _) fun _ _ =>
    .bind (Names.addAllPredefined_raises _ _) fun _ _ =>
      .bind (Names.addTables_raises _ _) fun _ _ => Names.addMods_raises _ _

/-- A run fails where the names cannot be linked, and with the same error. -/
theorem link_of_linkAll_error {units : Units.Converter} {options : LinkOptions}
    {tables : List Draft} {predefined : Predefined} {e : LinkError}
    (h : (linkAll tables predefined).result = .error e) :
    (link units options tables predefined).result = .error e := by
  unfold linkAll at h
  unfold link
  simp only [Logged.result_bind, Logged.result_ofExcept] at h ⊢
  rcases bind_eq_error.1 h with h | ⟨ordered, ho, h⟩
  · rw [h]
    rfl
  · rw [ho]
    show ((linkNames ordered predefined).result >>= _) = _
    rw [h]
    rfl

/-- **When names can be linked.** The stages that link the names succeed just on the datasets that
are linkable; on any other the run fails, with an error of names or of the form of a table. Left out
is that a list has a limit: an index of 2^63 or more is one like any other here. -/
theorem linkAll_iff_linkable {tables : List Draft} (parsed : ∀ d ∈ tables, d.Parsed)
    (units : Units.Converter) (options : LinkOptions) (predefined : Predefined) :
    ((∃ n, (linkAll tables predefined).result = .ok n) ↔ Linkable tables predefined) ∧
      (¬ Linkable tables predefined →
        ∃ e, (link units options tables predefined).result = .error e ∧
          (e.isEnumeration ∨ e.isSchema)) := by
  have iff : (∃ n, (linkAll tables predefined).result = .ok n) ↔ Linkable tables predefined := by
    constructor
    · rintro ⟨n, h⟩
      obtain ⟨nd, hn⟩ := linkAll_eq_ok_iff.1 h
      exact .of_linked nd (linkNames_linked nd hn)
    · intro l
      exact l.exists_linkAll parsed
  refine ⟨iff, fun hl => ?_⟩
  cases h : (linkAll tables predefined).result with
  | ok n => exact absurd (iff.1 ⟨n, h⟩) hl
  | error e => exact ⟨e, link_of_linkAll_error h, (linkAll_raises _ _ e h).kind⟩

/-- Two pets and a mod can be linked, but not if one of them is a predefined name too. -/
theorem pets_linkable :
    Linkable Draft.pets ∅ ∧
      ∃ e, (link {} {} Draft.pets (.ofList [("Size", .ofList [("cat", 0)])])).result = .error e ∧
        (e.isEnumeration ∨ e.isSchema) := by
  have parsed : ∀ d ∈ Draft.pets, d.Parsed := fun d => Draft.parsed_of_mem_readAll
  constructor
  · have run : ((linkAll Draft.pets ∅).result.toOption.map fun n => n.entities.keys) =
        some ["cat", "dog", "fox"] := by
      decide +kernel
    obtain ⟨n, h, -⟩ := toOption_map_eq_some.1 run
    exact (linkAll_iff_linkable parsed {} {} _).1.1 ⟨n, h⟩
  · refine (linkAll_iff_linkable parsed {} {} _).2 fun l => ?_
    obtain ⟨n, h⟩ := (linkAll_iff_linkable parsed {} {} _).1.2 l
    have run : (linkAll Draft.pets
        (.ofList [("Size", .ofList [("cat", 0)])])).result.toOption.isNone := by decide +kernel
    rw [h] at run
    cases run

end TypedTables
