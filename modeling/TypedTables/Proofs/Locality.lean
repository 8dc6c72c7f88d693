import TypedTables.Proofs.LastWriter
/-!
# One table at a time

Every draft is about one table: a mod about its target, any other draft about itself. The work on a
draft reads and changes what the assembly holds of that table, and titles, which nobody reads. So a
run over a dataset is many runs side by side, one for each table, of the drafts about it.

Results:
* `addTable_local`: the work on a draft depends on the table that it is about.
* `addTables_about`: what a run makes of a table, the run of the drafts about it makes.
* `exists_addTables`: a run succeeds if the runs of all tables do.
-/
namespace TypedTables

/-- The table that a draft is about. -/
def Draft.subject (d : Draft) : String := d.target?.getD d.name

theorem Draft.subject_of_target {d : Draft} {t : String} (h : d.target? = some t) :
    d.subject = t := by
  rw [subject, h]
  rfl

theorem Draft.subject_of_notMod {d : Draft} (h : d.isMod = false) : d.subject = d.name := by
  rw [subject, target?_eq_none h]
  rfl

/-- The drafts about a table, in order. -/
def about (tables : List Draft) (t : String) : List Draft := tables.filter fun d => d.subject = t

theorem about_cons_of_eq {d : Draft} (rest : List Draft) :
    about (d :: rest) d.subject = d :: about rest d.subject :=
  List.filter_cons_of_pos (by simp)

theorem about_cons_of_ne {d : Draft} {rest : List Draft} {t : String} (h : d.subject ≠ t) :
    about (d :: rest) t = about rest t :=
  List.filter_cons_of_neg (by simpa using h)

theorem about_about (tables : List Draft) (t : String) :
    about (about tables t) t = about tables t := by
  simp [about]

/-- Two assemblies hold the same of a table. -/
structure Assembly.SameAt (t : String) (a b : Assembly) : Prop where
  tables : a.tables.get? t = b.tables.get? t
  info : a.info.get? t = b.info.get? t

namespace Assembly.SameAt

variable {t : String} {a b c : Assembly}

theorem refl (a : Assembly) : SameAt t a a := ⟨rfl, rfl⟩

theorem symm (h : SameAt t a b) : SameAt t b a := ⟨h.tables.symm, h.info.symm⟩

theorem trans (h : SameAt t a b) (h' : SameAt t b c) : SameAt t a c :=
  ⟨h.tables.trans h'.tables, h.info.trans h'.info⟩

end Assembly.SameAt

namespace Linking

variable {l : Linking} {enumerations : OrderedMap String Enumeration} {a a' b : Assembly}
  {d : Draft}

/-! ## Titles -/

/-- Whether titles can be read does not depend on those that are known. -/
theorem addTitle_any {wiki w : OrderedMap String String} {name : String} {raw : Raw}
    (h : l.addTitle d wiki name raw = .ok w) (wiki' : OrderedMap String String) :
    ∃ w', l.addTitle d wiki' name raw = .ok w' := by
  unfold addTitle at h ⊢
  split at h
  · next hb => exact ⟨wiki', if_pos hb⟩
  · next hb =>
    obtain ⟨title, ht, -⟩ := bind_eq_ok.1 h
    exact ⟨_, by rw [if_neg hb, ht]; rfl⟩

theorem addTitles_any {rows : List (String × Raw)} {wiki w : OrderedMap String String}
    (h : l.addTitles d wiki rows = .ok w) (wiki' : OrderedMap String String) :
    ∃ w', l.addTitles d wiki' rows = .ok w' := by
  induction rows generalizing wiki wiki' with
  | nil => exact ⟨wiki', rfl⟩
  | cons p rows ih =>
    obtain ⟨w₁, h₁, h⟩ := bind_eq_ok.1 h
    obtain ⟨w₁', h₁'⟩ := addTitle_any h₁ wiki'
    obtain ⟨w', h'⟩ := ih h w₁'
    exact ⟨w', bind_eq_ok.2 ⟨w₁', h₁', h'⟩⟩

theorem writeRow_any {title : Option Column} {name : String} {row : Nat}
    {cells : List (Column × Raw)} {s s' : Sheet} {wiki w : OrderedMap String String}
    (h : l.writeRow d title name row (s, wiki) cells = .ok (s', w))
    (wiki' : OrderedMap String String) :
    ∃ w', l.writeRow d title name row (s, wiki') cells = .ok (s', w') := by
  induction cells generalizing s wiki wiki' with
  | nil =>
    cases h
    exact ⟨wiki', rfl⟩
  | cons p cells ih =>
    obtain ⟨c, raw⟩ := p
    unfold writeRow at h ⊢
    obtain ⟨s₁, h₁, h⟩ := bind_eq_ok.1 h
    rw [h₁]
    show ∃ w', (if (title.any fun t => t.name == c.name) then _ else _) = _
    dsimp only at h
    split at h
    · next ht =>
      obtain ⟨w₁, hw, h⟩ := bind_eq_ok.1 h
      obtain ⟨w₁', hw'⟩ := addTitle_any hw wiki'
      obtain ⟨w', h'⟩ := ih h w₁'
      exact ⟨w', by rw [if_pos ht]; exact bind_eq_ok.2 ⟨w₁', hw', h'⟩⟩
    · next ht =>
      obtain ⟨w', h'⟩ := ih h wiki'
      exact ⟨w', by rw [if_neg ht]; exact h'⟩

theorem writeRows_any {t : Target} {title : Option Column} {rows : List (String × Nat)}
    {s s' : Sheet} {wiki w : OrderedMap String String}
    (h : l.writeRows d t title (s, wiki) rows = .ok (s', w)) (wiki' : OrderedMap String String) :
    ∃ w', l.writeRows d t title (s, wiki') rows = .ok (s', w') := by
  induction rows generalizing s wiki wiki' with
  | nil =>
    cases h
    exact ⟨wiki', rfl⟩
  | cons p rows ih =>
    obtain ⟨row, hrow, h⟩ := bind_eq_ok.1 h
    obtain ⟨cells, hcells, h⟩ := bind_eq_ok.1 h
    obtain ⟨⟨s₁, w₁⟩, h₁, h⟩ := bind_eq_ok.1 h
    obtain ⟨w₁', h₁'⟩ := writeRow_any h₁ wiki'
    obtain ⟨w', h'⟩ := ih h w₁'
    exact ⟨w', bind_eq_ok.2 ⟨row, hrow, bind_eq_ok.2 ⟨cells, hcells,
      bind_eq_ok.2 ⟨_, h₁', h'⟩⟩⟩⟩

theorem modify_any {t : Target} {s s' : Sheet} {wiki w : OrderedMap String String}
    (h : l.modify d t s wiki = .ok (s', w)) (wiki' : OrderedMap String String) :
    ∃ w', l.modify d t s wiki' = .ok (s', w') := by
  obtain ⟨s₁, h₁, h⟩ := bind_eq_ok.1 h
  obtain ⟨title, ht, h⟩ := bind_eq_ok.1 h
  obtain ⟨w', h'⟩ := writeRows_any h wiki'
  exact ⟨w', bind_eq_ok.2 ⟨s₁, h₁, bind_eq_ok.2 ⟨title, ht, h'⟩⟩⟩

/-! ## One draft -/

theorem addSheet_any {n : Nat} (h : l.addSheet a d = .ok (a', n)) (b : Assembly) :
    ∃ b', l.addSheet b d = .ok (b', n) := by
  unfold addSheet at h ⊢
  obtain ⟨s, hs, h⟩ := bind_eq_ok.1 h
  rw [hs]
  show ∃ b', (if d.isNamed then _ else _) = _
  dsimp only at h
  split at h
  · next hn =>
    rw [if_pos hn]
    obtain ⟨column, hc, h⟩ := bind_eq_ok.1 h
    cases column with
    | none =>
      cases h
      exact ⟨_, bind_eq_ok.2 ⟨none, hc, rfl⟩⟩
    | some c =>
      obtain ⟨named, hz, h⟩ := bind_eq_ok.1 h
      obtain ⟨wiki, hw, h⟩ := bind_eq_ok.1 h
      cases h
      obtain ⟨wiki', hw'⟩ := addTitles_any hw b.wiki
      exact ⟨_, bind_eq_ok.2 ⟨some c, hc, bind_eq_ok.2 ⟨named, hz,
        bind_eq_ok.2 ⟨wiki', hw', rfl⟩⟩⟩⟩
  · next hn =>
    rw [if_neg hn]
    cases h
    exact ⟨_, rfl⟩

theorem addWikiLookup_any (h : l.addWikiLookup a d = .ok a') (b : Assembly) :
    ∃ b', l.addWikiLookup b d = .ok b' := by
  unfold addWikiLookup at h ⊢
  dsimp only at h ⊢
  split at h
  · next he => exact ⟨_, if_pos he⟩
  · next he =>
    rw [if_neg he]
    obtain ⟨column, hc, h⟩ := bind_eq_ok.1 h
    cases column with
    | none => cases h
    | some c =>
      obtain ⟨named, hz, h⟩ := bind_eq_ok.1 h
      obtain ⟨wiki, hw, -⟩ := bind_eq_ok.1 h
      obtain ⟨wiki', hw'⟩ := addTitles_any hw b.wiki
      exact ⟨_, bind_eq_ok.2 ⟨some c, hc, bind_eq_ok.2 ⟨named, hz,
        bind_eq_ok.2 ⟨wiki', hw', rfl⟩⟩⟩⟩

theorem addMod_any {target : String} (h : l.addMod enumerations a d target = .ok a')
    (same : a.SameAt target b) : ∃ b', l.addMod enumerations b d target = .ok b' := by
  unfold addMod at h ⊢
  rw [same.tables, same.info] at h
  obtain ⟨e, he, h⟩ := bind_eq_ok.1 h
  obtain ⟨info, hi, h⟩ := bind_eq_ok.1 h
  rw [he, hi]
  show ∃ b', (if info.format = .enumeration then _ else _) = _
  dsimp only at h
  split at h
  · next hf =>
    rw [if_pos hf]
    split at h
    · cases h
    · next hc => exact ⟨_, if_neg hc⟩
  · next hf =>
    rw [if_neg hf]
    cases hs : b.tables.get? target with
    | none => rw [hs] at h; cases h
    | some contents =>
      rw [hs] at h
      cases contents with
      | grid g => cases h
      | sheet s =>
        obtain ⟨n, hn, h⟩ := bind_eq_ok.1 h
        obtain ⟨⟨s', w⟩, hm, -⟩ := bind_eq_ok.1 h
        obtain ⟨w', hm'⟩ := modify_any hm b.wiki
        exact ⟨_, bind_eq_ok.2 ⟨n, hn, bind_eq_ok.2 ⟨_, hm', rfl⟩⟩⟩

theorem addGrid_same {b' : Assembly} {g : Grid} {v v' : ValueGrid}
    (ha : l.addGrid enumerations a d g = .ok (a', v))
    (hb : l.addGrid enumerations b d g = .ok (b', v')) : a'.SameAt d.name b' := by
  obtain ⟨values, hv, ha⟩ := bind_eq_ok.1 ha
  obtain ⟨values', hv', hb⟩ := bind_eq_ok.1 hb
  rw [hv] at hv'
  cases hv'
  cases ha
  cases hb
  constructor <;> simp only [OrderedMap.get?_insert, if_true]

theorem addSheet_same {b' : Assembly} {n n' : Nat} (ha : l.addSheet a d = .ok (a', n))
    (hb : l.addSheet b d = .ok (b', n')) : a'.SameAt d.name b' := by
  obtain ⟨s, hs, tables, info⟩ := addSheet_eq_ok ha
  obtain ⟨s', hs', tables', info'⟩ := addSheet_eq_ok hb
  rw [hs] at hs'
  cases hs'
  constructor <;> simp only [tables, info, tables', info', OrderedMap.get?_insert, if_true]

theorem addWikiLookup_same {b' : Assembly} (same : a.SameAt d.name b)
    (ha : l.addWikiLookup a d = .ok a') (hb : l.addWikiLookup b d = .ok b') :
    a'.SameAt d.name b' := by
  obtain ⟨tables, info⟩ := addWikiLookup_eq_ok ha
  obtain ⟨tables', info'⟩ := addWikiLookup_eq_ok hb
  refine ⟨by rw [tables, tables', same.tables], ?_⟩
  simp only [info, info', OrderedMap.get?_insert, if_true]

theorem addMod_same {b' : Assembly} {target : String} (same : a.SameAt target b)
    (ha : l.addMod enumerations a d target = .ok a')
    (hb : l.addMod enumerations b d target = .ok b') : a'.SameAt target b' := by
  obtain ⟨e, i, he, hi, info, ha⟩ := addMod_eq_ok ha
  obtain ⟨e', i', he', hi', info', hb⟩ := addMod_eq_ok hb
  rw [he] at he'
  rw [← same.info, hi] at hi'
  cases he'
  cases hi'
  constructor
  · rcases ha with ⟨hf, tables⟩ | ⟨hf, s, n, s₁, w, hs, hn, hm, tables⟩
    · rcases hb with ⟨-, tables'⟩ | ⟨hf', -⟩
      · rw [tables, tables', same.tables]
      · exact absurd hf hf'
    · rcases hb with ⟨hf', -⟩ | ⟨-, s', n', s₁', w', hs', hn', hm', tables'⟩
      · exact absurd hf' hf
      · rw [← same.tables, hs] at hs'
        rw [hn] at hn'
        cases hs'
        cases hn'
        obtain ⟨w₂, hm₂⟩ := modify_any hm b.wiki
        rw [hm₂] at hm'
        cases hm'
        rw [tables, tables', OrderedMap.get?_insert, OrderedMap.get?_insert, if_pos rfl,
          if_pos rfl]
  · rw [info, info', OrderedMap.get?_insert, OrderedMap.get?_insert, if_pos rfl, if_pos rfl]

/-- What the work on a draft makes of its subject. -/
theorem addTable_same (same : a.SameAt d.subject b) {b' : Assembly}
    (ha : (l.addTable enumerations a d).result = .ok a')
    (hb : (l.addTable enumerations b d).result = .ok b') : a'.SameAt d.subject b' := by
  have ha := addTable_eq_ok ha
  have hb := addTable_eq_ok hb
  cases hc : d.content with
  | grid g =>
    rw [hc] at ha hb
    obtain ⟨v, ha⟩ := ha
    obtain ⟨v', hb⟩ := hb
    rw [show d.subject = d.name by simp [Draft.subject, Draft.target?, hc]]
    exact addGrid_same ha hb
  | records kind columns =>
    rw [hc] at ha hb
    cases kind with
    | entities | anonymous =>
      obtain ⟨n, ha⟩ := ha
      obtain ⟨n', hb⟩ := hb
      rw [show d.subject = d.name by simp [Draft.subject, Draft.target?, hc]]
      exact addSheet_same ha hb
    | wikiLookup =>
      rw [show d.subject = d.name by simp [Draft.subject, Draft.target?, hc]] at same ⊢
      exact addWikiLookup_same same ha hb
    | enumeration =>
      rw [ha, hb]
      exact same
    | mod target =>
      rw [show d.subject = target by simp [Draft.subject, Draft.target?, hc]] at same ⊢
      exact addMod_same same ha hb

/-- **Locality.** The work on a draft depends on what the assembly holds of its subject. -/
theorem addTable_local (same : a.SameAt d.subject b)
    (h : (l.addTable enumerations a d).result = .ok a') :
    ∃ b', (l.addTable enumerations b d).result = .ok b' ∧ a'.SameAt d.subject b' := by
  have ok : ∃ b', (l.addTable enumerations b d).result = .ok b' := by
    have h := addTable_eq_ok h
    rw [result_addTable]
    cases hc : d.content with
    | grid g =>
      rw [hc] at h
      obtain ⟨v, h⟩ := h
      obtain ⟨values, hv, -⟩ := bind_eq_ok.1 h
      exact ⟨_, map_eq_ok.2 ⟨_, bind_eq_ok.2 ⟨values, hv, rfl⟩, rfl⟩⟩
    | records kind columns =>
      rw [hc] at h
      cases kind with
      | entities | anonymous =>
        obtain ⟨n, h⟩ := h
        obtain ⟨b', hb⟩ := addSheet_any h b
        exact ⟨b', map_eq_ok.2 ⟨_, hb, rfl⟩⟩
      | wikiLookup => exact addWikiLookup_any h b
      | enumeration => exact ⟨b, rfl⟩
      | mod target =>
        have subject : d.subject = target := by simp [Draft.subject, Draft.target?, hc]
        exact addMod_any h (subject ▸ same)
  obtain ⟨b', hb⟩ := ok
  exact ⟨b', hb, addTable_same same h hb⟩

/-! ## A run -/

/-- The run of the drafts about a table makes of it what the whole run does. -/
theorem addTables_about {tables : List Draft} {t : String} (same : a.SameAt t b)
    (h : (l.addTables enumerations a tables).result = .ok a') :
    ∃ b', (l.addTables enumerations b (about tables t)).result = .ok b' ∧ a'.SameAt t b' := by
  induction tables generalizing a b with
  | nil =>
    cases h
    exact ⟨b, rfl, same⟩
  | cons d rest ih =>
    obtain ⟨a₁, h₁, h⟩ := addTables_cons_eq_ok.1 h
    by_cases hd : d.subject = t
    · subst hd
      obtain ⟨b₁, hb₁, same₁⟩ := addTable_local same h₁
      obtain ⟨b', hb', same'⟩ := ih same₁ h
      rw [about_cons_of_eq]
      exact ⟨b', addTables_cons_eq_ok.2 ⟨b₁, hb₁, hb'⟩, same'⟩
    · obtain ⟨tables, info⟩ := addTable_frame h₁ hd
      rw [about_cons_of_ne hd]
      exact ih ⟨tables.trans same.tables, info.trans same.info⟩ h

/-- A run succeeds if the run of the drafts about each table does. -/
theorem exists_addTables {tables : List Draft}
    (h : ∀ t, ∃ a', (l.addTables enumerations a (about tables t)).result = .ok a') :
    ∃ a', (l.addTables enumerations a tables).result = .ok a' := by
  induction tables generalizing a with
  | nil => exact ⟨a, rfl⟩
  | cons d rest ih =>
    obtain ⟨a₂, h₂⟩ := h d.subject
    rw [about_cons_of_eq] at h₂
    obtain ⟨a₁, h₁, h₂⟩ := addTables_cons_eq_ok.1 h₂
    have later : ∀ t, ∃ a', (l.addTables enumerations a₁ (about rest t)).result = .ok a' := by
      intro t
      by_cases hd : d.subject = t
      · exact ⟨a₂, hd ▸ h₂⟩
      · obtain ⟨a', h'⟩ := h t
        rw [about_cons_of_ne hd] at h'
        obtain ⟨tables, info⟩ := addTable_frame h₁ hd
        obtain ⟨b', hb', -⟩ := addTables_about (b := a₁) (t := t) ⟨tables.symm, info.symm⟩ h'
        rw [about_about] at hb'
        exact ⟨b', hb'⟩
    obtain ⟨a', h'⟩ := ih later
    exact ⟨a', addTables_cons_eq_ok.2 ⟨a₁, h₁, h'⟩⟩

end Linking

/-! ## Ordered tables -/

/-- The drafts about a table come in this order: the table itself, then its mods. -/
theorem about_modsLast (tables : List Draft) (t : String) :
    about (modsLast tables) t =
      (tables.filter (!·.isMod)).filter (fun d => d.name = t) ++ modsOf tables t := by
  rw [about, modsLast, List.filter_append]
  congr 1
  · refine List.filter_congr fun d hd => ?_
    rw [Draft.subject_of_notMod (by simpa using (List.mem_filter.1 hd).2)]
  · rw [← modsOf_filter_isMod]
    refine List.filter_congr fun d hd => ?_
    obtain ⟨target, ht⟩ := Draft.isMod_iff.1 (List.mem_filter.1 hd).2
    simp [Draft.subject_of_target ht, ht]

/-- The drafts about a table that is no mod. -/
theorem about_modsLast_of_mem {tables : List Draft} {d : Draft}
    (nd : ((tables.filter (!·.isMod)).map Draft.name).Nodup) (hd : d ∈ tables)
    (hm : d.isMod = false) : about (modsLast tables) d.name = d :: modsOf tables d.name := by
  rw [about_modsLast]
  have mem : d ∈ tables.filter (!·.isMod) := by simp [hd, hm]
  obtain ⟨pre, post, split⟩ := List.append_of_mem mem
  rw [split] at nd ⊢
  rw [List.map_append, List.map_cons, List.nodup_append, List.nodup_cons] at nd
  have before : pre.filter (fun b => b.name = d.name) = [] := by
    rw [List.filter_eq_nil_iff]
    intro b hb hn
    exact nd.2.2 _ (List.mem_map_of_mem hb) _ List.mem_cons_self (by simpa using hn)
  have after : post.filter (fun b => b.name = d.name) = [] := by
    rw [List.filter_eq_nil_iff]
    intro b hb hn
    exact nd.2.1.1 (List.mem_map.2 ⟨b, hb, by simpa using hn⟩)
  rw [List.filter_append, before, List.filter_cons_of_pos (by simp), after]
  rfl

end TypedTables
