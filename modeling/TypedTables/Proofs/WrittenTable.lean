import TypedTables.Proofs.KeptTexts
import TypedTables.Proofs.TableOutcome
/-!
# Written tables

What is written of a table of texts is read back: parsing its lines and linking that one table give
a store that has its rows and fields and no others, each text in its place.

Results:
* `cell_of_stands`, `field_of_keeps`: a text, and a field, that has been kept.
* `sheet_of_drafted`, `addSheet_of_drafted`: the table.
* `linkNames_of_drafted`, `entities_of_drafted`: its row names.
* `TextTable.link_lines`: a written table in a store.
-/
namespace TypedTables

/-! ## Cells -/

section Kept

variable {l : Linking} {d : Draft} {raw : Raw} {text : String}

theorem text_of_stands (h : raw.Stands d.pool text) : (l.resolver d).text raw = .ok text := by
  cases h with
  | empty => rfl
  | @pooled _ n ne found =>
    have first : n ≠ 0 := by
      rintro rfl
      exact ne (Option.some.inj found).symm
    have given : Raw.isBlank (.code n) = false := by
      simpa [Raw.isBlank] using first
    have looked : Resolver.textAt? (l.resolver d).strings n = some text := found
    unfold Resolver.text
    rw [given, if_neg Bool.false_ne_true]
    dsimp only
    rw [looked]

/-- **Cells.** What is kept of a text stands for it. -/
theorem cell_of_stands (f : TextField) (h : raw.Stands d.pool text) :
    l.cell d raw f.type "" = .ok (.text (f.stored text)) := by
  obtain ⟨name, verbatim⟩ := f
  refine mapError_eq_ok.2 ?_
  cases verbatim with
  | false =>
    show (fun t => Value.text (Text.unescaped t)) <$> (l.resolver d).text raw = _
    rw [text_of_stands h]
    rfl
  | true =>
    show Value.text <$> (l.resolver d).text raw = _
    rw [text_of_stands h]
    rfl

end Kept

namespace TextTable

variable (t : TextTable)

/-- The field of a store for a field of the table and its place. -/
def field (p : TextField × Nat) : Field where
  type := p.1.type
  default := .text ""
  values := (t.texts p.2).map fun text => .text (p.1.stored text)
  precisions := none

variable {t}

variable {l : Linking} {d : Draft}

/-- **Fields.** A column that keeps its texts is resolved to them. -/
theorem field_of_keeps {p : TextField × Nat} {c : Column} (h : t.KeepsColumn d.pool p c) :
    l.field d c = .ok (t.field p) := by
  have values : (c.cells.mapM fun raw => l.cell d raw c.type c.unit) =
      .ok ((t.texts p.2).map fun text => .text (p.1.stored text)) := by
    rw [mapM_eq_ok, List.forall₂_map_right_iff, h.type, h.unit]
    exact h.cells.flip.imp fun _ _ stands => cell_of_stands p.1 stands
  have default : l.cell d c.default c.type c.unit = .ok (.text "") := by
    rw [h.default, h.type, h.unit, cell_of_stands p.1 .empty]
    unfold TextField.stored
    split <;> rfl
  have untracked : l.tracks c.type = false := by
    rw [Bool.eq_false_iff]
    intro tracked
    have float := (tracks_iff.1 tracked).2
    rw [h.type, TextField.type] at float
    split at float <;> cases float
  unfold Linking.field
  refine bind_eq_ok.2 ⟨(), if_pos h.unit, bind_eq_ok.2 ⟨_, values, bind_eq_ok.2 ⟨_, default, ?_⟩⟩⟩
  rw [untracked, h.type]
  rfl

/-! ## Tables -/

variable (t)

/-- The fields of a store for the table, that of the row names first. -/
def sheet : Sheet :=
  (OrderedMap.empty.insert nameField (rowNameField t.rowNames)).insertAll
    (t.fields.zipIdx.map fun p => (p.1.name, t.field p))

theorem names_fields :
    (t.fields.zipIdx.map fun p => (p.1.name, t.field p)).map Prod.fst =
      t.fields.map TextField.name := by
  conv_rhs => rw [← List.zipIdx_map_fst 0 t.fields, List.map_map]
  exact List.map_map ..

theorem toList_sheet : t.sheet.toList =
    (nameField, rowNameField t.rowNames) :: t.fields.zipIdx.map fun p => (p.1.name, t.field p) := by
  refine OrderedMap.toList_insertAll _ ?_
  show (nameField :: (t.fields.zipIdx.map fun p => (p.1.name, t.field p)).map Prod.fst).Nodup
  rw [names_fields, List.nodup_cons]
  refine ⟨fun hm => ?_, t.fields_nodup⟩
  obtain ⟨f, hf, named⟩ := List.mem_map.1 hm
  exact (t.fieldName f hf).free named

theorem keys_sheet : t.sheet.keys = nameField :: t.fields.map TextField.name := by
  show t.sheet.toList.map Prod.fst = _
  rw [toList_sheet, List.map_cons, names_fields]

/-- A field has one text a row. -/
theorem map_texts {j : Nat} (hj : j < t.fields.length) :
    (t.texts j).map some = t.rows.map fun r => r.2[j]? := by
  refine (map_eq_map_some_iff.2 ⟨fun r hr => ?_, List.filterMap_map⟩).symm
  show r.2[j]?.isSome
  rw [List.getElem?_eq_getElem (t.even r hr ▸ hj)]
  rfl

theorem length_texts {j : Nat} (hj : j < t.fields.length) : (t.texts j).length = t.rows.length := by
  rw [← List.length_map some, map_texts t hj, List.length_map]

/-- The texts of a field are those of its cells, row by row. -/
theorem getElem?_texts {j : Nat} (hj : j < t.fields.length) (i : Nat) :
    (t.texts j)[i]? = t.cell? i j := by
  have same : (t.texts j)[i]?.map some = t.rows[i]?.map fun r => r.2[j]? := by
    rw [← List.getElem?_map, map_texts t hj, List.getElem?_map]
  unfold cell?
  cases hr : t.rows[i]? with
  | none =>
    rw [hr] at same
    exact Option.map_eq_none_iff.1 same
  | some r =>
    rw [hr] at same
    obtain ⟨text, ht, found⟩ := Option.map_eq_some_iff.1 same
    exact ht.trans found

variable {t} {name : String} (h : t.Drafted name d)
include h

theorem named_of_drafted : d.isNamed := by
  rw [Draft.isNamed_iff, h.rowNames]
  simpa [rowNames] using t.rows_ne_nil

theorem sheet_of_drafted : l.sheet d = .ok t.sheet := by
  have fields : (d.columns.mapM fun c => (c.name, ·) <$> l.field d c) =
      .ok (t.fields.zipIdx.map fun p => (p.1.name, t.field p)) := by
    rw [mapM_eq_ok, List.forall₂_map_right_iff]
    refine h.columns.flip.imp fun c p keeps => ?_
    rw [field_of_keeps keeps, keeps.name]
    rfl
  unfold Linking.sheet
  refine bind_eq_ok.2 ⟨_, fields, ?_⟩
  rw [if_pos (named_of_drafted h), h.rowNames]
  rfl

theorem keeps_of_mem {c : Column} (hc : c ∈ d.columns) :
    ∃ p ∈ t.fields.zipIdx, t.KeepsColumn d.pool p c :=
  exists_of_forall₂ h.columns.flip hc

/-- A column of titles is one of texts, as all are. -/
theorem exists_wikiColumn : ∃ title, l.wikiColumn? d = .ok title := by
  unfold Linking.wikiColumn?
  split
  · exact ⟨none, rfl⟩
  · split
    · exact ⟨none, rfl⟩
    · next c hc =>
      obtain ⟨p, -, keeps⟩ := keeps_of_mem h (List.mem_of_find?_eq_some hc)
      have texts : c.type = ⟨.string, false⟩ ∨ c.type = ⟨.stringName, false⟩ := by
        rw [keeps.type, TextField.type]
        split
        · exact .inr rfl
        · exact .inl rfl
      exact ⟨some c, if_pos texts⟩

omit h in
theorem exists_addTitles {rows : List (String × Raw)}
    (stand : ∀ p ∈ rows, ∃ text, p.2.Stands d.pool text) (wiki : OrderedMap String String) :
    ∃ wiki', l.addTitles d wiki rows = .ok wiki' := by
  induction rows generalizing wiki with
  | nil => exact ⟨wiki, rfl⟩
  | cons p rows ih =>
    rw [List.forall_mem_cons] at stand
    obtain ⟨text, stands⟩ := stand.1
    have first : ∃ wiki', l.addTitle d wiki p.1 p.2 = .ok wiki' := by
      unfold Linking.addTitle
      split
      · exact ⟨wiki, rfl⟩
      · exact ⟨_, bind_eq_ok.2 ⟨text, mapError_eq_ok.2 (text_of_stands stands), rfl⟩⟩
    obtain ⟨wiki₁, h₁⟩ := first
    obtain ⟨wiki₂, h₂⟩ := ih stand.2 wiki₁
    exact ⟨wiki₂, bind_eq_ok.2 ⟨wiki₁, h₁, h₂⟩⟩

/-- A column of titles has a text for each row. -/
theorem exists_titles {c : Column} (hc : l.wikiColumn? d = .ok (some c))
    (wiki : OrderedMap String String) : ∃ named wiki',
    zipEven d.rowNames c.cells = .ok named ∧ l.addTitles d wiki named = .ok wiki' := by
  obtain ⟨p, hp, keeps⟩ := keeps_of_mem h (wikiColumn?_eq_ok hc).1
  have length : d.rowNames.length = c.cells.length := by
    rw [h.rowNames, ← keeps.cells.length_eq, t.length_texts (List.snd_lt_of_mem_zipIdx hp), rowNames,
      List.length_map]
  have stand : ∀ q ∈ d.rowNames.zip c.cells, ∃ text, q.2.Stands d.pool text := fun q hq => by
    obtain ⟨text, -, stands⟩ := exists_of_forall₂ keeps.cells.flip (List.of_mem_zip hq).2
    exact ⟨text, stands⟩
  obtain ⟨wiki', h'⟩ := exists_addTitles (l := l) stand wiki
  exact ⟨_, wiki', zipEven_eq_ok length, h'⟩

theorem format_of_drafted : d.format = .entities := by
  rw [Draft.format, h.content]
  rfl

/-- **Tables.** The table is resolved whatever is asked for, and its store has all texts. -/
theorem addSheet_of_drafted (a : Assembly) : ∃ wiki, l.addSheet a d = .ok ({
    tables := a.tables.insert name (.sheet t.sheet)
    info := a.info.insert name ⟨.entities, some t.rows.length, d.entityAffix⟩
    wiki }, t.sheet.size) := by
  obtain ⟨title, ht⟩ := exists_wikiColumn (l := l) h
  unfold Linking.addSheet
  rw [sheet_of_drafted h, ht, h.name, format_of_drafted h, h.rowCount]
  cases title with
  | none =>
    refine ⟨a.wiki, bind_eq_ok.2 ⟨_, rfl, ?_⟩⟩
    rw [if_pos (named_of_drafted h)]
    rfl
  | some c =>
    obtain ⟨named, wiki, zipped, titled⟩ := exists_titles h ht a.wiki
    refine ⟨wiki, bind_eq_ok.2 ⟨_, rfl, ?_⟩⟩
    rw [if_pos (named_of_drafted h)]
    exact bind_eq_ok.2 ⟨_, rfl, bind_eq_ok.2 ⟨named, zipped, bind_eq_ok.2 ⟨wiki, titled, rfl⟩⟩⟩

/-! ## Stores -/

theorem isEnumerated_of_drafted : d.format.isEnumerated := by
  rw [format_of_drafted h]
  rfl

theorem modsLast_of_drafted : modsLast [d] = [d] := by
  simp [modsLast, Draft.isMod_of_isEnumerated (isEnumerated_of_drafted h)]

/-- The row names of the table are linked. -/
theorem linkNames_of_drafted :
    (linkNames (modsLast [d]) ∅).result = .ok (({} : Names).withTable d) := by
  have enumerated := isEnumerated_of_drafted h
  have rows : ({} : Names).addTable d = .ok (({} : Names).withTable d) :=
    Names.addTable_eq_ok_iff.2 ⟨rfl, h.rowNames ▸ t.rows_nodup, fun _ _ => rfl, rfl⟩
  rw [modsLast_of_drafted h]
  unfold linkNames
  simp only [Logged.result_bind, Logged.result_ofExcept]
  refine bind_eq_ok.2 ⟨{}, rfl, bind_eq_ok.2 ⟨({} : Names).withTable d, ?_, ?_⟩⟩
  · rw [Names.addTables, if_pos enumerated, rows]
    rfl
  · rw [Names.addMods, Draft.target?_of_isEnumerated enumerated]
    rfl

/-- The run with that table alone. -/
theorem link_of_drafted (units : Units.Converter) (options : LinkOptions) :
    ∃ s, (link units options [d] ∅).result = .ok s ∧
      s.tables = OrderedMap.empty.insert name (.sheet t.sheet) ∧
      s.rowCount? name = some t.rows.length ∧
      s.entities = (({} : Names).withTable d).entities ∧
      s.enumerations = (({} : Names).withTable d).enumerations := by
  let n := ({} : Names).withTable d
  let l : Linking := ⟨units, options, n.entities⟩
  have nodup : (([d].filter (!·.isMod)).map Draft.name).Nodup :=
    (List.nodup_singleton d.name).sublist (List.filter_sublist.map Draft.name)
  obtain ⟨wiki, sheet⟩ := addSheet_of_drafted h (l := l) { info := n.info }
  have table : (l.addTable n.enumerations { info := n.info } d).result = .ok {
      tables := OrderedMap.empty.insert name (.sheet t.sheet)
      info := n.info.insert name ⟨.entities, some t.rows.length, d.entityAffix⟩
      wiki } := by
    rw [Linking.result_addTable, h.content]
    dsimp only
    rw [sheet]
    rfl
  have tables : (l.addTables n.enumerations { info := n.info } [d]).result = .ok _ :=
    Linking.addTables_cons_eq_ok.2 ⟨_, table, rfl⟩
  rw [link_eq_of_linkNames nodup (linkNames_of_drafted h), modsLast_of_drafted h, tables]
  refine ⟨_, rfl, rfl, ?_, rfl, rfl⟩
  show ((n.info.insert name _).get? name).bind TableInfo.rowCount = _
  rw [OrderedMap.get?_insert, if_pos rfl]
  rfl

/-- The entities are the row names, each in its row. -/
theorem entities_of_drafted (r : String) (x : Entity) :
    (({} : Names).withTable d).entities.get? r = some x ↔
      x.owner = name ∧ t.rowNames[x.row]? = some r := by
  obtain ⟨owner, row⟩ := x
  have nodup : d.rowNames.Nodup := h.rowNames ▸ t.rows_nodup
  have listed := Names.coherent_withTable (n := {}) nodup (fun _ _ => rfl) Names.coherent_empty rfl
  rw [listed, Names.get?_enumerations_withTable, h.name]
  have named := (Draft.isNamed_iff d).1 (named_of_drafted h)
  constructor
  · rintro ⟨e, he, hr⟩
    split at he
    · next own =>
      cases he
      refine ⟨own.1.symm, ?_⟩
      rw [← h.rowNames]
      exact ((Draft.enumeration_inverse nodup).row_iff r row).1 hr
    · cases he
  · rintro ⟨rfl, hr⟩
    rw [← h.rowNames] at hr
    exact ⟨_, if_pos ⟨rfl, named⟩, ((Draft.enumeration_inverse nodup).row_iff r row).2 hr⟩

omit h

/-- What the fields of the store for the table are. -/
theorem get?_sheet {j : Nat} {f : TextField} (hf : t.fields[j]? = some f) :
    t.sheet.get? f.name = some (t.field (f, j)) := by
  rw [OrderedMap.get?_eq_some_iff, toList_sheet]
  exact List.mem_cons_of_mem _
    (List.mem_map.2 ⟨(f, j), List.mem_zipIdx_iff_getElem?.2 hf, rfl⟩)

/-- The store holds the table under the name, and every text of it in its place. -/
structure StoredAs (t : TextTable) (name : String) (s : Store) : Prop where
  /-- the rows are the row names, in order -/
  names : s.namesOf name = t.rowNames
  rowCount : s.rowCount? name = some t.rows.length
  /-- no other name has a row -/
  entities : ∀ r x, s.entities.get? r = some x ↔ x.owner = name ∧ t.rowNames[x.row]? = some r
  tables : s.tables.keys = [name]
  /-- a field for the row names, and one for each field, with the texts of its cells -/
  sheet : ∃ sheet, s.sheet? name = some sheet ∧
    sheet.keys = nameField :: t.fields.map TextField.name ∧
    sheet.get? nameField = some (rowNameField t.rowNames) ∧
    ∀ j f, t.fields[j]? = some f → ∃ field, sheet.get? f.name = some field ∧
      field.type = f.type ∧
      ∀ i, field.values[i]? = (t.cell? i j).map fun text => .text (f.stored text)

/-- **Written text is read back.** A table of texts is parsed from its lines, and linking it gives
a store that holds its rows and fields and no others, and each of its texts in its place. -/
theorem link_lines (t : TextTable) (units : Units.Converter) (options : LinkOptions)
    (name source : String) :
    ∃ d s, Draft.parse t.lines name source = .ok (some d) ∧
      (link units options [d] ∅).result = .ok s ∧ t.StoredAs name s := by
  obtain ⟨d, parsed, h⟩ := t.exists_draft name source
  obtain ⟨s, linked, tables, rowCount, entities, enumerations⟩ := link_of_drafted h units options
  refine ⟨d, s, parsed, linked, ?_, rowCount, ?_, ?_, t.sheet, ?_, t.keys_sheet, ?_, ?_⟩
  · rw [Store.namesOf, enumerations, Names.get?_enumerations_withTable, h.name,
      if_pos ⟨rfl, (Draft.isNamed_iff d).1 (named_of_drafted h)⟩]
    exact h.rowNames
  · rw [entities]
    exact entities_of_drafted h
  · rw [tables]
    rfl
  · rw [Store.sheet?, tables, OrderedMap.get?_insert, if_pos rfl]
  · rw [OrderedMap.get?_eq_some_iff, toList_sheet]
    exact List.mem_cons_self
  · intro j f hf
    refine ⟨_, get?_sheet hf, rfl, fun i => ?_⟩
    have hj : j < t.fields.length := (List.getElem?_eq_some_iff.1 hf).1
    show ((t.texts j).map _)[i]? = _
    rw [List.getElem?_map, t.getElem?_texts hj]

/-- Two landmarks, with an escape, inner quotation marks, marks that would announce a comment or a
directive elsewhere, and a cell without text. -/
def landmarks : TextTable where
  fields := [⟨"Note", false⟩, ⟨"Sign", true⟩]
  rows := [("Beacon", ["a \"light\"\\tat night", "#1, @sea"]), ("Cairn", ["", "up\\n"])]
  fields_ne_nil := by decide
  rows_ne_nil := by decide
  fields_nodup := by decide
  rows_nodup := by decide
  fieldName := by decide
  rowName := by decide
  even := by decide
  cell := by decide

theorem landmarks_stored : ∃ d s,
    Draft.parse ["\tNote\tSign", "Type\tSTRING\tSTRING_NAME",
      "Beacon\ta \"light\"\\tat night\t#1, @sea", "Cairn\t\tup\\n"] "Landmark" = .ok (some d) ∧
    (link {} {} [d] ∅).result = .ok s ∧ landmarks.StoredAs "Landmark" s := by
  have lines : landmarks.lines = ["\tNote\tSign", "Type\tSTRING\tSTRING_NAME",
      "Beacon\ta \"light\"\\tat night\t#1, @sea", "Cairn\t\tup\\n"] := by
    decide +kernel
  rw [← lines]
  exact landmarks.link_lines {} {} "Landmark" ""

end TextTable

end TypedTables
