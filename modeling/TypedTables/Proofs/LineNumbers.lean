import Mathlib.Logic.Relation
import TypedTables.Proofs.Outcome
import TypedTables.Table.Parse
/-!
# Where lines stand

The number of a line is for messages. When a source is parsed, its rows give the same table wherever
they stand, and the directives wherever they were given.

Results:
* `Follows.bind`, `Threads.bind`: a computation that answers as another does.
* `takeHeader_follows`, `readColumns_threads`, `readRows_threads`: the stages of a table of records.
* `readRecords_threads`, `readGrid_threads`: the two kinds of content.
* `ofOutline_follows`: outlines that say the same give the same table.
* `takeHeader_perm`: the order of header rows.
-/
namespace TypedTables

variable {ε α β γ δ : Type}

/-! ## Computations -/

/-- If the first computation has an answer, the second has one to match. -/
def Follows (R : α → β → Prop) (x : Except ε α) (y : Except ε β) : Prop :=
  ∀ a, x = .ok a → ∃ b, y = .ok b ∧ R a b

namespace Follows

variable {R : α → β → Prop} {S : γ → δ → Prop}

theorem ok {a : α} {b : β} (h : R a b) : Follows R (.ok a : Except ε α) (.ok b) := by
  rintro _ ⟨⟩
  exact ⟨b, rfl, h⟩

theorem error {e : ε} {y : Except ε β} : Follows R (.error e) y := nofun

theorem refl (x : Except ε α) : Follows Eq x x := fun a h => ⟨a, h, rfl⟩

theorem imp {R' : α → β → Prop} {x : Except ε α} {y : Except ε β} (h : Follows R x y)
    (hR : ∀ a b, R a b → R' a b) : Follows R' x y := fun a ha =>
  let ⟨b, hb, ab⟩ := h a ha
  ⟨b, hb, hR a b ab⟩

theorem trans {T : β → γ → Prop} {x : Except ε α} {y : Except ε β} {z : Except ε γ}
    (h : Follows R x y) (h' : Follows T y z) : Follows (Relation.Comp R T) x z := by
  intro a ha
  obtain ⟨b, hb, ab⟩ := h a ha
  obtain ⟨c, hc, bc⟩ := h' b hb
  exact ⟨c, hc, b, ab, bc⟩

theorem bind {x : Except ε α} {y : Except ε β} {f : α → Except ε γ} {g : β → Except ε δ}
    (h : Follows R x y) (hf : ∀ a b, R a b → Follows S (f a) (g b)) :
    Follows S (x >>= f) (y >>= g) := by
  intro c hc
  obtain ⟨a, ha, hc⟩ := bind_eq_ok.1 hc
  obtain ⟨b, hb, ab⟩ := h a ha
  obtain ⟨d, hd, cd⟩ := hf a b ab c hc
  exact ⟨d, bind_eq_ok.2 ⟨b, hb, hd⟩, cd⟩

theorem map {x : Except ε α} {y : Except ε β} {f : α → γ} {g : β → δ} (h : Follows R x y)
    (hS : ∀ a b, R a b → S (f a) (g b)) : Follows S (f <$> x) (g <$> y) := by
  intro c hc
  obtain ⟨a, ha, rfl⟩ := map_eq_ok.1 hc
  obtain ⟨b, hb, ab⟩ := h a ha
  exact ⟨g b, map_eq_ok.2 ⟨b, hb, rfl⟩, hS a b ab⟩

theorem mapM {ι κ : Type} {Q : ι → κ → Prop} {f : ι → Except ε α} {g : κ → Except ε β} {l : List ι}
    {l' : List κ} (hl : List.Forall₂ Q l l') (h : ∀ i k, Q i k → Follows R (f i) (g k)) :
    Follows (List.Forall₂ R) (l.mapM f) (l'.mapM g) := by
  induction hl with
  | nil => exact .ok .nil
  | cons ik _ ih =>
    rw [List.mapM_cons, List.mapM_cons]
    exact (h _ _ ik).bind fun _ _ ab => ih.bind fun _ _ rest => .ok (.cons ab rest)

/-- Steps over one list that may differ in what they blame. -/
theorem mapM_eq {ι : Type} {f g : ι → Except ε α} (l : List ι) (h : ∀ i, Follows Eq (f i) (g i)) :
    Follows Eq (l.mapM f) (l.mapM g) :=
  (mapM (List.forall₂_same.2 fun _ _ => rfl) fun i _ (ik : i = _) => ik ▸ h i).imp fun _ _ rest =>
    List.forall₂_eq_eq_eq ▸ rest

end Follows

/-- The computations answer alike from every pool, and leave the same pool behind. -/
def Threads (R : α → β → Prop) (x : Interning ε α) (y : Interning ε β) : Prop :=
  ∀ pool, Follows (fun a b => R a.1 b.1 ∧ a.2 = b.2) (x pool) (y pool)

namespace Threads

variable {R : α → β → Prop} {S : γ → δ → Prop}

theorem pure {a : α} {b : β} (h : R a b) :
    Threads R (Pure.pure a : Interning ε α) (Pure.pure b) := fun _ => .ok ⟨h, rfl⟩

theorem refl (x : Interning ε α) : Threads Eq x x := fun pool =>
  (Follows.refl (x pool)).imp fun _ _ h => by cases h; exact ⟨rfl, rfl⟩

theorem imp {R' : α → β → Prop} {x : Interning ε α} {y : Interning ε β} (h : Threads R x y)
    (hR : ∀ a b, R a b → R' a b) : Threads R' x y := fun pool =>
  (h pool).imp fun _ _ ⟨ab, same⟩ => ⟨hR _ _ ab, same⟩

theorem bind {x : Interning ε α} {y : Interning ε β} {f : α → Interning ε γ}
    {g : β → Interning ε δ} (h : Threads R x y) (hf : ∀ a b, R a b → Threads S (f a) (g b)) :
    Threads S (x >>= f) (y >>= g) := fun pool =>
  (h pool).bind fun a b ⟨ab, same⟩ => by
    obtain ⟨a, pool'⟩ := a
    obtain ⟨b, _⟩ := b
    cases same
    exact hf a b ab pool'

theorem lift {x : Except ε α} {y : Except ε β} (h : Follows R x y) :
    Threads R (liftM x : Interning ε α) (liftM y) := fun _ =>
  h.bind fun _ _ ab => .ok ⟨ab, rfl⟩

theorem mapM {ι κ : Type} {Q : ι → κ → Prop} {f : ι → Interning ε α} {g : κ → Interning ε β}
    {l : List ι} {l' : List κ} (hl : List.Forall₂ Q l l')
    (h : ∀ i k, Q i k → Threads R (f i) (g k)) :
    Threads (List.Forall₂ R) (l.mapM f) (l'.mapM g) := by
  induction hl with
  | nil => exact .pure .nil
  | cons ik _ ih =>
    rw [List.mapM_cons, List.mapM_cons]
    exact (h _ _ ik).bind fun _ _ ab => ih.bind fun _ _ rest => .pure (.cons ab rest)

theorem mapM_eq {ι : Type} {f g : ι → Interning ε α} (l : List ι)
    (h : ∀ i, Threads Eq (f i) (g i)) : Threads Eq (l.mapM f) (l.mapM g) :=
  (mapM (List.forall₂_same.2 fun _ _ => rfl) fun i _ (ik : i = _) => ik ▸ h i).imp fun _ _ rest =>
    List.forall₂_eq_eq_eq ▸ rest

end Threads

/-! ## Rows -/

/-- The rows have the same cells. -/
def Row.Alike (r r' : Row) : Prop := r.cells = r'.cells

theorem Row.Alike.head {r r' : Row} (h : r.Alike r') : r.head = r'.head := by
  simp only [Row.head, show r.cells = r'.cells from h]

theorem Row.Alike.rest {r r' : Row} (h : r.Alike r') : r.rest = r'.rest := by
  simp only [Row.rest, show r.cells = r'.cells from h]

theorem alike_iff {rows rows' : List Row} :
    List.Forall₂ Row.Alike rows rows' ↔ rows.map Row.cells = rows'.map Row.cells := by
  rw [← List.forall₂_eq_eq_eq, List.forall₂_map_left_iff, List.forall₂_map_right_iff]
  rfl

/-! ## Header -/

theorem checkFieldNames_follows (line line' : Nat) (seen names : List String) :
    Follows Eq (checkFieldNames line seen names) (checkFieldNames line' seen names) := by
  induction names generalizing seen with
  | nil => exact .ok rfl
  | cons name names ih =>
    unfold checkFieldNames
    split
    · exact .error
    split
    · exact .error
    split
    · exact .error
    · exact ih _

theorem readFieldNames_follows (format : TableFormat) {r r' : Row} (h : r.Alike r') :
    Follows Eq (readFieldNames format r) (readFieldNames format r') := by
  unfold readFieldNames
  rw [h.rest]
  split
  · exact .error
  · exact (checkFieldNames_follows _ _ _ _).bind fun _ _ _ => .ok rfl

theorem takeFieldNames_follows (format : TableFormat) {rows rows' : List Row}
    (h : List.Forall₂ Row.Alike rows rows') :
    Follows (fun a b => a.2.1 = b.2.1 ∧ List.Forall₂ Row.Alike a.2.2 b.2.2)
      (takeFieldNames format rows) (takeFieldNames format rows') := by
  have headerless : isHeaderless format rows = isHeaderless format rows' := by
    cases h with
    | nil => rfl
    | cons hr => rw [isHeaderless, isHeaderless, List.head?_cons, List.head?_cons, Option.any_some,
        Option.any_some, hr]
  unfold takeFieldNames
  rw [headerless]
  cases h with
  | nil =>
    split
    · exact .ok ⟨rfl, .nil⟩
    · exact .error
  | @cons r r' rows rows' hr hrows =>
    split
    · dsimp only
      rw [show r.cells = r'.cells from hr]
      split
      · exact .error
      · exact .ok ⟨rfl, .cons hr hrows⟩
    · exact (readFieldNames_follows format hr).bind fun names _ e => .ok ⟨e, hrows⟩

/-- Field names come from the first row alone. -/
theorem takeFieldNames_cons_follows {format : TableFormat} {r r' : Row} (h : r.Alike r')
    {rows : List Row} (fields : ¬ isHeaderless format (r :: rows)) (rows' : List Row) :
    Follows (fun a b => a.2.1 = b.2.1 ∧ a.2.2 = rows ∧ b.2.2 = rows')
      (takeFieldNames format (r :: rows)) (takeFieldNames format (r' :: rows')) := by
  have fields' : ¬ isHeaderless format (r' :: rows') := by
    rwa [isHeaderless, List.head?_cons, Option.any_some, ← show r.cells = r'.cells from h]
  unfold takeFieldNames
  rw [if_neg fields, if_neg fields']
  exact (readFieldNames_follows format h).bind fun _ _ e => .ok ⟨e, rfl, rfl⟩

/-- The headers have the same cells for each kind of header row. -/
structure Header.Alike (h h' : Header) : Prop where
  rows : ∀ kind, (h.rows.get? kind).map Row.cells = (h'.rows.get? kind).map Row.cells
  entityAffix : h.entityAffix = h'.entityAffix

namespace Header.Alike

variable {h h' : Header}

theorem refl (h : Header) : h.Alike h := ⟨fun _ => rfl, rfl⟩

theorem contains (hh : h.Alike h') (kind : HeaderRow) :
    h.rows.contains kind = h'.rows.contains kind := by
  have same := congrArg Option.isSome (hh.rows kind)
  rwa [Option.isSome_map, Option.isSome_map] at same

theorem insert (hh : h.Alike h') (kind : HeaderRow) {r r' : Row} (hr : r.Alike r')
    (affix : Option String) :
    Header.Alike ⟨h.rows.insert kind r, affix.getD h.entityAffix⟩
      ⟨h'.rows.insert kind r', affix.getD h'.entityAffix⟩ := by
  refine ⟨fun kind' => ?_, by rw [hh.entityAffix]⟩
  rw [OrderedMap.get?_insert, OrderedMap.get?_insert]
  split
  · exact congrArg some hr
  · exact hh.rows kind'

theorem get? (hh : h.Alike h') (kind : HeaderRow) :
    h.rows.get? kind = none ∧ h'.rows.get? kind = none ∨
      ∃ r r', h.rows.get? kind = some r ∧ h'.rows.get? kind = some r' ∧ r.Alike r' := by
  have same := hh.rows kind
  cases hr : h.rows.get? kind with
  | none =>
    rw [hr, Option.map_none, eq_comm, Option.map_eq_none_iff] at same
    exact .inl ⟨rfl, same⟩
  | some r =>
    rw [hr, Option.map_some, eq_comm, Option.map_eq_some_iff] at same
    obtain ⟨r', hr', cells⟩ := same
    exact .inr ⟨r, r', rfl, hr', cells.symm⟩

theorem cells (hh : h.Alike h') (kind : HeaderRow) (n : Nat) :
    h.cells kind n = h'.cells kind n := by
  unfold Header.cells
  obtain ⟨none, none'⟩ | ⟨r, r', hr, hr', alike⟩ := hh.get? kind
  · rw [none, none']
  · rw [hr, hr']
    exact alike.rest

end Header.Alike

/-- The header and the rows after it. -/
abbrev SameHeader (a b : Header × List Row) : Prop :=
  a.1.Alike b.1 ∧ List.Forall₂ Row.Alike a.2 b.2

theorem SameHeader.trans (a c : Header × List Row) (h : Relation.Comp SameHeader SameHeader a c) :
    SameHeader a c := by
  obtain ⟨b, ⟨ab, rows⟩, ⟨bc, rows'⟩⟩ := h
  rw [alike_iff] at rows rows'
  exact ⟨⟨fun kind => (ab.rows kind).trans (bc.rows kind), ab.entityAffix.trans bc.entityAffix⟩,
    alike_iff.2 (rows.trans rows')⟩

theorem takeHeader_follows {h h' : Header} {rows rows' : List Row} (hh : h.Alike h')
    (hrows : List.Forall₂ Row.Alike rows rows') :
    Follows SameHeader (takeHeader h rows) (takeHeader h' rows') := by
  induction hrows generalizing h h' with
  | nil => exact .ok ⟨hh, .nil⟩
  | @cons r r' rows rows' hr hrest ih =>
    unfold takeHeader
    rw [← hr.head]
    cases headerRow? r.head with
    | none => exact .ok ⟨hh, .cons hr hrest⟩
    | some found =>
      obtain ⟨kind, affix⟩ := found
      dsimp only
      rw [hh.contains]
      split
      · exact .error
      · exact ih (hh.insert kind hr affix)

/-! ## Columns -/

theorem readType_follows (format : TableFormat) (line line' : Nat) (field cell : String) :
    Follows Eq (readType format line field cell) (readType format line' field cell) := by
  unfold readType
  split
  · split
    · exact .ok rfl
    · exact .error
  · split
    · exact .ok rfl
    · exact .error

theorem readTypes_follows (format : TableFormat) {h h' : Header} (hh : h.Alike h')
    (first first' : Option Nat) (names : List String) :
    Follows Eq (readTypes format h first names) (readTypes format h' first' names) := by
  unfold readTypes
  obtain ⟨none, none'⟩ | ⟨r, r', hr, hr', alike⟩ := hh.get? .type
  · rw [none, none']
    dsimp only
    split
    · exact .error
    · exact .ok rfl
  · rw [hr, hr']
    dsimp only
    rw [alike.rest]
    exact .mapM_eq _ fun p => readType_follows format r.line r'.line p.1 p.2

theorem readCellAt_threads (line line' : Option Nat) (type : FieldType) (affix : String)
    (default : Raw) (cell : String) :
    Threads Eq (readCellAt line type affix default cell)
      (readCellAt line' type affix default cell) := by
  rintro pool ⟨raw, pool'⟩ h
  exact ⟨_, mapError_eq_ok.2 (mapError_eq_ok.1 h), rfl, rfl⟩

theorem readColumns_threads (format : TableFormat) {h h' : Header} (hh : h.Alike h')
    (first first' : Option Nat) (names : List String) :
    Threads Eq (readColumns format h first names) (readColumns format h' first' names) := by
  unfold readColumns
  simp only [hh.cells]
  refine (Threads.lift (readTypes_follows format hh first first' names)).bind ?_
  rintro types _ rfl
  refine (Threads.mapM_eq _ fun p => .lift ?_).bind ?_
  · unfold readUnit
    split
    · exact .error
    · exact .ok rfl
  rintro units _ rfl
  refine (Threads.mapM_eq _ fun p => .lift ?_).bind ?_
  · unfold readAffix
    split
    · exact .error
    · exact .ok rfl
  rintro affixes _ rfl
  refine .mapM_eq _ fun p => (readCellAt_threads _ _ _ _ _ _).bind ?_
  rintro default _ rfl
  exact .pure rfl

/-! ## Content -/

theorem readRow_threads (columns : List Column) {r r' : Row} (hr : r.Alike r') :
    Threads Eq (readRow columns r) (readRow columns r') := by
  unfold readRow
  refine .mapM_eq _ fun p => (Threads.lift (R := Eq) ?_).bind ?_
  · unfold Row.cell
    rw [hr.rest]
    split
    · exact .ok rfl
    · exact .error
  · rintro cell _ rfl
    exact readCellAt_threads _ _ _ _ _ _

theorem readRows_threads (columns : List Column) (named : Bool) (affix : String)
    (seen : List String) {rows rows' : List Row} (h : List.Forall₂ Row.Alike rows rows') :
    Threads Eq (readRows columns named affix seen rows) (readRows columns named affix seen rows') := by
  induction h generalizing seen with
  | nil => exact .pure rfl
  | @cons r r' rows rows' hr _ ih =>
    unfold readRows
    rw [hr.head]
    dsimp only
    generalize (if named then affix ++ r'.head else "") = name
    split
    · exact fun _ => .error
    · split
      · exact fun _ => .error
      · refine (readRow_threads columns hr).bind ?_
        rintro cells _ rfl
        refine (ih _).bind ?_
        rintro others _ rfl
        exact .pure rfl

theorem checkNaming_follows (format : TableFormat) {rows rows' : List Row}
    (h : List.Forall₂ (fun r r' => r.head = r'.head) rows rows') :
    Follows Eq (checkNaming format rows) (checkNaming format rows') := by
  cases h with
  | nil => exact .ok rfl
  | cons hr =>
    unfold checkNaming
    dsimp only
    rw [hr]
    split
    · exact .error
    · split
      · exact .error
      · exact .ok rfl

/-- Tables with the same field names give the same records if their header rows come to the same. -/
theorem readRecords_threads_of (format : TableFormat) {rows rows' : List Row}
    (h : Follows (fun a b => a.2.1 = b.2.1 ∧
        Follows SameHeader (takeHeader {} a.2.2) (takeHeader {} b.2.2))
      (takeFieldNames format rows) (takeFieldNames format rows')) :
    Threads Eq (readRecords format rows) (readRecords format rows') := by
  unfold readRecords
  refine (Threads.lift h).bind ?_
  rintro ⟨first, names, rest⟩ ⟨first', _, rest'⟩ ⟨rfl, headers⟩
  refine (Threads.lift headers).bind ?_
  rintro ⟨header, rows⟩ ⟨header', rows'⟩ ⟨alike, hrows⟩
  refine (readColumns_threads format alike first first' names).bind ?_
  rintro columns _ rfl
  refine (Threads.lift (checkNaming_follows format (hrows.imp fun _ _ => Row.Alike.head))).bind ?_
  rintro named _ rfl
  dsimp only
  rw [alike.entityAffix, hrows.length_eq]
  refine (readRows_threads columns named _ [] hrows).bind ?_
  rintro content _ rfl
  exact .pure rfl

theorem readRecords_threads (format : TableFormat) {rows rows' : List Row}
    (h : List.Forall₂ Row.Alike rows rows') :
    Threads Eq (readRecords format rows) (readRecords format rows') :=
  readRecords_threads_of format ((takeFieldNames_follows format h).imp fun _ _ ⟨names, rest⟩ =>
    ⟨names, takeHeader_follows (.refl _) rest⟩)

/-! ## Grids -/

/-- The layouts are the same but for the lines to blame, of which they have as many. -/
structure Layout.Alike (l l' : Layout) : Prop where
  same : l' = { l with lines := l'.lines }
  lines : l.lines.length = l'.lines.length

theorem readLayout_follows {r r' : Row} (hr : r.Alike r') {rows rows' : List Row}
    (h : List.Forall₂ Row.Alike rows rows') :
    Follows Layout.Alike (readLayout r rows) (readLayout r' rows') := by
  have heads : rows.map Row.head = rows'.map Row.head :=
    (map_eq_of_forall₂ h fun _ _ alike => alike.head.symm).symm
  have rests : rows.map Row.rest = rows'.map Row.rest :=
    (map_eq_of_forall₂ h fun _ _ alike => alike.rest.symm).symm
  unfold readLayout
  rw [hr.head, hr.rest, heads, rests]
  refine Follows.bind (R := Eq) ?_ ?_
  · unfold readCorner
    split
    · exact .ok rfl
    · split
      · exact .error
      · exact .ok rfl
  · rintro ⟨rowAffix, columnAffix⟩ _ rfl
    exact .ok ⟨rfl, by simp [h.length_eq]⟩

theorem orientLayout_follows {directives directives' : OrderedMap Directive String}
    (hd : ∀ d, directives.get? d = directives'.get? d) (line line' : Nat) {l l' : Layout}
    (h : l.Alike l') :
    Follows Layout.Alike (orientLayout directives line l) (orientLayout directives' line' l') := by
  obtain ⟨same, lines⟩ := h
  unfold orientLayout
  rw [OrderedMap.contains, OrderedMap.contains, hd]
  split
  · unfold Layout.transposed
    rw [same]
    exact (Follows.refl _).bind fun cells _ e => e ▸ .ok ⟨rfl, by simp⟩
  · exact .ok ⟨same, lines⟩

theorem readAxis_follows (axis : Axis) (line line' : Nat) (affix : String)
    (seen names : List String) :
    Follows Eq (readAxis axis line affix seen names) (readAxis axis line' affix seen names) := by
  induction names generalizing seen with
  | nil => exact .ok rfl
  | cons name names ih =>
    unfold readAxis
    dsimp only
    split
    · exact .error
    · split
      · exact .error
      · exact (ih _).bind fun others _ e => e ▸ .ok rfl

theorem readAxisNames_follows (axis : Axis) (line line' : Nat) (affix : String)
    (names : List String) :
    Follows Eq (readAxisNames axis line affix names) (readAxisNames axis line' affix names) := by
  unfold readAxisNames
  split
  · exact .error
  · exact readAxis_follows axis line line' affix [] names

theorem pairLines_follows {lines lines' : List Nat} (h : lines.length = lines'.length)
    (cells : List (List String)) :
    Follows (List.Forall₂ fun p q => p.2 = q.2) (pairLines lines cells) (pairLines lines' cells) := by
  induction lines generalizing lines' cells with
  | nil =>
    rw [List.eq_nil_of_length_eq_zero h.symm]
    cases cells with
    | nil => exact .ok .nil
    | cons => exact .error
  | cons line lines ih =>
    cases lines' with
    | nil => cases h
    | cons line' lines' =>
      cases cells with
      | nil => exact .error
      | cons row cells =>
        exact (ih (Nat.succ.inj h) cells).map fun _ _ rest => .cons rfl rest

/-- Rows and columns have been exchanged when a grid is laid out. -/
theorem readLaidOut_threads {directives directives' : OrderedMap Directive String}
    (hd : ∀ d, d ≠ .transpose → directives.get? d = directives'.get? d) (line line' : Nat)
    {l l' : Layout} (h : l.Alike l') :
    Threads Eq (readLaidOut directives line l) (readLaidOut directives' line' l') := by
  obtain ⟨same, lines⟩ := h
  have argument : ∀ d, d ≠ .transpose → directives.getD d "" = directives'.getD d "" := by
    intro d other
    rw [OrderedMap.getD, OrderedMap.getD, hd d other]
  unfold readLaidOut readGridType
  rw [hd .dataType nofun, argument .dataUnit nofun, argument .dataDefault nofun, same]
  dsimp only
  refine (Threads.lift (readAxisNames_follows _ _ _ _ _)).bind ?_
  rintro rowNames _ rfl
  refine (Threads.lift (readAxisNames_follows _ _ _ _ _)).bind ?_
  rintro columnNames _ rfl
  refine (Threads.refl _).bind ?_
  rintro type _ rfl
  by_cases unitless : directives'.getD .dataUnit "" ≠ "" ∧ type.base ≠ .float
  · rw [if_pos unitless, if_pos unitless]
    exact fun _ => .error
  · rw [if_neg unitless, if_neg unitless]
    refine (Threads.refl _).bind ?_
    rintro default _ rfl
    refine (Threads.lift (pairLines_follows lines l.cells)).bind fun rows rows' hrows => ?_
    refine (Threads.mapM (R := Eq) hrows fun p q (pq : p.2 = q.2) => ?_).bind fun cells cells' hc => ?_
    · rw [pq]
      exact .mapM_eq _ fun cell => readCellAt_threads _ _ _ _ _ _
    · rw [List.forall₂_eq_eq_eq] at hc
      exact hc ▸ .pure rfl

theorem readGrid_threads {directives directives' : OrderedMap Directive String}
    (hd : ∀ d, directives.get? d = directives'.get? d) {rows rows' : List Row}
    (h : List.Forall₂ Row.Alike rows rows') :
    Threads Eq (readGrid directives rows) (readGrid directives' rows') := by
  unfold readGrid
  cases h with
  | nil => exact fun _ => .error
  | cons hr hrows =>
    refine (Threads.lift (readLayout_follows hr hrows)).bind fun l l' hl => ?_
    refine (Threads.lift (orientLayout_follows hd _ _ hl)).bind fun l l' hl => ?_
    exact readLaidOut_threads (fun d _ => hd d) _ _ hl

/-! ## Outlines -/

/-- The outlines have the same format, the same directives and as many columns. -/
structure Outline.Alike (o o' : Outline) : Prop where
  format : o.format = o'.format
  directives : ∀ d, o.directives.get? d = o'.directives.get? d
  width : o.width = o'.width

namespace Outline.Alike

variable {o o' : Outline} (h : o.Alike o')
include h

theorem contains (d : Directive) : o.directives.contains d = o'.directives.contains d := by
  rw [OrderedMap.contains, OrderedMap.contains, h.directives]

theorem tableFormat : o.tableFormat = o'.tableFormat := by
  rw [Outline.tableFormat, Outline.tableFormat, h.format, h.contains, h.width]

theorem tableName (name : String) : o.tableName name = o'.tableName name := by
  rw [Outline.tableName, Outline.tableName, h.format]

/-- No directive of one is illegal if none of the other is. -/
theorem checkDirectives : Follows Eq o.checkDirectives o'.checkDirectives := by
  unfold Outline.checkDirectives
  rw [h.tableFormat, h.contains .modifies, h.contains .dataType]
  dsimp only
  cases illegal : o.directives.keys.find? fun d => !o'.tableFormat.directives.contains d with
  | some d => exact .error
  | none =>
    have none : o'.directives.keys.find? (fun d => !o'.tableFormat.directives.contains d) = none := by
      rw [List.find?_eq_none] at illegal ⊢
      intro d hd
      rw [← OrderedMap.contains_iff, ← h.contains, OrderedMap.contains_iff] at hd
      exact illegal d hd
    rw [none]
    exact (Follows.refl _)

end Outline.Alike

/-- **Outlines.** Outlines that are alike give the same table if their rows do. -/
theorem ofOutline_follows {o o' : Outline} (h : o.Alike o')
    (records : Threads Eq (readRecords o.tableFormat o.rows) (readRecords o.tableFormat o'.rows))
    (grid : o.tableFormat = .grid →
      Threads Eq (readGrid o.directives o.rows) (readGrid o'.directives o'.rows))
    (name source : String) :
    Follows Eq (Draft.ofOutline o name source) (Draft.ofOutline o' name source) := by
  have target : o.directives.getD .modifies "" = o'.directives.getD .modifies "" := by
    rw [OrderedMap.getD, OrderedMap.getD, h.directives]
  unfold Draft.ofOutline
  refine h.checkDirectives.bind fun _ _ _ => ?_
  rw [h.tableName name, ← h.tableFormat, ← target]
  cases hk : Draft.recordKind? o.tableFormat (o.directives.getD .modifies "") with
  | some kind =>
    refine (records StringPool.empty).bind ?_
    rintro ⟨records, pool⟩ ⟨_, _⟩ ⟨rfl, rfl⟩
    exact .ok rfl
  | none =>
    have hg : o.tableFormat = .grid := by
      cases hf : o.tableFormat <;> rw [hf] at hk <;> first | rfl | cases hk
    refine (grid hg StringPool.empty).bind ?_
    rintro ⟨⟨rowNames, grid⟩, pool⟩ ⟨_, _⟩ ⟨rfl, rfl⟩
    exact .ok rfl

/-! ## The order of header rows -/

theorem headerRow?_affix {cell : String} {kind : HeaderRow} {affix : String}
    (h : headerRow? cell = some (kind, some affix)) : kind = .affix := by
  unfold headerRow? at h
  split at h
  · cases h
    rfl
  · obtain ⟨_, -, h⟩ := Option.map_eq_some_iff.1 h
    cases h

theorem OrderedMap.contains_insert {κ : Type} [DecidableEq κ] (m : OrderedMap κ α) (k k' : κ)
    (a : α) : (m.insert k a).contains k' = (decide (k = k') || m.contains k') := by
  rw [contains, get?_insert, contains]
  split <;> simp [*]

/-- Two header rows may change places. -/
theorem takeHeader_swap (x y : Row) (rows : List Row) {h h' : Header} (hh : h.Alike h')
    (hx : headerRow? x.head ≠ none) (hy : headerRow? y.head ≠ none) :
    Follows SameHeader (takeHeader h (y :: x :: rows)) (takeHeader h' (x :: y :: rows)) := by
  obtain ⟨⟨kx, ax⟩, hx⟩ := Option.ne_none_iff_exists'.1 hx
  obtain ⟨⟨ky, ay⟩, hy⟩ := Option.ne_none_iff_exists'.1 hy
  simp only [takeHeader, hx, hy, ← hh.contains]
  -- a kind that is there already is refused, now or one row later
  rw [OrderedMap.contains_insert, OrderedMap.contains_insert, ← hh.contains]
  by_cases hky : h.rows.contains ky
  · rw [if_pos hky]
    exact .error
  by_cases hkx : h.rows.contains kx
  · rw [if_neg hky, if_pos (by simp [hkx])]
    exact .error
  by_cases same : ky = kx
  · rw [if_neg hky, if_pos (by simp [same])]
    exact .error
  rw [if_neg hky, if_neg (by simp [same, hkx]), if_neg hkx, if_neg (by simp [Ne.symm same, hky])]
  refine takeHeader_follows ⟨fun kind => ?_, ?_⟩ (List.forall₂_same.2 fun _ _ => rfl)
  · simp only [OrderedMap.get?_insert]
    by_cases e : kx = kind
    · subst e
      simp [same]
    · rw [if_neg e, if_neg e]
      split
      · rfl
      · exact hh.rows kind
  · dsimp only
    rw [hh.entityAffix]
    cases ax with
    | none => rfl
    | some a =>
      cases ay with
      | none => rfl
      | some b => exact absurd ((headerRow?_affix hy).trans (headerRow?_affix hx).symm) same

/-- **Header rows.** Their order does not matter. -/
theorem takeHeader_perm {hs hs' : List Row} (p : hs.Perm hs')
    (header : ∀ r ∈ hs, headerRow? r.head ≠ none) (rest : List Row) {h h' : Header}
    (hh : h.Alike h') :
    Follows SameHeader (takeHeader h (hs ++ rest)) (takeHeader h' (hs' ++ rest)) := by
  have same : ∀ rows : List Row, List.Forall₂ Row.Alike rows rows := fun rows =>
    List.forall₂_same.2 fun _ _ => rfl
  induction p generalizing h h' with
  | nil => exact takeHeader_follows hh (same rest)
  | cons x _ ih =>
    rw [List.forall_mem_cons] at header
    obtain ⟨⟨kind, affix⟩, hx⟩ := Option.ne_none_iff_exists'.1 header.1
    rw [List.cons_append, List.cons_append, takeHeader, takeHeader, hx]
    dsimp only
    rw [hh.contains]
    split
    · exact .error
    · exact ih header.2 (hh.insert kind rfl affix)
  | swap x y l =>
    exact takeHeader_swap x y (l ++ rest) hh (header x (by simp)) (header y (by simp))
  | trans p _ ih₁ ih₂ =>
    exact ((ih₁ header (.refl h)).trans
      (ih₂ (fun r hr => header r (p.mem_iff.2 hr)) hh)).imp SameHeader.trans

end TypedTables
