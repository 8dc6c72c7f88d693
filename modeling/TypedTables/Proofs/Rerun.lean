import TypedTables.Proofs.Agreement
import TypedTables.Proofs.SoundDraft
/-!
# Runs one after the other

A linker keeps two things between runs, those of runs that failed half-way too: the containers of
the last run, and the values of the compound units that all its runs have worked out. The containers
are emptied before anything is read from them. The values are used, and as long as each is the one
that the unit has, a run cannot tell them from none.

Results:
* `run_of_work`: what is in the containers makes no difference to a run.
* `computes_runSteps`, `run_fst`: the steps of a run do what its tables give with the units of its
  beginning, although they learn on the way.
* `exists_learned_run`: what a run has learned are unit texts worked out, whatever becomes of it.
* `Honest.link`: a run with remembered values gives what a run without them gives.
* `runs_independent`: runs one after the other are runs on new linkers.
-/
namespace TypedTables

/-! ## Remembered values -/

namespace Units.Converter

/-- Every remembered value is the one that the text has as an expression. -/
def Honest (c : Converter) : Prop :=
  ∀ unit q, c.learned.get? unit = some q → c.evaluate unit = .ok q

/-- The same units with nothing remembered. -/
def fresh (c : Converter) : Converter := { c with learned := ∅ }

theorem honest_of_learned {c : Converter} (h : c.learned = ∅) : c.Honest := by
  intro unit q hq
  rw [h] at hq
  cases hq

theorem fresh_learn (c : Converter) (unit : String) : (c.learn unit).fresh = c.fresh := by
  unfold fresh
  rw [learn_sizes, learn_nonlinear]

theorem fresh_afterConversion (c : Converter) (unit : String) (allowCompound : Bool) :
    (c.afterConversion unit allowCompound).fresh = c.fresh := by
  unfold afterConversion
  split
  · exact fresh_learn c unit
  · rfl

theorem fresh_afterAll (c : Converter) (texts : List String) :
    (texts.foldl (fun c unit => c.afterConversion unit) c).fresh = c.fresh := by
  induction texts generalizing c with
  | nil => rfl
  | cons unit texts ih => rw [List.foldl_cons, ih, fresh_afterConversion]

namespace Honest

variable {c : Converter} (h : c.Honest)
include h

theorem learn (unit : String) : (c.learn unit).Honest := by
  intro u q hq
  rw [learn_evaluate]
  unfold Converter.learn at hq
  split at hq
  · exact h u q hq
  · cases he : c.evaluate unit with
    | error e =>
      rw [he] at hq
      exact h u q hq
    | ok value =>
      rw [he] at hq
      dsimp only at hq
      rw [OrderedMap.get?_insert] at hq
      split at hq
      · next hu =>
        cases hq
        rw [← hu, he]
      · exact h u q hq

theorem afterConversion (unit : String) : (c.afterConversion unit).Honest := by
  unfold Converter.afterConversion
  split
  · exact h.learn unit
  · exact h

theorem afterAll (texts : List String) :
    (texts.foldl (fun c unit => c.afterConversion unit) c).Honest := by
  induction texts generalizing c with
  | nil => exact h
  | cons unit texts ih => exact ih (h.afterConversion unit)

/-- A remembered value is what evaluation would give. -/
theorem multiplier : c.multiplier = c.fresh.multiplier := by
  have evaluate : c.fresh.evaluate = c.evaluate := rfl
  funext unit
  have sizes : c.fresh.sizes = c.sizes := rfl
  simp only [Converter.multiplier, evaluate, sizes]
  cases c.sizes.get? unit with
  | some q => rfl
  | none =>
    cases hq : c.learned.get? unit with
    | none => rfl
    | some q =>
      rw [h unit q hq]
      rfl

theorem convert (x : Float) (unit : String) : c.convert x unit = c.fresh.convert x unit := by
  unfold Converter.convert
  rw [h.multiplier]
  rfl

end Honest

end Units.Converter

/-! ## What is learned -/

namespace Linking

/-- Work out units one after the other. -/
def learnAll (l : Linking) (texts : List String) : Linking := texts.foldl learn l

theorem agrees_learnAll (l : Linking) (texts : List String) : (l.learnAll texts).Agrees l := by
  induction texts generalizing l with
  | nil => exact ⟨rfl, fun _ => rfl, fun _ _ => rfl⟩
  | cons unit texts ih =>
    have rest := ih (l.learn unit)
    exact ⟨rest.options, rest.entities,
      fun x u => (rest.convert x u).trans (l.units.convert_afterConversion unit x u)⟩

theorem units_learnAll (l : Linking) (texts : List String) :
    (l.learnAll texts).units = texts.foldl (fun c unit => c.afterConversion unit) l.units := by
  induction texts generalizing l with
  | nil => rfl
  | cons unit texts ih => exact ih (l.learn unit)

/-- The units of columns are worked out up to some column. -/
theorem exists_learnColumns {σ : Type} (resolve : Linking → σ → Column → Except LinkError σ)
    (l : Linking) (s : σ) (columns : List Column) :
    ∃ n, learnColumns resolve l s columns =
      l.learnAll ((columns.take n).map Column.unit) := by
  induction columns generalizing l s with
  | nil => exact ⟨0, rfl⟩
  | cons c columns ih =>
    unfold learnColumns
    dsimp only
    cases resolve (l.learn c.unit) s c with
    | ok s =>
      obtain ⟨n, hn⟩ := ih (l.learn c.unit) s
      exact ⟨n + 1, hn⟩
    | error e => exact ⟨1, rfl⟩

/-- What is learned from a table are unit texts of it. -/
theorem exists_learnTable (l : Linking) (enumerations : OrderedMap String Enumeration)
    (a : Assembly) (d : Draft) :
    ∃ texts ⊆ d.unitTexts, l.learnTable enumerations a d = l.learnAll texts := by
  have columns : ∀ {σ : Type} (resolve : Linking → σ → Column → Except LinkError σ) (s : σ)
      (columns : List Column), ∃ texts ⊆ columns.map Column.unit,
        learnColumns resolve l s columns = l.learnAll texts := fun resolve s columns => by
    obtain ⟨n, hn⟩ := exists_learnColumns resolve l s columns
    exact ⟨_, List.map_subset _ (List.take_subset n columns), hn⟩
  have nothing : ∀ all : List String, ∃ texts ⊆ all, l = l.learnAll texts := fun all =>
    ⟨[], List.nil_subset all, rfl⟩
  unfold learnTable Draft.unitTexts
  cases d.content with
  | grid g => exact ⟨[g.unit], List.Subset.refl _, rfl⟩
  | records kind cs =>
    cases kind with
    | entities => exact columns _ _ cs
    | anonymous => exact columns _ _ cs
    | mod target =>
      dsimp only
      split
      · exact columns _ _ cs
      · exact nothing _
    | enumeration => exact nothing _
    | wikiLookup => exact nothing _

end Linking

/-! ## Steps -/

namespace Linker

/-- What is done computes `x`, and if that succeeds, it leaves a linker of which `k` holds. -/
structure Computes {α : Type} (done : Logged LinkError Unit × Linker) (x : Logged LinkError α)
    (k : α → Linker → Prop) : Prop where
  computed : done.1 = x >>= fun _ => pure ()
  left : ∀ a, x.result = .ok a → k a done.2

namespace Computes

variable {α β : Type} {done : Logged LinkError Unit × Linker} {x : Logged LinkError α}
  {k : α → Linker → Prop}

theorem pure {a : α} {l : Linker} (h : k a l) : Computes (pure (), l) (pure a) k where
  computed := rfl
  left := fun _ ha => Except.ok.inj ha ▸ h

theorem imp {k' : α → Linker → Prop} (h : Computes done x k) (hk : ∀ a l, k a l → k' a l) :
    Computes done x k' where
  computed := h.computed
  left := fun a ha => hk a _ (h.left a ha)

theorem map {f : α → β} {k' : β → Linker → Prop} (h : Computes done x k)
    (hk : ∀ a l, k a l → k' (f a) l) : Computes done (f <$> x) k' where
  computed := by rw [h.computed, bind_map_left]
  left := fun b hb => by
    rw [map_eq_pure_bind, Logged.result_bind, bind_eq_ok] at hb
    obtain ⟨a, ha, ⟨⟩⟩ := hb
    exact hk a _ (h.left a ha)

/-- What comes first and what comes then. -/
theorem goOn {next : Linker → Logged LinkError Unit × Linker} {y : α → Logged LinkError β}
    {k' : β → Linker → Prop} (first : Computes done x k)
    (second : ∀ a l, k a l → Computes (next l) (y a) k') :
    Computes (Linker.goOn done next) (x >>= y) k' := by
  cases hx : x.result with
  | error e =>
    have failed : done.1 = ⟨x.notices, .error e⟩ := by rw [first.computed, Logged.bind_of_error hx]
    have stops : Linker.goOn done next = done := by
      unfold Linker.goOn
      rw [failed]
    rw [stops, Logged.bind_of_error hx]
    exact ⟨failed, fun b hb => nomatch hb⟩
  | ok a =>
    have after := second a done.2 (first.left a hx)
    have goes : Linker.goOn done next =
        (done.1 >>= fun _ => (next done.2).1, (next done.2).2) := by
      unfold Linker.goOn
      rw [first.computed, Logged.bind_of_ok hx]
      rfl
    rw [goes]
    constructor
    · dsimp only
      rw [first.computed, after.computed, bind_assoc, bind_assoc, Logged.bind_of_ok hx,
        Logged.bind_of_ok hx, pure_bind]
    · intro b hb
      rw [Logged.result_bind, hx] at hb
      exact after.left b hb

/-- What is done with what is left is done with what was computed. -/
theorem bind {y : Linker → Logged LinkError β} {z : α → Logged LinkError β}
    (h : Computes done x k) (hz : ∀ a l, k a l → y l = z a) :
    (done.1 >>= fun _ => y done.2) = x >>= z := by
  rw [h.computed, bind_assoc]
  cases hx : x.result with
  | error e => rw [Logged.bind_of_error hx, Logged.bind_of_error hx]
  | ok a => rw [Logged.bind_of_ok hx, Logged.bind_of_ok hx, pure_bind, hz a _ (h.left a hx)]

end Computes

variable {α β : Type}

/-- A step that computes containers from something. -/
theorem computes_step {l : Linker} {s : RunStep} {x : Logged LinkError α} {f : α → Containers}
    (h : l.stepped s = x >>= fun a => pure (f a)) :
    Computes (l.step s) x fun a l' => l' = ⟨l.unitsAfter s, l.options, f a⟩ := by
  unfold step
  dsimp only
  rw [h]
  cases hx : x.result with
  | error e =>
    rw [Logged.bind_of_error hx]
    exact ⟨(Logged.bind_of_error hx _).symm, fun a ha => nomatch hx.symm.trans ha⟩
  | ok a =>
    rw [Logged.bind_of_ok hx]
    constructor
    · rw [Logged.bind_of_ok hx]
      rfl
    · intro b hb
      cases hx.symm.trans hb
      rfl

/-- Steps that are taken for the elements of a list compute what a loop over the list computes. -/
theorem computes_loop {σ : Type} {mk : α → RunStep} {f : σ → List α → Logged LinkError σ}
    {k : σ → Linker → Prop} (nil : ∀ s, f s [] = pure s)
    (cons : ∀ s x rest, f s (x :: rest) = f s [x] >>= fun s => f s rest)
    (step : ∀ s l x, k s l → Computes (l.step (mk x)) (f s [x]) k) {s : σ} {l : Linker}
    (h : k s l) (xs : List α) : Computes (l.steps (xs.map mk)) (f s xs) k := by
  induction xs generalizing s l with
  | nil =>
    rw [nil]
    exact .pure h
  | cons x xs ih =>
    rw [cons]
    exact (step s l x h).goOn fun s' l' h' => ih h'

theorem goOn_goOn (done : Logged LinkError Unit × Linker)
    (f g : Linker → Logged LinkError Unit × Linker) :
    goOn (goOn done f) g = goOn done fun l => goOn (f l) g := by
  obtain ⟨⟨notices, result⟩, l⟩ := done
  cases result with
  | error e => rfl
  | ok u =>
    show goOn (⟨notices ++ (f l).1.notices, (f l).1.result⟩, (f l).2) g =
      (⟨notices ++ (goOn (f l) g).1.notices, (goOn (f l) g).1.result⟩, (goOn (f l) g).2)
    obtain ⟨⟨notices', result'⟩, l'⟩ := f l
    cases result' with
    | error e => rfl
    | ok v =>
      show (Logged.mk (notices ++ notices' ++ (g l').1.notices) (g l').1.result, (g l').2) =
        (Logged.mk (notices ++ (notices' ++ (g l').1.notices)) (g l').1.result, (g l').2)
      rw [List.append_assoc]

theorem steps_append (l : Linker) (xs ys : List RunStep) :
    l.steps (xs ++ ys) = goOn (l.steps xs) fun l => l.steps ys := by
  induction xs generalizing l with
  | nil => rfl
  | cons x xs ih =>
    show goOn (l.step x) (fun l => l.steps (xs ++ ys)) = _
    rw [funext ih]
    exact (goOn_goOn _ _ _).symm

/-! ## Stages -/

section Stages

variable (ordered : List Draft)

/-- The linker has linked these names and has done nothing else. -/
def Named (l : Linker) (n : Names) (l' : Linker) : Prop :=
  l' = ⟨l.units, l.options, ({} : Containers).withNames n⟩

variable {l : Linker}

theorem computes_predefined {n : Names} {l' : Linker} (h : l.Named n l') (predefined : Predefined) :
    Computes (l'.steps (predefined.toList.map fun p => .predefine p.1 p.2))
      (Logged.ofExcept (n.addAllPredefined predefined.toList)) l.Named := by
  refine computes_loop (f := fun n ps => Logged.ofExcept (n.addAllPredefined ps)) (fun _ => rfl)
    (fun n p rest => ?_) (fun n l' p h => ?_) h predefined.toList
  · dsimp only [Names.addAllPredefined]
    cases n.addPredefined p.1 p.2 <;> rfl
  · subst h
    refine computes_step (f := ({} : Containers).withNames) ?_
    show (do
      let n ← Logged.ofExcept (n.addPredefined p.1 p.2)
      pure (({} : Containers).withNames n)) = _
    dsimp only [Names.addAllPredefined]
    cases n.addPredefined p.1 p.2 <;> rfl

theorem computes_define {n : Names} {l' : Linker} (h : l.Named n l') :
    Computes (l'.steps (ordered.map .define)) (Logged.ofExcept (n.addTables ordered)) l.Named := by
  refine computes_loop (f := fun n ds => Logged.ofExcept (n.addTables ds)) (fun _ => rfl)
    (fun n d rest => ?_) (fun n l' d h => ?_) h ordered
  · by_cases hd : d.format.isEnumerated
    · simp only [Names.addTables, hd, if_true]
      cases n.addTable d <;> rfl
    · simp only [Names.addTables, hd]
      rfl
  · subst h
    exact computes_step rfl

theorem computes_extend {n : Names} {l' : Linker} (h : l.Named n l') :
    Computes (l'.steps (ordered.map .extend)) (n.addMods ordered) l.Named := by
  refine computes_loop (f := Names.addMods) (fun _ => rfl) (fun n d rest => ?_)
    (fun n l' d h => ?_) h ordered
  · cases hd : d.target? with
    | none => simp only [Names.addMods, hd, pure_bind]
    | some t =>
      simp only [Names.addMods, hd, bind_assoc]
      refine bind_congr fun p => ?_
      split
      · rw [bind_assoc]
        rfl
      · rfl
  · subst h
    exact computes_step rfl

/-- The linker has resolved tables with these names, on its own units and what it has learned. -/
structure Resolved (start : Linking) (n : Names) (a : Assembly) (l : Linker) : Prop where
  work : l.work = (({} : Containers).withNames n).withAssembly a
  agrees : l.linking.Agrees start

/-- Tables come out as they would if nothing was learned on the way. -/
theorem computes_resolve {start : Linking} {n : Names} {a : Assembly} (h : Resolved start n a l) :
    Computes (l.steps (ordered.map .resolve)) (start.addTables n.enumerations a ordered)
      (Resolved start n) := by
  refine computes_loop (f := start.addTables n.enumerations) (fun _ => rfl)
    (fun a d rest => ?_) (fun a l d h => ?_) h ordered
  · simp only [Linking.addTables, bind_pure]
  · have stepped : l.stepped (.resolve d) = (start.addTables n.enumerations a [d] >>= fun a =>
        pure (l.work.withAssembly a)) := by
      simp only [Linker.stepped, Linking.addTables, bind_pure, h.work]
      rw [h.agrees.addTable d (fun _ => rfl)]
      rfl
    refine (computes_step stepped).imp fun a' l' hl' => ?_
    subst hl'
    obtain ⟨texts, -, learned⟩ :=
      l.linking.exists_learnTable l.work.enumerations l.work.toAssembly d
    have agrees := l.linking.agrees_learnAll texts
    rw [← learned] at agrees
    constructor
    · show l.work.withAssembly a' = _
      rw [h.work]
      rfl
    · exact ⟨h.agrees.options, h.agrees.entities, fun x u =>
        (agrees.convert x u).trans (h.agrees.convert x u)⟩

/-- Names are linked and tables are resolved, one stage on what the stage before has left, in
containers that are empty at the beginning. -/
theorem computes_runSteps (h : l.work = {}) (predefined : Predefined) :
    Computes (l.steps (runSteps ordered predefined))
      (linkNames ordered predefined >>= fun n =>
        (n, ·) <$> Linking.addTables ⟨l.units, l.options, n.entities⟩ n.enumerations
          { info := n.info } ordered)
      fun p l' => Resolved ⟨l.units, l.options, p.1.entities⟩ p.1 p.2 l' := by
  have start : l.Named {} l := congrArg (Linker.mk l.units l.options) h
  unfold runSteps linkNames
  rw [steps_append, bind_assoc]
  refine (computes_predefined start predefined).goOn fun n l₁ h₁ => ?_
  rw [steps_append, bind_assoc]
  refine (computes_define ordered h₁).goOn fun n l₂ h₂ => ?_
  rw [steps_append]
  refine (computes_extend ordered h₂).goOn fun n l₃ h₃ => ?_
  subst h₃
  have nothing : Resolved ⟨l.units, l.options, n.entities⟩ n { info := n.info }
      ⟨l.units, l.options, ({} : Containers).withNames n⟩ :=
    ⟨rfl, ⟨rfl, fun _ => rfl, fun _ _ => rfl⟩⟩
  exact (computes_resolve ordered nothing).map fun a l' h' => h'

end Stages

/-! ## Runs -/

variable (l : Linker) (tables : List Draft) (predefined : Predefined)

/-- Whatever is left in the containers, a run begins with empty ones. -/
theorem run_of_work (work : Containers) :
    ({ l with work } : Linker).run tables predefined = l.run tables predefined := rfl

/-- A run gives what its tables give with the units of its beginning. -/
theorem run_fst : (l.run tables predefined).1 = link l.units l.options tables predefined := by
  unfold run link
  dsimp only
  cases orderTables tables with
  | error e => rfl
  | ok ordered =>
    have done := computes_runSteps ordered (l := l.reset) rfl predefined
    have stored := done.bind
      (y := fun l' => l'.work.toNames.store l.options ordered.length l'.work.toAssembly)
      (z := fun p => p.1.store l.options ordered.length p.2) fun p l' h => by
        rw [h.work]
        rfl
    refine stored.trans ?_
    simp only [bind_assoc, bind_map_left]
    rfl

end Linker

/-! ## What a run leaves behind -/

/-- The unit texts of the table that a step resolves. -/
def RunStep.unitTexts : RunStep → List String
  | .predefine .. => []
  | .define _ => []
  | .extend _ => []
  | .resolve d => d.unitTexts

theorem mem_runSteps_resolve {ordered : List Draft} {predefined : Predefined} {d : Draft} :
    .resolve d ∈ runSteps ordered predefined ↔ d ∈ ordered := by
  simp [runSteps]

namespace Linker

/-- The linker with units worked out since, and with any containers. -/
def Learned (l : Linker) (texts : List String) (l' : Linker) : Prop :=
  l'.units = texts.foldl (fun c unit => c.afterConversion unit) l.units ∧ l'.options = l.options

/-- A step leaves some unit texts of its table worked out, also if it fails. -/
theorem exists_learned_step (l : Linker) (s : RunStep) :
    ∃ texts ⊆ s.unitTexts, l.Learned texts (l.step s).2 := by
  have left : (l.step s).2.units = l.unitsAfter s ∧ (l.step s).2.options = l.options := by
    unfold step
    dsimp only
    split <;> exact ⟨rfl, rfl⟩
  unfold Learned
  rw [left.1, left.2]
  cases s with
  | predefine owner members => exact ⟨[], List.nil_subset _, rfl, rfl⟩
  | define d => exact ⟨[], List.nil_subset _, rfl, rfl⟩
  | extend d => exact ⟨[], List.nil_subset _, rfl, rfl⟩
  | resolve d =>
    obtain ⟨texts, sub, learned⟩ :=
      l.linking.exists_learnTable l.work.enumerations l.work.toAssembly d
    refine ⟨texts, sub, ?_, rfl⟩
    show (l.linking.learnTable l.work.enumerations l.work.toAssembly d).units = _
    rw [learned, Linking.units_learnAll]
    rfl

theorem Learned.append {l l' l'' : Linker} {texts texts' : List String} (h : l.Learned texts l')
    (h' : l'.Learned texts' l'') : l.Learned (texts ++ texts') l'' := by
  refine ⟨?_, h'.2.trans h.2⟩
  rw [List.foldl_append, ← h.1, h'.1]

theorem exists_learned_steps (l : Linker) (steps : List RunStep) :
    ∃ texts ⊆ steps.flatMap RunStep.unitTexts, l.Learned texts (l.steps steps).2 := by
  induction steps generalizing l with
  | nil => exact ⟨[], List.nil_subset _, rfl, rfl⟩
  | cons s steps ih =>
    obtain ⟨texts, sub, learned⟩ := l.exists_learned_step s
    rw [List.flatMap_cons, Linker.steps]
    unfold goOn
    split
    · obtain ⟨texts', sub', learned'⟩ := ih (l.step s).2
      refine ⟨texts ++ texts', List.append_subset.2 ⟨?_, ?_⟩, learned.append learned'⟩
      · exact List.subset_append_of_subset_left _ sub
      · exact List.subset_append_of_subset_right _ sub'
    · exact ⟨texts, List.subset_append_of_subset_left _ sub, learned⟩

/-- A run leaves some unit texts of its tables worked out, also if it fails. -/
theorem exists_learned_run (l : Linker) (tables : List Draft) (predefined : Predefined) :
    ∃ texts ⊆ tables.flatMap Draft.unitTexts, l.Learned texts (l.run tables predefined).2 := by
  unfold run
  dsimp only
  split
  · exact ⟨[], List.nil_subset _, rfl, rfl⟩
  · next ordered ok =>
    obtain ⟨-, rfl⟩ := orderTables_eq_ok_iff.1 ok
    obtain ⟨texts, sub, learned⟩ :=
      l.reset.exists_learned_steps (runSteps (modsLast tables) predefined)
    refine ⟨texts, fun text ht => ?_, learned⟩
    obtain ⟨s, hs, hts⟩ := List.mem_flatMap.1 (sub ht)
    cases s with
    | resolve d => exact List.mem_flatMap.2 ⟨d, mem_modsLast.1 (mem_runSteps_resolve.1 hs), hts⟩
    | predefine owner members => cases hts
    | define d => cases hts
    | extend d => cases hts

end Linker

/-- Remembered values make no difference to a run. -/
theorem Units.Converter.Honest.link {units : Units.Converter} (h : units.Honest)
    (options : LinkOptions) (tables : List Draft) (predefined : Predefined) :
    link units options tables predefined = link units.fresh options tables predefined := by
  have agrees : ∀ n : Names, Linking.Agrees ⟨units, options, n.entities⟩
      ⟨units.fresh, options, n.entities⟩ := fun n =>
    ⟨rfl, fun _ => rfl, fun x u => h.convert x u⟩
  have tables : ∀ (n : Names) (ordered : List Draft),
      Linking.addTables ⟨units, options, n.entities⟩ n.enumerations { info := n.info } ordered =
        Linking.addTables ⟨units.fresh, options, n.entities⟩ n.enumerations { info := n.info }
          ordered := fun n ordered => (agrees n).addTables (fun _ => rfl) _ ordered
  simp only [TypedTables.link, tables]

namespace Linker

/-- A new linker with the same units and options. -/
def fresh (l : Linker) : Linker where
  units := l.units.fresh
  options := l.options

theorem Learned.fresh {l l' : Linker} {texts : List String} (h : l.Learned texts l') :
    l'.fresh = l.fresh := by
  unfold Linker.fresh
  rw [h.1, h.2, l.units.fresh_afterAll texts]

theorem Learned.honest {l l' : Linker} {texts : List String} (h : l.Learned texts l')
    (honest : l.units.Honest) : l'.units.Honest := by
  rw [h.1]
  exact honest.afterAll texts

end Linker

/-- **Reruns.** Runs one after the other, some of which may fail, are each what they would be on a
new linker, which remembers nothing and has done nothing. -/
theorem runs_independent (l : Linker) (honest : l.units.Honest)
    (jobs : List (List Draft × Predefined)) :
    l.runs jobs = jobs.map fun job => (l.fresh.run job.1 job.2).1 := by
  induction jobs generalizing l with
  | nil => rfl
  | cons job jobs ih =>
    obtain ⟨tables, predefined⟩ := job
    obtain ⟨texts, -, learned⟩ := l.exists_learned_run tables predefined
    show (l.run tables predefined).1 :: (l.run tables predefined).2.runs jobs = _
    rw [List.map_cons, ih _ (learned.honest honest), learned.fresh, l.run_fst, l.fresh.run_fst,
      honest.link]
    rfl

/-- A boat whose harbour is not defined. -/
def Draft.boat : List Draft := readAll [
  ("Boat", ["@DB_ENTITIES", "boat\tspeed\tharbour", "Type\tFLOAT\tINT", "Unit\tm/s\t",
    "raft\t3\tpier"])]

/-- The boat with its harbour. -/
def Draft.harbour : List Draft := boat ++ readAll [("Harbour", ["@ENUMERATION", "pier"])]

/-- A linker that knows two units. -/
def Linker.metreSecond : Linker where
  units := .only [("m", .real 1.0), ("s", .real 1.0)] []

/-- The first run works out a unit, defines the boat and fails. The second uses what is remembered
of the unit, and defines the same boat. -/
theorem harbour_independent :
    Linker.metreSecond.units.Honest ∧
    (Linker.metreSecond.run Draft.boat ∅).1.result.toOption.isSome = false ∧
    (Linker.metreSecond.run Draft.boat ∅).2.units.learned.keys = ["m/s"] ∧
    (Linker.metreSecond.run Draft.boat ∅).2.work.entities.keys = ["raft"] ∧
    (Linker.metreSecond.fresh.run Draft.harbour ∅).1.result.toOption.isSome = true ∧
    Linker.metreSecond.runs [(Draft.boat, ∅), (Draft.harbour, ∅)] =
      [(Linker.metreSecond.fresh.run Draft.boat ∅).1,
        (Linker.metreSecond.fresh.run Draft.harbour ∅).1] := by
  have honest : Linker.metreSecond.units.Honest := Units.Converter.honest_of_learned rfl
  have runs := runs_independent Linker.metreSecond honest [(Draft.boat, ∅), (Draft.harbour, ∅)]
  rw [List.map_cons, List.map_cons, List.map_nil] at runs
  refine ⟨honest, by decide +kernel, by decide +kernel, by decide +kernel, by decide +kernel, ?_⟩
  rw [runs]

/-- In the containers that the first run leaves behind, the steps of the second would fail. -/
example : ((Linker.metreSecond.run Draft.boat ∅).2.steps
    (runSteps Draft.harbour ∅)).1.result.toOption.isSome = false := by decide +kernel

end TypedTables
