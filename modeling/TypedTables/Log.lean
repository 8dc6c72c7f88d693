/-!
# Notices

What a run reports while it works. `Logged` is a computation that can fail and keeps the
notices of the part that was done; its `result` is the computation without them.

Results:
* `result_bind`, `result_pure`: results compose as the computations do, so notices never
  change an outcome.
* `bind_of_ok`, `bind_of_error`: what follows a computation that succeeds, or fails.
-/
namespace TypedTables

/-- How much a notice matters. -/
inductive Level where
  | trace
  | debug
  | info
  | success
  | warning
  | error
  | critical
  deriving DecidableEq, Repr

namespace Level

def all : List Level := [.trace, .debug, .info, .success, .warning, .error, .critical]

def keyword : Level → String
  | .trace => "TRACE"
  | .debug => "DEBUG"
  | .info => "INFO"
  | .success => "SUCCESS"
  | .warning => "WARNING"
  | .error => "ERROR"
  | .critical => "CRITICAL"

def ofKeyword? (s : String) : Option Level := all.find? (·.keyword == s)

/-- Higher levels matter more. -/
def rank : Level → Nat
  | .trace => 0
  | .debug => 1
  | .info => 2
  | .success => 3
  | .warning => 4
  | .error => 5
  | .critical => 6

theorem rank_injective {a b : Level} (h : a.rank = b.rank) : a = b := by
  cases a <;> cases b <;> simp_all [rank]

end Level

/-- Something that happened in a run. -/
inductive Notice where
  | notParsed (source : String)
  | noRows (source table : String)
  | tableRead (table format : String) (rows fields : Nat)
  | rowsAdded (mod : String) (count : Nat) (target : String)
  | recordsResolved (table : String) (rows fields : Nat)
  | gridResolved (table : String) (rows columns : Nat)
  | modApplied (mod target : String)
  | wikiIgnored (table : String)
  | linked (tables : Nat)
  | overridesLoaded (count : Nat) (path : String)
  | filesRead (count : Nat)
  | envFileMissing (path : String)
  | failed (message : String)
  deriving DecidableEq, Repr

namespace Notice

def level : Notice → Level
  | .notParsed _ => .debug
  | .noRows .. => .warning
  | .tableRead .. => .debug
  | .rowsAdded .. => .debug
  | .recordsResolved .. => .debug
  | .gridResolved .. => .debug
  | .modApplied .. => .debug
  | .wikiIgnored _ => .warning
  | .linked _ => .info
  | .overridesLoaded .. => .debug
  | .filesRead _ => .info
  | .envFileMissing _ => .warning
  | .failed _ => .error

def message : Notice → String
  | .notParsed source => source ++ ": DONT_PARSE, skipped"
  | .noRows source table => source ++ ": table " ++ table ++ " has no content rows"
  | .tableRead table format rows fields =>
    "Preprocessed " ++ table ++ " (" ++ format ++ "): " ++ toString rows ++ " rows, " ++
      toString fields ++ " fields"
  | .rowsAdded mod count target => mod ++ " adds " ++ toString count ++ " rows to " ++ target
  | .recordsResolved table rows fields =>
    "Resolved " ++ table ++ ": " ++ toString rows ++ " rows, " ++ toString fields ++ " fields"
  | .gridResolved table rows columns =>
    "Resolved " ++ table ++ ": " ++ toString rows ++ " x " ++ toString columns ++ " grid"
  | .modApplied mod target => "Applied " ++ mod ++ " to " ++ target
  | .wikiIgnored table => "Wiki lookup disabled, " ++ table ++ " ignored"
  | .linked tables => "Postprocessed " ++ toString tables ++ " tables"
  | .overridesLoaded count path =>
    "Loaded " ++ toString count ++ " unit overrides from " ++ path
  | .filesRead count => "Preprocessed " ++ toString count ++ " table files"
  | .envFileMissing path => ".env file not found: " ++ path ++ " this is ignored"
  | .failed message => message

end Notice

/-- A computation that can fail, with the notices of what was done. -/
structure Logged (ε α : Type) where
  notices : List Notice
  result : Except ε α

namespace Logged

variable {ε α β : Type}

def bind (x : Logged ε α) (f : α → Logged ε β) : Logged ε β :=
  match x.result with
  | .ok a => ⟨x.notices ++ (f a).notices, (f a).result⟩
  | .error e => ⟨x.notices, .error e⟩

instance : Monad (Logged ε) where
  pure a := ⟨[], .ok a⟩
  bind := bind

/-- A computation without notices. -/
def ofExcept (x : Except ε α) : Logged ε α := ⟨[], x⟩

/-- Report something. -/
def tell (n : Notice) : Logged ε Unit := ⟨[n], .ok ()⟩

/-- Rename the failures. -/
def mapError {ε' : Type} (f : ε → ε') (x : Logged ε α) : Logged ε' α :=
  ⟨x.notices, x.result.mapError f⟩

@[simp] theorem result_pure (a : α) : (pure a : Logged ε α).result = .ok a := rfl

@[simp] theorem result_bind (x : Logged ε α) (f : α → Logged ε β) :
    (x >>= f).result = x.result >>= fun a => (f a).result := by
  show (bind x f).result = _
  unfold bind
  cases x.result <;> rfl

/-- What follows a computation that succeeds. -/
theorem bind_of_ok {x : Logged ε α} {a : α} (h : x.result = .ok a) (f : α → Logged ε β) :
    x >>= f = ⟨x.notices ++ (f a).notices, (f a).result⟩ := by
  show bind x f = _
  unfold bind
  rw [h]

/-- Nothing follows a computation that fails. -/
theorem bind_of_error {x : Logged ε α} {e : ε} (h : x.result = .error e) (f : α → Logged ε β) :
    x >>= f = ⟨x.notices, .error e⟩ := by
  show bind x f = _
  unfold bind
  rw [h]

theorem bind_eq_self {x : Logged ε α} {e : ε} (h : x.result = .error e)
    (f : α → Logged ε α) : x >>= f = x := by
  rw [bind_of_error h, ← h]

theorem id_map (x : Logged ε α) : id <$> x = x := by
  cases x with
  | mk notices result =>
    cases result with
    | error e => rfl
    | ok a => exact congrArg (Logged.mk · _) (List.append_nil notices)

theorem bind_assoc {γ : Type} (x : Logged ε α) (f : α → Logged ε β) (g : β → Logged ε γ) :
    x >>= f >>= g = x >>= fun a => f a >>= g := by
  cases hx : x.result with
  | error e => rw [bind_of_error hx, bind_of_error hx, bind_of_error rfl]
  | ok a =>
    rw [bind_of_ok hx, bind_of_ok hx]
    cases ha : (f a).result with
    | error e => rw [bind_of_error ha, bind_of_error rfl]
    | ok b => rw [bind_of_ok ha, bind_of_ok rfl, List.append_assoc]

instance : LawfulMonad (Logged ε) := .mk' _ id_map (fun _ _ => rfl) bind_assoc

@[simp] theorem result_ofExcept (x : Except ε α) : (ofExcept x).result = x := rfl

@[simp] theorem result_tell (n : Notice) : (tell n : Logged ε Unit).result = .ok () := rfl

@[simp] theorem result_mapError {ε' : Type} (f : ε → ε') (x : Logged ε α) :
    (x.mapError f).result = x.result.mapError f := rfl

end Logged

end TypedTables
