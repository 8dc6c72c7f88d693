/-!
# Words of a command line

The words of a command line are options and arguments. A long option has its value after an
equals sign or in the next word; short options may stand together in one word, and the last
of them may have its value there. After two hyphens all words are arguments.

Results:
* `read?_arguments`: words that are no options are arguments.
-/
namespace TypedTables.CommandLine

/-- An option with its spellings, the first of which is its name. -/
structure Known where
  name : String
  short : Option Char := none
  takesValue : Bool := false
  deriving DecidableEq, Repr

/-- An option that is given, by its name, with its value if it takes one. -/
structure Given where
  name : String
  value : String := ""
  deriving DecidableEq, Repr

/-- What a word says: options, the last of which may still need a value. -/
structure Said where
  options : List Given := []
  pending : Option String := none
  deriving DecidableEq, Repr

/-- Whether a word is made of options. -/
def isOptions (word : List Char) : Bool := word.head? == some '-' && 1 < word.length

/-- Read a long option. -/
def readLong? (known : List Known) (word : List Char) : Option Said := do
  let name := String.ofList (word.takeWhile (· ≠ '='))
  let option ← known.find? fun k => k.name = name
  match option.takesValue, word.dropWhile (· ≠ '=') with
  | true, '=' :: value => some { options := [{ name, value := String.ofList value }] }
  | true, _ => some { pending := some name }
  | false, [] => some { options := [{ name }] }
  | false, _ :: _ => none

/-- Read the letters of short options. -/
def readShort? (known : List Known) : List Char → Option Said
  | [] => some {}
  | c :: cs => do
    let option ← known.find? fun k => k.short = some c
    if option.takesValue then
      if cs = [] then some { pending := some option.name }
      else some { options := [{ name := option.name, value := String.ofList cs }] }
    else do
      let said ← readShort? known cs
      some { said with options := { name := option.name } :: said.options }

/-- Read a word of options. -/
def readOptions? (known : List Known) (word : List Char) : Option Said :=
  match word with
  | '-' :: '-' :: _ => readLong? known word
  | _ => readShort? known (word.drop 1)

/-- Options and arguments. -/
structure Words where
  options : List Given := []
  arguments : List String := []
  deriving DecidableEq, Repr

/-- Read a command line. With `stops`, the first argument ends the options. -/
def Words.read? (known : List Known) (stops : Bool) : List String → Option Words
  | [] => some {}
  | word :: rest =>
    if word = "--" then some { arguments := rest }
    else if isOptions word.toList then
      match readOptions? known word.toList, rest with
      | none, _ => none
      | some ⟨options, none⟩, rest =>
        (Words.read? known stops rest).map fun w => { w with options := options ++ w.options }
      | some ⟨_, some _⟩, [] => none
      | some ⟨options, some name⟩, value :: rest =>
        (Words.read? known stops rest).map fun w =>
          { w with options := options ++ { name, value } :: w.options }
    else if stops then some { arguments := word :: rest }
    else (Words.read? known stops rest).map fun w => { w with arguments := word :: w.arguments }

theorem Words.read?_arguments (known : List Known) (stops : Bool) {words : List String}
    (h : ∀ w ∈ words, isOptions w.toList = false ∧ w ≠ "--") :
    Words.read? known stops words = some { arguments := words } := by
  induction words with
  | nil => rfl
  | cons w rest ih =>
    have hw := h w (by simp)
    have ih := ih fun v hv => h v (by simp [hv])
    unfold Words.read?
    cases stops <;> simp [hw, ih]

/-- Whether an option is given. -/
def Words.has (w : Words) (name : String) : Bool := w.options.any fun g => g.name = name

/-- The value of an option; the last one counts. -/
def Words.value? (w : Words) (name : String) : Option String :=
  (w.options.reverse.find? fun g => g.name = name).map Given.value

/-- Which of two opposite options is given last. -/
def Words.choice? (w : Words) (yes no : String) : Option Bool :=
  (w.options.reverse.find? fun g => g.name = yes || g.name = no).map fun g => g.name = yes

end TypedTables.CommandLine
