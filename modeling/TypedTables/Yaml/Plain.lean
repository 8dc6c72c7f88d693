import TypedTables.Yaml.Break
/-!
# Plain scalars

A scalar without quotes is made of words. It ends before a colon that ends a key, before a
comment, before a line that is indented too little, and in a flow collection before the
marks of the collection.

Results:
* `append_takeWord`: cutting off a word loses nothing.
-/
namespace TypedTables.Yaml

/-- The characters that have a meaning of their own in flow collections. -/
def isFlowMark (c : Char) : Bool := c ∈ [',', '[', ']', '\x7b', '\x7d']

/-- The characters with which no plain scalar starts. -/
def isIndicator (c : Char) : Bool :=
  isFlowMark c || c ∈ ['#', '&', '*', '!', '|', '>', '\'', '"', '%', '@', '\x60', ' ', '\t'] ||
    isBreak c

/-- Whether a plain scalar starts a text. -/
def startsPlain (inFlow : Bool) : List Char → Bool
  | [] => false
  | c :: cs =>
    if c = '-' ∨ c = '?' ∨ c = ':' then !endsWord cs && (c = '-' || !inFlow) else !isIndicator c

/-- Whether a colon before a text ends a key. -/
def endsKey (inFlow : Bool) (s : List Char) : Bool :=
  endsWord s || inFlow && s.head?.any isFlowMark

/-- Cut off a word. -/
def takeWord (inFlow : Bool) : List Char → List Char × List Char
  | [] => ([], [])
  | c :: cs =>
    if endsWord (c :: cs) ∨ c = ':' ∧ endsKey inFlow cs ∨ inFlow ∧ (c = '?' ∨ isFlowMark c) then
      ([], c :: cs)
    else
      let (s, r) := takeWord inFlow cs
      (c :: s, r)

theorem append_takeWord (inFlow : Bool) (s : List Char) :
    (takeWord inFlow s).1 ++ (takeWord inFlow s).2 = s := by
  induction s with
  | nil => simp [takeWord]
  | cons c cs ih =>
    unfold takeWord
    split
    · simp
    · simpa using ih

/-- What is between two words of a scalar. -/
structure Gap where
  /-- what it stands for; nothing, if the scalar cannot go on after it -/
  text : List Char
  rest : List Char
  /-- the column of the next word, if it is on another line -/
  column : Option Nat := none

/-- Cut off a gap. -/
def takeGap (s : List Char) : Gap :=
  let spaces := s.takeWhile (· == ' ')
  match s.drop spaces.length with
  | [] => ⟨spaces, [], none⟩
  | c :: r =>
    if isBreak c then
      let (breaks, column, rest) := takeBreaks (· == ' ') 0 r
      ⟨(breaks.map (folded c)).getD [], rest, some column⟩
    else ⟨spaces, c :: r, none⟩

/-- Whether a scalar goes on after a gap. -/
def Gap.goesOn (g : Gap) (inFlow : Bool) (indent : Nat) : Bool :=
  !g.text.isEmpty && g.rest.head? != some '#' && (inFlow || g.column.all fun c => indent ≤ c) &&
    !(takeWord inFlow g.rest).1.isEmpty

/-- The plain scalar at the front of a text, the rest of the text, and whether the rest starts
on another line. Further lines are indented by `indent` at least. -/
def takePlain (inFlow : Bool) (indent : Nat) (s : List Char) : List Char × List Char × Bool :=
  let (word, rest) := takeWord inFlow s
  let g := takeGap rest
  if g.goesOn inFlow indent ∧ g.rest.length < s.length then
    let (more, rest, crosses) := takePlain inFlow indent g.rest
    (word ++ g.text ++ more, rest, crosses)
  else (word, g.rest, g.column.isSome)
termination_by s.length
decreasing_by rename_i h; exact h.2

end TypedTables.Yaml
