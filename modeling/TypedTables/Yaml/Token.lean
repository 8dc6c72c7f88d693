import TypedTables.Yaml.Plain
import TypedTables.Yaml.Quoted
/-!
# Tokens of YAML files

A file is cut into scalars and marks. The indentation of lines shows as marks too: a block
starts where something is indented deeper than the block around it, and ends where something
is indented less. Whether a scalar is a key is only known at the colon after it, on the same
line, so a scanner remembers where a key may have started and puts the marks of the key there.
-/
namespace TypedTables.Yaml

inductive Token where
  | documentStart
  | documentEnd
  | blockList
  | blockMapping
  | blockEnd
  | openList
  | closeList
  | openMapping
  | closeMapping
  /-- the hyphen of an item -/
  | item
  /-- the comma between items -/
  | comma
  | key
  | value
  | plain (s : String)
  | quoted (s : String)
  deriving DecidableEq, Repr

/-- Where a key may have started. -/
structure PossibleKey where
  /-- the number of tokens before it -/
  index : Nat
  /-- whether it has to be a key, as nothing else may stand there -/
  isRequired : Bool
  line : Nat
  column : Nat
  offset : Nat
  deriving DecidableEq, Repr

structure Scanner where
  rest : List Char
  line : Nat := 0
  column : Nat := 0
  offset : Nat := 0
  /-- the number of open flow collections -/
  depth : Nat := 0
  /-- the columns of the open blocks, the innermost first -/
  indents : List Nat := []
  /-- whether a key may start here -/
  allowsKey : Bool := true
  possibleKey : Option PossibleKey := none
  /-- the possible keys around the open flow collections -/
  outerKeys : List (Option PossibleKey) := []
  /-- the last token first -/
  tokens : List Token := []
  count : Nat := 0

namespace Scanner

/-! ## Moving -/

def step (s : Scanner) (c : Char) : Scanner :=
  if isBreak c then { s with line := s.line + 1, column := 0, offset := s.offset + 1 }
  else { s with column := s.column + 1, offset := s.offset + 1 }

/-- Go on to a rest of the text. -/
def moveTo (s : Scanner) (rest : List Char) : Scanner :=
  { (s.rest.take (s.rest.length - rest.length)).foldl step s with rest }

/-- Drop spaces, breaks and comments; whether there is a break. -/
def dropGaps (inComment crosses : Bool) : List Char → Bool × List Char
  | [] => (crosses, [])
  | c :: r =>
    if isBreak c then dropGaps false true r
    else if inComment then dropGaps true crosses r
    else if c = ' ' then dropGaps false crosses r
    else if c = '#' then dropGaps true crosses r
    else (crosses, c :: r)

/-! ## Tokens -/

def push (s : Scanner) (t : Token) : Scanner :=
  { s with tokens := t :: s.tokens, count := s.count + 1 }

/-- Put a token before that with an index. -/
def insert (s : Scanner) (index : Nat) (t : Token) : Scanner :=
  let later := s.count - index
  { s with tokens := s.tokens.take later ++ t :: s.tokens.drop later, count := s.count + 1 }

/-- Take a token of some length. -/
def take (s : Scanner) (t : Token) (length : Nat) : Scanner :=
  (s.moveTo (s.rest.drop length)).push t

/-! ## Blocks -/

/-- End the blocks whose columns are too deep. -/
def endBlocks (s : Scanner) (isTooDeep : Nat → Bool) : Scanner :=
  if s.depth ≠ 0 then s
  else
    let ended := (s.indents.takeWhile isTooDeep).length
    { s with
      indents := s.indents.drop ended
      tokens := List.replicate ended .blockEnd ++ s.tokens
      count := s.count + ended }

/-- Whether something in a column starts a block. -/
def startsBlock (s : Scanner) (column : Nat) : Bool :=
  s.depth == 0 && s.indents.head?.all fun i => i < column

/-- Start a block here, if this is deeper than the block around it. -/
def startBlock (s : Scanner) (t : Token) : Scanner :=
  if s.startsBlock s.column then { s.push t with indents := s.column :: s.indents } else s

/-! ## Keys -/

/-- Forget the possible key; none if it has to be one. -/
def dropKey? (s : Scanner) : Option Scanner :=
  if s.possibleKey.any PossibleKey.isRequired then none else some { s with possibleKey := none }

/-- Remember that a key may start here. -/
def saveKey? (s : Scanner) : Option Scanner :=
  if s.allowsKey then do
    let s ← s.dropKey?
    some { s with possibleKey := some {
      index := s.count
      isRequired := s.depth == 0 && s.indents.head? == some s.column
      line := s.line
      column := s.column
      offset := s.offset } }
  else some s

/-- Whether a possible key is on another line or too long by now. -/
def isStale (s : Scanner) (k : PossibleKey) : Bool := k.line != s.line || 1024 < s.offset - k.offset

/-- Forget stale keys; none if one of them has to be a key. -/
def dropStaleKeys? (s : Scanner) : Option Scanner :=
  if (s.possibleKey :: s.outerKeys).any fun k => k.any fun k => k.isRequired && s.isStale k then none
  else
    let fresh (k : Option PossibleKey) : Option PossibleKey := k.filter fun k => !s.isStale k
    some { s with possibleKey := fresh s.possibleKey, outerKeys := s.outerKeys.map fresh }

/-! ## Reading tokens -/

def takeMarker? (s : Scanner) : Option Scanner := do
  let s ← (s.endBlocks fun _ => true).dropKey?
  let t := if s.rest.head? = some '-' then .documentStart else .documentEnd
  some ({ s with allowsKey := false }.take t 3)

def openCollection? (s : Scanner) (t : Token) : Option Scanner := do
  let s ← s.saveKey?
  some ({ s with
    depth := s.depth + 1
    outerKeys := s.possibleKey :: s.outerKeys
    possibleKey := none
    allowsKey := true }.take t 1)

def closeCollection? (s : Scanner) (t : Token) : Option Scanner := do
  let s ← s.dropKey?
  match s.outerKeys with
  | [] => none
  | k :: ks =>
    some ({ s with
      depth := s.depth - 1
      outerKeys := ks
      possibleKey := k
      allowsKey := false }.take t 1)

def takeComma? (s : Scanner) : Option Scanner := do
  let s ← s.dropKey?
  some ({ s with allowsKey := true }.take .comma 1)

/-- Take a mark that may start a block. -/
def takeBlockMark? (s : Scanner) (block mark : Token) (allowsKey : Bool) : Option Scanner :=
  if s.depth = 0 ∧ !s.allowsKey then none
  else do
    let s ← (s.startBlock block).dropKey?
    some ({ s with allowsKey }.take mark 1)

/-- Take a colon. What may have been a key is one. -/
def takeValue? (s : Scanner) : Option Scanner :=
  match s.possibleKey with
  | none => s.takeBlockMark? .blockMapping .value (s.depth == 0)
  | some k =>
    let t := { s with possibleKey := none, allowsKey := false }.insert k.index .key
    let t := if s.startsBlock k.column then
        { t.insert k.index .blockMapping with indents := k.column :: s.indents }
      else t
    some (t.take .value 1)

def takeQuoted? (s : Scanner) (quote : Char) (text : List Char) : Option Scanner := do
  let s ← s.saveKey?
  let (scalar, rest) ← Yaml.takeQuoted? quote text
  some (({ s with allowsKey := false }.moveTo rest).push (.quoted (String.ofList scalar)))

def takePlain? (s : Scanner) : Option Scanner :=
  if startsPlain (s.depth ≠ 0) s.rest then do
    let s ← s.saveKey?
    let indent := (s.indents.head?.map (· + 1)).getD 0
    let (scalar, rest, crosses) := takePlain (s.depth ≠ 0) indent s.rest
    some (({ s with allowsKey := crosses }.moveTo rest).push (.plain (String.ofList scalar)))
  else none

/-- Take the token at the front of the text. -/
def next? (s : Scanner) : Option Scanner :=
  match s.rest with
  | [] => none
  | c :: r =>
    let inFlow := s.depth ≠ 0
    if s.column = 0 ∧ isMarker s.rest then s.takeMarker?
    else if c = '[' then s.openCollection? .openList
    else if c = ']' then s.closeCollection? .closeList
    else if c = '\x7b' then s.openCollection? .openMapping
    else if c = '\x7d' then s.closeCollection? .closeMapping
    else if c = ',' then s.takeComma?
    else if c = '-' ∧ endsWord r then s.takeBlockMark? .blockList .item true
    else if c = '?' ∧ (inFlow ∨ endsWord r) then s.takeBlockMark? .blockMapping .key (s.depth == 0)
    else if c = ':' ∧ (inFlow ∨ endsWord r) then s.takeValue?
    else if c = '\'' ∨ c = '"' then s.takeQuoted? c r
    else s.takePlain?

/-- Go on to the next token and end the blocks before it. -/
def toToken? (s : Scanner) : Option Scanner := do
  let (crosses, rest) := dropGaps false false s.rest
  let s := s.moveTo rest
  let s := if crosses && s.depth == 0 then { s with allowsKey := true } else s
  let s ← s.dropStaleKeys?
  some (s.endBlocks fun i => s.column < i)

/-- The tokens of a text. -/
def run? (s : Scanner) : Option (List Token) :=
  match s.toToken? with
  | none => none
  | some t =>
    if t.rest = [] then ((t.endBlocks fun _ => true).dropKey?).map fun t => t.tokens.reverse
    else match t.next? with
    | none => none
    | some u => if u.rest.length < s.rest.length then run? u else none
termination_by s.rest.length

end Scanner

/-- Cut a text into tokens. -/
def tokens? (s : List Char) : Option (List Token) := Scanner.run? { rest := s }

end TypedTables.Yaml
