import TypedTables.Yaml.Node
import TypedTables.Yaml.Token
/-!
# YAML documents

From the tokens of a file to its value. Keys are scalars. Anchors, tags, directives, block
scalars and merged mappings are not known here: a file with one of them is refused.
-/
namespace TypedTables.Yaml

/-! ## Reading tokens

The number bounds the depth and the length of the collections that are read. -/

mutual

/-- The value at the front of tokens. Items may stand alone, as in a mapping whose items are
indented no deeper than its keys. The marks `=` and `<<` are no values. -/
def node? : Nat → Bool → List Token → Option (Node × List Token)
  | 0, _, _ => none
  | n + 1, mayBeItems, tokens =>
    match tokens with
    | .plain s :: r => if s = "=" ∨ s = "<<" then none else some (.scalar (.ofPlain s), r)
    | .quoted s :: r => some (.scalar (.text s), r)
    | .blockList :: r => (blockItems? n r).map fun p => (.list p.1, p.2)
    | .blockMapping :: r => (blockEntries? n r).map fun p => (.ofEntries p.1, p.2)
    | .openList :: r => (flowItems? n true r).map fun p => (.list p.1, p.2)
    | .openMapping :: r => (flowEntries? n true r).map fun p => (.ofEntries p.1, p.2)
    | .item :: r => if mayBeItems then (looseItems? n (.item :: r)).map fun p => (.list p.1, p.2)
      else none
    | _ => none

/-- The value at the front of tokens, or nothing before one of some tokens. -/
def nodeBefore? : Nat → Bool → List Token → List Token → Option (Node × List Token)
  | 0, _, _, _ => none
  | n + 1, mayBeItems, stops, tokens =>
    match tokens with
    | [] => none
    | t :: r => if stops.contains t then some (.scalar .null, t :: r) else node? n mayBeItems (t :: r)

/-- The key at the front of tokens. -/
def keyBefore? : Nat → List Token → List Token → Option (Scalar × List Token)
  | 0, _, _ => none
  | n + 1, stops, tokens =>
    match tokens with
    | .plain "=" :: r => some (.text "=", r)
    | tokens =>
      match nodeBefore? n true stops tokens with
      | some (.scalar s, r) => some (s, r)
      | _ => none

/-- The value after a key, which may be missing. -/
def valueBefore? : Nat → Bool → List Token → List Token → Option (Node × List Token)
  | 0, _, _, _ => none
  | n + 1, mayBeItems, stops, tokens =>
    match tokens with
    | .value :: r => nodeBefore? n mayBeItems stops r
    | r => some (.scalar .null, r)

/-- The items of a block up to its end. -/
def blockItems? : Nat → List Token → Option (List Node × List Token)
  | 0, _ => none
  | n + 1, tokens =>
    match tokens with
    | .item :: r => do
      let (item, r) ← nodeBefore? n false [.item, .blockEnd] r
      let (items, r) ← blockItems? n r
      some (item :: items, r)
    | .blockEnd :: r => some ([], r)
    | _ => none

/-- Items that are no block of their own. -/
def looseItems? : Nat → List Token → Option (List Node × List Token)
  | 0, _ => none
  | n + 1, tokens =>
    match tokens with
    | .item :: r => do
      let (item, r) ← nodeBefore? n false [.item, .key, .value, .blockEnd] r
      let (items, r) ← looseItems? n r
      some (item :: items, r)
    | r => some ([], r)

/-- The entries of a block up to its end. -/
def blockEntries? : Nat → List Token → Option (List (Scalar × Node) × List Token)
  | 0, _ => none
  | n + 1, tokens =>
    match tokens with
    | .key :: r => do
      let stops := [.key, .value, .blockEnd]
      let (key, r) ← keyBefore? n stops r
      let (node, r) ← valueBefore? n true stops r
      let (entries, r) ← blockEntries? n r
      some ((key, node) :: entries, r)
    | .blockEnd :: r => some ([], r)
    | _ => none

/-- The items of a flow list up to its bracket. An entry of a mapping may stand alone. -/
def flowItems? : Nat → Bool → List Token → Option (List Node × List Token)
  | 0, _, _ => none
  | n + 1, isFirst, tokens =>
    match tokens with
    | .closeList :: r => some ([], r)
    | tokens => do
      let r ← if isFirst then some tokens else afterComma? tokens
      match r with
      | .closeList :: r => some ([], r)
      | .key :: r => do
        let (key, r) ← keyBefore? n [.value, .comma, .closeList] r
        let (node, r) ← valueBefore? n false [.comma, .closeList] r
        let (items, r) ← flowItems? n false r
        some (.ofEntries [(key, node)] :: items, r)
      | r => do
        let (item, r) ← node? n false r
        let (items, r) ← flowItems? n false r
        some (item :: items, r)

/-- The entries of a flow mapping up to its brace. A key may stand alone. -/
def flowEntries? : Nat → Bool → List Token → Option (List (Scalar × Node) × List Token)
  | 0, _, _ => none
  | n + 1, isFirst, tokens =>
    match tokens with
    | .closeMapping :: r => some ([], r)
    | tokens => do
      let r ← if isFirst then some tokens else afterComma? tokens
      match r with
      | .closeMapping :: r => some ([], r)
      | .key :: r => do
        let (key, r) ← keyBefore? n [.value, .comma, .closeMapping] r
        let (node, r) ← valueBefore? n false [.comma, .closeMapping] r
        let (entries, r) ← flowEntries? n false r
        some ((key, node) :: entries, r)
      | r => do
        let (key, r) ← keyBefore? n [] r
        let (entries, r) ← flowEntries? n false r
        some ((key, .scalar .null) :: entries, r)

/-- The tokens after a comma. -/
def afterComma? : List Token → Option (List Token)
  | .comma :: r => some r
  | _ => none

end

/-! ## Documents -/

/-- The value of a document from the tokens of its file. -/
def Node.ofTokens? (tokens : List Token) : Option Node := do
  let bound := 4 * tokens.length + 4
  let (node, rest) ← match tokens with
    | [] => some (.scalar .null, [])
    | [.documentStart] => some (.scalar .null, [])
    | .documentStart :: r => nodeBefore? bound false [.documentStart, .documentEnd] r
    | tokens => node? bound false tokens
  if rest.all (· = .documentEnd) then some node else none

/-- Whether a document may hold a character. -/
def isAllowed (c : Char) : Bool :=
  Text.inRanges [(0x09, 0x0A), (0x0D, 0x0D), (0x20, 0x7E), (0x85, 0x85), (0xA0, 0xFFFD),
    (0x10000, 0x10FFFF)] c.toNat

/-- Read a document. A byte order mark at its start is no part of it. -/
def Node.ofText? (s : List Char) : Option Node :=
  let s := if s.head? = some '\ufeff' then s.drop 1 else s
  if s.all isAllowed then (tokens? s).bind Node.ofTokens? else none

end TypedTables.Yaml
