/-!
# Escapes in cell texts

A backslash in a cell of type STRING begins an escape: one of ten single letters or
marks, or `u` and four hexadecimal digits for a character by its code point. Any other
character after a backslash, and a backslash at the end, stand as they are written; so
does the escape of a surrogate, which is the code point of no character here (see `charOfHex?`).
-/
namespace TypedTables.Text

/-- The escapes of one character, with what they stand for. -/
def simpleEscapes : List (Char × Char) :=
  [('n', '\n'), ('t', '\t'), ('r', '\r'), ('a', '\x07'), ('b', '\x08'), ('f', '\x0c'),
   ('v', '\x0b'), ('\\', '\\'), ('"', '"'), ('\'', '\'')]

def simpleEscape? (c : Char) : Option Char := simpleEscapes.lookup c

/-- The value of a hexadecimal digit of either case. -/
def hexValue? (c : Char) : Option Nat :=
  if '0' ≤ c ∧ c ≤ '9' then some (c.toNat - '0'.toNat)
  else if 'a' ≤ c ∧ c ≤ 'f' then some (c.toNat - 'a'.toNat + 10)
  else if 'A' ≤ c ∧ c ≤ 'F' then some (c.toNat - 'A'.toNat + 10)
  else none

/-- The character whose code point four hexadecimal digits give. A surrogate is none, so that its
escape stands as written. This deviates from `_replace_escape`, which decodes it into half a
character; texts hold no such thing here. -/
def charOfHex? (a b c d : Char) : Option Char := do
  let a ← hexValue? a
  let b ← hexValue? b
  let c ← hexValue? c
  let d ← hexValue? d
  let n := ((a * 16 + b) * 16 + c) * 16 + d
  if n.isValidChar then some (Char.ofNat n) else none

/-- Replace every escape by the character it stands for. mirrors `decode_escapes` -/
def decodeEscapes : List Char → List Char
  | '\\' :: 'u' :: a :: b :: c :: d :: rest =>
    match charOfHex? a b c d with
    | some x => x :: decodeEscapes rest
    | none => '\\' :: 'u' :: decodeEscapes (a :: b :: c :: d :: rest)
  | '\\' :: c :: rest =>
    match simpleEscape? c with
    | some x => x :: decodeEscapes rest
    | none => '\\' :: c :: decodeEscapes rest
  | c :: rest => c :: decodeEscapes rest
  | [] => []

/-- The text with its escapes replaced. -/
def unescaped (s : String) : String := String.ofList (decodeEscapes s.toList)

end TypedTables.Text
