import TypedTables.Text.Escape
import TypedTables.Yaml.Break
/-!
# Quoted scalars

A scalar between quotes may go over lines, where blanks around the breaks are dropped. Between
single quotes, two quotes stand for one; between double quotes, a backslash starts an escape.
-/
namespace TypedTables.Yaml

/-- The escapes of one character. -/
def escapes : List (Char × Char) :=
  [('0', '\x00'), ('a', '\x07'), ('b', '\x08'), ('t', '\t'), ('\t', '\t'), ('n', '\n'),
   ('v', '\x0b'), ('f', '\x0c'), ('r', '\r'), ('e', '\x1b'), (' ', ' '), ('"', '"'), ('/', '/'),
   ('\\', '\\'), ('N', '\u0085'), ('_', '\u00a0'), ('L', '\u2028'), ('P', '\u2029')]

/-- The character whose code point hexadecimal digits give. -/
def charOfHex? (digits : List Char) : Option Char := do
  let ds ← digits.mapM Text.hexValue?
  let n := ds.foldl (fun n d => 16 * n + d) 0
  if n.isValidChar then some (Char.ofNat n) else none

def isSpace (c : Char) : Bool := c == ' ' || c == '\t'

/-- Cut off an escape after its backslash. An escaped break stands for nothing. -/
def takeEscape? : List Char → Option (List Char × List Char)
  | 'x' :: a :: b :: r => (charOfHex? [a, b]).map fun c => ([c], r)
  | 'u' :: a :: b :: c :: d :: r => (charOfHex? [a, b, c, d]).map fun c => ([c], r)
  | 'U' :: a :: b :: c :: d :: e :: f :: g :: h :: r =>
    (charOfHex? [a, b, c, d, e, f, g, h]).map fun c => ([c], r)
  | c :: r =>
    if isBreak c then
      match takeBreaks isSpace 0 r with
      | (some breaks, _, rest) => some (breaks, rest)
      | (none, _, _) => none
    else (escapes.lookup c).map fun c => ([c], r)
  | [] => none

/-- Cut off blanks and breaks. -/
def takeSpace? (s : List Char) : Option (List Char × List Char) :=
  let spaces := s.takeWhile isSpace
  match s.drop spaces.length with
  | [] => none
  | c :: r =>
    if isBreak c then
      match takeBreaks isSpace 0 r with
      | (some breaks, _, rest) => some (folded c breaks, rest)
      | (none, _, _) => none
    else some (spaces, c :: r)

/-- Cut off a piece of a scalar between quotes; there is none at the closing quote. -/
def takePiece? (quote : Char) : List Char → Option (Option (List Char) × List Char)
  | [] => none
  | c :: r =>
    if c = quote then
      if quote = '\'' ∧ r.head? = some '\'' then some (some ['\''], r.drop 1) else some (none, r)
    else if isSpace c || isBreak c then (takeSpace? (c :: r)).map fun p => (some p.1, p.2)
    else if quote = '"' ∧ c = '\\' then (takeEscape? r).map fun p => (some p.1, p.2)
    else some (some [c], r)

/-- A text up to the closing quote, and the rest after it. -/
def takeQuoted? (quote : Char) (s : List Char) : Option (List Char × List Char) :=
  match takePiece? quote s with
  | none => none
  | some (none, rest) => some ([], rest)
  | some (some piece, rest) =>
    if rest.length < s.length then
      (takeQuoted? quote rest).map fun p => (piece ++ p.1, p.2)
    else none
termination_by s.length

end TypedTables.Yaml
