import TypedTables.OrderedMap
import TypedTables.Text.Blank
import TypedTables.Text.Escape
/-!
# Files of environment variables

One statement a line: a name, an equals sign and a value. The word `export` may stand before
the name, and a comment after a number sign. A value may stand between single or double
quotes, where it may go over lines; else it ends before a blank and a number sign. A name
alone has no value, which is not the same as an empty one. A statement of another form says
nothing. Values may refer to variables.
-/
namespace TypedTables

/-- The variables of a file; those without a value are listed too. -/
abbrev EnvFile := OrderedMap String (Option String)

namespace EnvFile

open TypedTables.Text (isBlank)

/-- A text up to a quotation mark, and what follows the mark. A backslash and the character
after it belong together, so a mark after one ends nothing. -/
def takeQuoted? (q : Char) : List Char → Option (List Char × List Char)
  | [] => none
  | '\\' :: c :: r => (takeQuoted? q r).map fun p => ('\\' :: c :: p.1, p.2)
  | c :: r => if c = q then some ([], r) else (takeQuoted? q r).map fun p => (c :: p.1, p.2)

/-- Replace the escapes of single characters; between single quotes there are two. -/
def decodeQuoted (q : Char) : List Char → List Char
  | '\\' :: c :: r =>
    match if q = '"' ∨ c = '\\' ∨ c = '\'' then Text.simpleEscape? c else none with
    | some x => x :: decodeQuoted q r
    | none => '\\' :: decodeQuoted q (c :: r)
  | c :: r => c :: decodeQuoted q r
  | [] => []

/-- A value without quotes: up to the blanks before a number sign. -/
def takeBare : List Char → List Char
  | [] => []
  | c :: r => if isBlank c && (r.dropWhile isBlank).head? = some '#' then [] else c :: takeBare r

/-! ## Statements -/

/-- A blank within a line. -/
def isSpace (c : Char) : Bool := isBlank c && c ≠ '\n'

/-- Drop the rest of a line and its end. -/
def dropLine (s : List Char) : List Char := (s.dropWhile (· ≠ '\n')).drop 1

/-- Whether nothing but a comment is left of a line. -/
def isDone (s : List Char) : Bool := (s.dropWhile isSpace).head?.all fun c => c == '#' || c == '\n'

/-- The value after an equals sign, if there is one, and the rest of the text. -/
def value (s : List Char) : Option (List Char) × List Char :=
  match s.dropWhile isSpace with
  | [] => (some [], [])
  | q :: r =>
    if q = '\'' ∨ q = '"' then
      match takeQuoted? q r with
      | some (text, rest) => (some (decodeQuoted q text), rest)
      | none => (none, q :: r)
    else (some (Text.trim (takeBare (s.takeWhile (· ≠ '\n')))), s.dropWhile (· ≠ '\n'))

/-- Drop the word `export` and the blanks after it. -/
def dropExport (s : List Char) : List Char :=
  match s with
  | 'e' :: 'x' :: 'p' :: 'o' :: 'r' :: 't' :: c :: r => if isSpace c then r.dropWhile isSpace else s
  | _ => s

/-- The name at the front of a text. -/
def name? (s : List Char) : Option (List Char × List Char) :=
  match s with
  | '\'' :: r =>
    match r.takeWhile (· ≠ '\''), r.dropWhile (· ≠ '\'') with
    | c :: cs, '\'' :: rest => some (c :: cs, rest)
    | _, _ => none
  | _ =>
    let isName (c : Char) : Bool := c ≠ '=' && c ≠ '#' && !isBlank c
    if s.takeWhile isName = [] then none else some (s.takeWhile isName, s.dropWhile isName)

/-- The variable of the statement at the front of a text, if it says one, and the text after
the line in which the statement ends. -/
def statement (s : List Char) : Option (String × Option String) × List Char :=
  match name? (dropExport s) with
  | none => (none, dropLine s)
  | some (name, rest) =>
    match rest.dropWhile isSpace with
    | '=' :: r =>
      match value r with
      | (some text, rest) =>
        (if isDone rest then some (String.ofList name, some (String.ofList text)) else none,
          dropLine rest)
      | (none, rest) => (none, dropLine rest)
    | rest => (if isDone rest then some (String.ofList name, none) else none, dropLine rest)

/-- The variables of a text before references are replaced. -/
def variablesOf (s : List Char) : List (String × Option String) :=
  if s.all isBlank then []
  else
    let (found, rest) := statement (s.dropWhile isBlank)
    if rest.length < s.length then found.toList ++ variablesOf rest else found.toList
termination_by s.length

/-! ## References

A value may refer to variables: `$` and a name in braces stand for the value of a variable, or
for the text that follows the name after `:-` if there is no such variable. -/

/-- The reference at the front of a text: its name, its default and its length. -/
def reference? : List Char → Option (List Char × List Char × Nat)
  | '$' :: '{' :: r =>
    let name := r.takeWhile fun c => c ≠ '}' && c ≠ ':'
    match r.drop name.length with
    | '}' :: _ => some (name, [], name.length + 3)
    | ':' :: '-' :: r =>
      let default := r.takeWhile (· ≠ '}')
      if default.length < r.length then some (name, default, name.length + default.length + 5)
      else none
    | _ => none
  | _ => none

/-- Replace the references after the first `skipped` characters. -/
def expand (known : String → Option String) (skipped : Nat) : List Char → List Char
  | [] => []
  | c :: r =>
    if 0 < skipped then expand known (skipped - 1) r
    else match reference? (c :: r) with
    | none => c :: expand known 0 r
    | some (name, default, size) =>
      ((known (String.ofList name)).map String.toList).getD default ++ expand known (size - 1) r

/-- The value of a variable that a reference finds: that of the file, else that of the
environment. A variable of the file without a value counts as empty. -/
def lookUp (environment : OrderedMap String String) (f : EnvFile) (name : String) :
    Option String :=
  match f.get? name with
  | some value => some (value.getD "")
  | none => environment.get? name

/-- Drop a byte order mark. -/
def dropMark : List Char → List Char
  | '\ufeff' :: s => s
  | s => s

/-- The variables of a text. References in a value find the variables above it. -/
def ofText (environment : OrderedMap String String) (s : List Char) : EnvFile :=
  (variablesOf (dropMark s)).foldl (fun f v =>
    f.insert v.1 (v.2.map fun text =>
      String.ofList (expand (lookUp environment f) 0 text.toList))) ∅

end EnvFile

end TypedTables
