import TypedTables.Text.Hidden
/-!
# Quoted texts

How a message shows a piece of text: between single quotes, or between double quotes
if the text holds a single quote and no double one. A backslash, the quote in use,
line feed, carriage return and tab are written with a backslash; a character that
does not show is written by its code point in two, four or eight hexadecimal digits.
-/
namespace TypedTables.Text

/-- `n` in lower case hexadecimal, filled up with zeros to `width` digits. -/
def hex (width n : Nat) : List Char := (Nat.toDigits 16 n).leftpad width '0'

/-- The quotation mark for a text. -/
def quoteMark (s : List Char) : Char :=
  if s.contains '\'' && !s.contains '"' then '"' else '\''

/-- One character as it stands between two marks `q`. -/
def quoteChar (q c : Char) : List Char :=
  if c == q || c == '\\' then ['\\', c]
  else if c == '\n' then ['\\', 'n']
  else if c == '\r' then ['\\', 'r']
  else if c == '\t' then ['\\', 't']
  else if isHidden c then
    if c.toNat < 0x100 then '\\' :: 'x' :: hex 2 c.toNat
    else if c.toNat < 0x10000 then '\\' :: 'u' :: hex 4 c.toNat
    else '\\' :: 'U' :: hex 8 c.toNat
  else [c]

/-- The text between quotation marks. -/
def quoted (s : String) : String :=
  let q := quoteMark s.toList
  String.ofList (q :: (s.toList.flatMap (quoteChar q) ++ [q]))

end TypedTables.Text
