import TypedTables.Text.Blank
import TypedTables.Text.Split
/-!
# Lines

A line of a table source is noise (blank, or a comment), a directive, or content: cells
between tabs, each without the blanks and the quotation marks around it.
-/
namespace TypedTables

open TypedTables.Text (trim dropEndWhile isBlankText splitOn)

/-- The text of a cell: blanks are dropped at both ends, then either a pair of double
quotes around the text or one single quote before it. mirrors `_clean_cell` -/
def cleanCell (s : List Char) : List Char :=
  match trim s with
  | [] => []
  | c :: r =>
    if c = '"' ∧ r.getLast? = some '"' then r.dropLast
    else if c = '\'' then r
    else c :: r

/-- Whether a line starts with `#`, also behind an opening quotation mark.
mirrors `_is_comment_line` -/
def isComment : List Char → Bool
  | '#' :: _ => true
  | '"' :: '#' :: _ => true
  | '\'' :: '#' :: _ => true
  | _ => false

/-- A line without the line feeds and carriage returns at its end. -/
def dropLineEnd (s : List Char) : List Char := dropEndWhile (fun c => c == '\r' || c == '\n') s

/-- The cells of a line. -/
def lineCells (s : List Char) : List String :=
  (splitOn '\t' s).map fun cell => String.ofList (cleanCell cell)

/-- What a line is for. -/
inductive Line where
  | noise
  | directive (cells : List String)
  | content (cells : List String)
  deriving DecidableEq, Repr

/-- Tell what a line is for. -/
def Line.of (line : String) : Line :=
  let s := dropLineEnd line.toList
  if isBlankText s ∨ isComment s then .noise
  else
    let cells := lineCells s
    if (cells.head?.any fun c => c.toList.head? = some '@') then .directive cells
    else .content cells

/-- A content line and its number in the source. A row has at least one cell. -/
structure Row where
  line : Nat
  cells : List String
  cells_ne_nil : cells ≠ []
  deriving DecidableEq, Repr

/-- The row of a line, unless all of its cells are empty. -/
def Row.ofCells? (line : Nat) (cells : List String) : Option Row :=
  if h : cells.all (· = "") then none else some ⟨line, cells, fun e => h (by rw [e]; rfl)⟩

theorem Row.cells_of_ofCells? {line : Nat} {cells : List String} {row : Row}
    (h : ofCells? line cells = some row) : row.cells = cells := by
  unfold ofCells? at h
  split at h <;> cases h
  rfl

/-- The first cell, which names the row. -/
def Row.head (r : Row) : String := r.cells.head r.cells_ne_nil

/-- The cells after the first. -/
def Row.rest (r : Row) : List String := r.cells.tail

end TypedTables
