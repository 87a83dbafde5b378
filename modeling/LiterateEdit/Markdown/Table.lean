import LiterateEdit.Markdown.Grammar
import LiterateEdit.Text.Blank

/-!
# Tables

A table starts with a row of cells between vertical bars and a row of delimiters below it, one for
each cell: hyphens with a colon at either end or both or none. The rows that follow may have any
number of cells; they go on to an empty line, a line that opens another block, or a line that is
outdented or code.
-/

namespace LiterateEdit.Markdown

/-- Can `c` stand in a row of delimiters? -/
def isDelimiterChar (c : Char) : Bool := c = '|' || c = '-' || c = ':'

/-- Do the characters of a text allow it to be a row of delimiters? -/
def looksDelimiting : Text → Bool
  | a :: b :: t =>
    isDelimiterChar a && (isDelimiterChar b || (isGap b && a ≠ '-')) &&
      t.all fun c => isDelimiterChar c || isGap c
  | _ => false

/-- Is the text the delimiter of one column? -/
def isColumnDelimiter (t : Text) : Bool :=
  let t := if t.head? = some ':' then t.drop 1 else t
  let rest := t.dropWhile (· = '-')
  t.head? = some '-' && (rest = [] || rest = [':'])

/-- The number of columns that a row of delimiters has. The piece before the first bar and the one
behind the last may be blank. -/
def delimiterCount? (t : Text) : Option Nat :=
  let cells := (Text.splitOn (· = '|') t).map Text.strip
  let inner := cells.drop 1 |>.dropLast
  if [] ∈ inner ∨ cells.any (fun cell => cell ≠ [] ∧ !isColumnDelimiter cell) then none
  else some (cells.filter (· ≠ [])).length

/-- The cells of a row; a bar behind a backslash does not end a cell, and the backslash goes. -/
def splitCells (cell : Text) (escaped : Bool) : Text → List Text
  | [] => [cell]
  | c :: t =>
    if c = '|' then
      if escaped then splitCells (cell.dropLast ++ ['|']) false t
      else cell :: splitCells [] false t
    else splitCells (cell ++ [c]) (c = '\\') t

/-- The cells of a row without the empty ones before the first bar and behind the last. -/
def rowCells (t : Text) : List Text :=
  let cells := splitCells [] false (Text.strip t)
  let cells := if cells.head? = some [] then cells.drop 1 else cells
  if cells.getLast? = some [] then cells.dropLast else cells

/-- The number of columns of the table that two lines open. -/
def tableColumns? (c : Context) (header delimiters : Line) : Option Nat :=
  if !c.dialect.tables || delimiters.isOutdented c || delimiters.isCode c || header.isCode c
      || !looksDelimiting delimiters.body || '|' ∉ Text.strip header.body then none
  else
    match delimiterCount? delimiters.body with
    | none => none
    | some n => if n ≠ 0 ∧ n = (rowCells header.body).length then some n else none

/-- How many cells may be missing in the rows of a table altogether. -/
def maxMissingCells : Int := 65536

/-- How many of the lines behind the delimiters are rows of the table. `interrupts` says whether a
line opens another block, and `missing` how many cells were missing so far. -/
def tableExtent (c : Context) (interrupts : Line → List Line → Bool) (columns : Nat)
    (missing : Int) : List Line → Nat
  | [] => 0
  | l :: rest =>
    let missing := missing + (columns - (rowCells l.body).length : Int)
    if l.isOutdented c || interrupts l rest || Text.isBlankText l.body || l.isCode c
        || maxMissingCells < missing then 0
    else tableExtent c interrupts columns missing rest + 1

end LiterateEdit.Markdown
