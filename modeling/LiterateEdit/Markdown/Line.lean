import LiterateEdit.Text.Lines

/-!
# Lines of a Markdown document

Markdown is read line by line. A container (a block quote or a list item) takes its marker off the
start of each of its lines and reads the rest as lines of its own, so a line here is what is left of
a line of the document: the characters behind the markers, how many of them lead to the first one
that is not a space or a tab, and how wide that lead is. Tabs reach to the next multiple of four
columns, so a line also remembers the column at which its characters start.

A line that continues a paragraph of a block quote without the quote's marker has the width `-1`.
-/

namespace LiterateEdit.Markdown

/-- What is left of a line of the document in a container. -/
structure Line where
  /-- The number of the line in the document. -/
  number : Nat
  /-- The characters behind the markers of the containers. -/
  chars : Text
  /-- How many characters stand before the content. -/
  shift : Nat
  /-- How wide they are; `-1` for a line that only continues a paragraph. -/
  indent : Int
  /-- The column at which the characters start, as far as tabs are concerned. -/
  column : Nat
  /-- Does a line feed end the line? -/
  terminated : Bool
  deriving DecidableEq

/-- Is `c` a space or a tab? -/
def isGap (c : Char) : Bool := c = ' ' || c = '\t'

/-- The column behind `c`, counted from a column that lies `start` columns to the right. -/
def advance (start width : Nat) (c : Char) : Nat :=
  if c = '\t' then width + (4 - (width + start) % 4) else width + 1

/-- The number of spaces and tabs that lead a text and their width, from the column `start` on. -/
def lead (start width : Nat) : Text → Nat × Nat
  | [] => (0, width)
  | c :: t =>
    if isGap c then
      let (n, w) := lead start (advance start width c) t
      (n + 1, w)
    else (0, width)

namespace Line

/-- The content of a line. -/
def body (l : Line) : Text := l.chars.drop l.shift

/-- Has the line no content? -/
def isEmpty (l : Line) : Bool := l.body.isEmpty

/-- The content with the line feed, if there is one. -/
def bodyWithFeed (l : Line) : Text := if l.terminated then l.body ++ ['\n'] else l.body

/-- A line of the document itself. -/
def ofText (number : Nat) (terminated : Bool) (t : Text) : Line :=
  let (n, w) := lead 0 0 t
  ⟨number, t, n, w, 0, terminated⟩

/-- The lines of the pieces between line feeds; a last piece without content is no line. -/
def ofPieces (number : Nat) : List Text → List Line
  | [] => []
  | [t] => if t.all isGap then [] else [ofText number false t]
  | t :: u :: rest => ofText number true t :: ofPieces (number + 1) (u :: rest)

/-! ### Taking an indentation off -/

/-- What is left of characters when `n` columns are taken off, `width` of which are gone already.
The first `mask` characters belong to markers and count as spaces. A tab that reaches beyond the
columns to take leaves spaces. -/
def dropColumns (column n : Nat) : Nat → Nat → Text → Text
  | _, width, [] => List.replicate (width - n) ' '
  | mask, width, c :: t =>
    if width < n ∧ (isGap c ∨ 0 < mask) then
      dropColumns column n (mask - 1) (if c = '\t' then advance column width c else width + 1) t
    else List.replicate (width - n) ' ' ++ c :: t

/-- The characters of a line less an indentation of `n` columns, with the line feed. -/
def outdented (n : Nat) (l : Line) : Text :=
  dropColumns l.column n l.shift 0 l.chars ++ if l.terminated then ['\n'] else []

end Line

/-- The lines of a document. Line feeds, carriage returns and pairs of both end a line, and the null
character is replaced. -/
def lines (t : Text) : List Line :=
  let clean := (Text.unixNewlines t).map fun c => if c = '\x00' then '\ufffd' else c
  Line.ofPieces 0 (Text.feedPieces clean)

end LiterateEdit.Markdown
