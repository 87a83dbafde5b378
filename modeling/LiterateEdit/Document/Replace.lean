import LiterateEdit.Document.Basic

/-!
# Writing a block back

A changed block is written back by replacing the lines between its fences. The new text is given a
line feed at its end and the indentation of the opening fence on each line that is not blank. The
opening line, the closing fence if the last line of the block is one, and everything outside the
block stay as they are.

Lines are cut at all line breaks of Unicode here, so a block whose lines do not lie in the document
is possible, and refused.
-/

namespace LiterateEdit

/-- A block whose lines do not lie in the document it is to be written to. -/
structure OutsideDocument where
  /-- The identity of the block. -/
  identity : Text
  /-- The first line of the block. -/
  first : Int
  /-- The line behind the block. -/
  stop : Int
  deriving DecidableEq

/-- What is told about a block outside the document. -/
def OutsideDocument.message (e : OutsideDocument) : Text :=
  Text.lit "Block " ++ e.identity ++ Text.lit " lines " ++ Text.ofInt e.first ++ Text.lit ".." ++
    Text.ofInt e.stop ++ Text.lit " outside document"

namespace Replace

/-- Is a line a closing fence: at least three backticks, or three tildes, and white space? -/
def isClosingFence (line : Text) : Bool :=
  let t := line.dropWhile Text.isBlank
  match t with
  | [] => false
  | c :: _ =>
    let run := t.takeWhile (· = c)
    (c = '`' || c = '~') && 3 ≤ run.length && (t.drop run.length).all Text.isBlank

/-- A text with a line feed at its end, unless it is empty. -/
def withFeed (t : Text) : Text := if t = [] ∨ t.getLast? = some '\n' then t else t ++ ['\n']

/-- A line with an indentation, unless it is blank. -/
def indentLine (indent line : Text) : Text :=
  if Text.isBlankText line then line else indent ++ line

/-- The lines of a new text under the indentation of an opening line. -/
def newLines (opening new : Text) : List Text :=
  (Text.lines (withFeed new)).map (indentLine (opening.takeWhile (· = ' ')))

/-- The opening line, with a line feed if text follows it. -/
def openingLine (opening new : Text) : Text := if new = [] then opening else withFeed opening

/-- The line from which on a span of lines is kept: its last one if that is a closing fence. -/
def closingAt (lines : List Text) (first stop : Nat) : Nat :=
  if first + 1 < stop ∧ isClosingFence (lines.getD (stop - 1) []) then stop - 1 else stop

/-- The lines of a body with the content of the span from `first` to `stop` replaced. -/
def spliceLines (lines : List Text) (first stop : Nat) (new : Text) : List Text :=
  let opening := lines.getD first []
  lines.take first ++ [openingLine opening new] ++ newLines opening new ++
    lines.drop (closingAt lines first stop)

end Replace

/-- The text `raw`, which ends in `body`, with the content of a span of lines of the body replaced.
The identity is that of the block to blame. -/
def replaceLines (raw body identity : Text) (first stop : Int) (new : Text) :
    Except OutsideDocument Text :=
  let lines := Text.lines body
  if 0 ≤ first ∧ first < stop ∧ stop ≤ lines.length then
    .ok (Text.slice raw 0 ((raw.length : Int) - body.length) ++
      (Replace.spliceLines lines first.toNat stop.toNat new).flatten)
  else .error ⟨identity, first, stop⟩

/-- The document with the text of a block replaced. -/
def Document.replaceBlock (d : Document) (b : Block) (new : Text) : Except OutsideDocument Text :=
  replaceLines d.raw d.body b.identity b.first b.stop new

end LiterateEdit
