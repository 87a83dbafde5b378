import LiterateEdit.Markdown.Container
import LiterateEdit.Markdown.Definition
import LiterateEdit.Markdown.Html
import LiterateEdit.Markdown.Leaf
import LiterateEdit.Markdown.Table

/-!
# What ends a block

Some constructs end the block before them without an empty line between. Which ones do depends on
the block: a list item is ended by fewer than a block quote, and a paragraph and a definition also
by a table. Only a paragraph is choosy about list items.
-/

namespace LiterateEdit.Markdown

/-- The block that a line would go on with. -/
inductive Ongoing where
  /-- A paragraph. -/
  | paragraph
  /-- A link reference definition. -/
  | definition
  /-- A block quote or a table. -/
  | quote
  /-- A list. -/
  | list
  deriving DecidableEq

/-- Does a line open a block that ends the ongoing one? The lines behind it are given too. -/
def interrupts (o : Ongoing) (c : Context) (l : Line) (rest : List Line) : Bool :=
  (FenceMark.ofLine? c l).isSome || isQuote c l || isBreak c l ||
    (o != .list &&
      ((ListMark.ofLine? (o == .paragraph) c l).isSome || isHeading c l ||
        match HtmlKind.ofLine? c l with
        | none => false
        | some k => k != .tag)) ||
    ((o == .paragraph || o == .definition) &&
      match rest with
      | [] => false
      | next :: _ => (tableColumns? c l next).isSome)

/-- How many lines go on with a paragraph. Lines indented like code, and lines that a block quote
has found to go on with a paragraph, do so unseen. -/
def paragraphExtent (c : Context) : List Line → Nat
  | [] => 0
  | l :: rest =>
    if l.isEmpty || (!l.isCode c && 0 ≤ l.indent && interrupts .paragraph c l rest) then 0
    else paragraphExtent c rest + 1

/-- How many lines go on with a heading up to its underline, if there is one. -/
def underlinedExtent? (c : Context) : List Line → Option Nat
  | [] => none
  | l :: rest =>
    if l.isEmpty then none
    else if !l.isCode c && !l.isOutdented c && isUnderline l then some 1
    else if !l.isCode c && 0 ≤ l.indent && interrupts .paragraph c l rest then none
    else (underlinedExtent? c rest).map (· + 1)

end LiterateEdit.Markdown
