import LiterateEdit.Markdown.Grammar

/-!
# Block quotes and list items

A container is opened by a marker at the start of a line, and its lines are read as lines of their
own.

A line of a **block quote** starts with a greater-than sign; the sign, and a space or one column of
a tab behind it, are taken off (`Line.unquoted`).

A **list item** starts with a bullet, or with up to nine digits and a period or a parenthesis,
followed by a gap or the end of the line. The content of the item starts behind the gap, or one
column behind the marker if the gap is wider than four columns or ends the line; lines that are
indented that far belong to the item.
-/

namespace LiterateEdit.Markdown

/-! ### Block quotes -/

/-- Does the line start with the marker of a block quote? -/
def isQuote (c : Context) (l : Line) : Bool := !l.isCode c && l.body.head? = some '>'

/-- The line of a block quote without the quote's marker. -/
def Line.unquoted (l : Line) : Line :=
  let after := l.body.drop 1
  let width := l.indent.toNat + 1
  let (skip, start, gap) :=
    match after with
    | ' ' :: _ => (1, width + 1 + l.column, 1)
    | '\t' :: _ =>
      if (l.column + width) % 4 = 3 then (1, width + 1 + l.column, 1)
      else (0, width + l.column + 1, 1)
    | _ => (0, width + l.column, 0)
  let chars := after.drop skip
  let (n, w) := lead start 0 chars
  { l with chars := chars, shift := n, indent := w, column := width + gap }

/-- The line of a block quote that has no marker and only continues a paragraph. -/
def Line.continued (l : Line) : Line := { l with indent := -1 }

/-! ### List items -/

/-- The marker of a list item. -/
structure ListMark where
  /-- The number of an ordered item. -/
  number : Option Nat
  /-- The bullet, or the character behind the number. -/
  marker : Char
  /-- How many characters the marker has. -/
  length : Nat
  deriving DecidableEq

/-- Can what stands behind a marker be the content of an item? -/
def opensItem : Text → Bool
  | [] => true
  | c :: _ => isGap c

/-- The bullet that a text starts with. -/
def ListMark.bullet? : Text → Option ListMark
  | [] => none
  | c :: t =>
    if (c = '*' ∨ c = '-' ∨ c = '+') ∧ opensItem t then some ⟨none, c, 1⟩ else none

/-- The number of an ordered item that a text starts with. -/
def ListMark.ordered? (t : Text) : Option ListMark :=
  let digits := t.takeWhile Text.isAsciiDigit
  match t.drop digits.length with
  | [] => none
  | c :: rest =>
    if 1 ≤ digits.length ∧ digits.length ≤ 9 ∧ (c = '.' ∨ c = ')') ∧ opensItem rest then
      some ⟨some (Text.readNat digits), c, digits.length + 1⟩
    else none

/-- The marker of a list item that a text starts with. -/
def ListMark.ofText? (t : Text) : Option ListMark :=
  match ListMark.ordered? t with
  | some m => some m
  | none => ListMark.bullet? t

/-- The marker of the list item that a line opens. A line far to the right of the list around it,
but not far enough for the item it stands in, continues a paragraph. An item that interrupts a
paragraph has the number one, if any, and some content. -/
def ListMark.ofLine? (interrupting : Bool) (c : Context) (l : Line) : Option ListMark :=
  let isContinuation :=
    match c.listBase with
    | none => false
    | some b => 4 ≤ l.indent - b && l.isOutdented c
  if l.isCode c || isContinuation then none
  else
    match ListMark.ofText? l.body with
    | none => none
    | some m =>
      let restricted := interrupting && !l.isOutdented c
      if restricted && ((m.number.getD 1 != 1) || (l.body.drop m.length).all isGap) then none
      else some m

/-- Do two markers belong to one list? -/
def ListMark.sameKind (m n : ListMark) : Bool :=
  m.number.isSome == n.number.isSome && m.marker == n.marker

/-- The first line of a list item without the marker, and the column at which the content of the
item starts. -/
def ListMark.item (m : ListMark) (l : Line) : Line × Nat :=
  let width := l.indent.toNat + m.length
  let after := l.body.drop m.length
  let (n, w) := lead (width + l.column) 0 after
  let gap := if n = after.length ∨ 4 < w then 1 else w
  ({ l with shift := l.shift + m.length + n, indent := width + w }, width + gap)

end LiterateEdit.Markdown
