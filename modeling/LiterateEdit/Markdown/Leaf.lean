import LiterateEdit.Markdown.Grammar

/-!
# Fences, headings and thematic breaks

The constructs that one line opens and that hold no other blocks.

A **fence** is a run of at least three backticks or tildes; the rest of the line is its info string,
which has no backtick if the run is of backticks. The fence lasts up to a line with a run of the
same character that is at least as long and has nothing but spaces and tabs behind it, or up to the
end of its container.

A **heading** starts with one to six number signs and a gap. A **thematic break** has at least three
asterisks, hyphens or underscores and nothing else but gaps.
-/

namespace LiterateEdit.Markdown

/-! ### Fences -/

/-- An opening fence. -/
structure FenceMark where
  /-- The character of the run. -/
  marker : Char
  /-- How many there are. -/
  length : Nat
  /-- The info string. -/
  info : Text
  deriving DecidableEq

/-- The length of the run of `c` that a text starts with. -/
def runLength (c : Char) (t : Text) : Nat := (t.takeWhile (· = c)).length

/-- The opening fence that a text is. -/
def FenceMark.ofText? : Text → Option FenceMark
  | [] => none
  | c :: t =>
    let n := runLength c (c :: t)
    let info := (c :: t).drop n
    if (c = '`' ∨ c = '~') ∧ 3 ≤ n ∧ ¬(c = '`' ∧ '`' ∈ info) then some ⟨c, n, info⟩ else none

/-- The opening fence of a line. -/
def FenceMark.ofLine? (c : Context) (l : Line) : Option FenceMark :=
  if l.isCode c then none else FenceMark.ofText? l.body

/-- Does the line close the fence? -/
def FenceMark.closedBy (m : FenceMark) (c : Context) (l : Line) : Bool :=
  let n := runLength m.marker l.body
  !l.isCode c && m.length ≤ n && (l.body.drop n).all isGap

/-- How many of the lines behind an opening fence are its content, and whether a closing fence
follows them. The content ends before a line that is outdented, and before an empty line that the
document ends in. -/
def FenceMark.extent (m : FenceMark) (c : Context) : List Line → Nat × Bool
  | [] => (0, false)
  | l :: rest =>
    if (!l.isEmpty && l.isOutdented c) || (l.isEmpty && !l.terminated) then (0, false)
    else if !l.isEmpty && m.closedBy c l then (0, true)
    else
      let (n, closed) := m.extent c rest
      (n + 1, closed)

/-! ### Headings and breaks -/

/-- Is the line a heading? -/
def isHeading (c : Context) (l : Line) : Bool :=
  let n := runLength '#' l.body
  !l.isCode c && 1 ≤ n && n ≤ 6 &&
    match l.body.drop n with
    | [] => true
    | d :: _ => isGap d

/-- Is the line a thematic break? -/
def isBreak (c : Context) (l : Line) : Bool :=
  !l.isCode c &&
    match l.body with
    | [] => false
    | m :: t =>
      (m = '*' || m = '-' || m = '_') && t.all (fun d => d = m || isGap d) && 2 ≤ t.count m

/-- Is the line the underline of a heading? -/
def isUnderline (l : Line) : Bool :=
  match l.body with
  | [] => false
  | m :: t => (m = '-' || m = '=') && (t.dropWhile (· = m)).all isGap

/-- How many of the lines behind a line of indented code go on with it. -/
def codeExtent (c : Context) : List Line → Nat
  | [] => 0
  | l :: rest =>
    if l.isEmpty then
      match codeExtent c rest with
      | 0 => 0
      | n + 1 => n + 2
    else if l.isCode c then codeExtent c rest + 1
    else 0

end LiterateEdit.Markdown
