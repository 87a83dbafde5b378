import LiterateEdit.Block.Extract
import LiterateEdit.Markdown.Interrupt

/-!
# The fences of a Markdown document

A document is a sequence of blocks, and so is the content of a block quote and of a list item. A
block is recognised by its first line, the kinds being tried in a fixed order, and then told how
many of the following lines it takes. Fences are collected; the other leaves matter only for the
lines they take.

`fencesOf` reads the blocks of a container one after another. What it knows of nested containers
comes in as a parameter, so the depth of nesting is bounded by construction: `fencesWithin room`
reads containers in which `room` more levels may be opened. A block quote takes one level, a list
and its item two. Content for which no level is left is not read.
-/

namespace LiterateEdit.Markdown

/-- What reading lines of a container gives: the fences found, and the lines left unread. -/
structure Reading where
  /-- The fences, in order. -/
  fences : List Fence
  /-- The lines behind the container. -/
  left : List Line

/-- A way to read the lines of a container. -/
abbrev Reader := Context → List Line → Reading

/-! ### Block quotes -/

/-- The lines of a block quote among the lines behind its first, as lines of the quote. `afterGap`
says that the line before has no content. -/
def quotedLines (c : Context) (afterGap : Bool) : List Line → List Line
  | [] => []
  | l :: rest =>
    if l.isEmpty then []
    else if l.body.head? = some '>' && !l.isOutdented c then
      let q := l.unquoted
      q :: quotedLines c q.isEmpty rest
    else if afterGap || interrupts .quote c l rest then []
    else l.continued :: quotedLines c false rest

/-- Read a block quote: its fences, and how many lines behind the first it takes. -/
def readQuote (inner : Reader) (c : Context) (l : Line) (rest : List Line) : List Fence × Nat :=
  let q := l.unquoted
  let quoted := q :: quotedLines c q.isEmpty rest
  let r := inner { c with base := 0 } quoted
  (r.fences, quoted.length - r.left.length - 1)

/-! ### Lists -/

/-- Read the items of a list from the one that `l` opens with the marker `m`: the fences, and how
many lines behind the first the list takes. -/
def readItems (inner : Reader) (c : Context) (m : ListMark) (l : Line) (rest : List Line) :
    List Fence × Nat :=
  let (first, base) := m.item l
  let r :=
    if first.isEmpty && (rest.head?.map Line.isEmpty).getD false then ⟨[], rest.drop 1⟩
    else inner { c with base := base, listBase := some c.base } (first :: rest)
  let taken := rest.length - r.left.length
  match _h : rest.drop taken with
  | [] => (r.fences, taken)
  | next :: behind =>
    if next.isOutdented c || next.isCode c || interrupts .list c next behind then (r.fences, taken)
    else
      match ListMark.ofText? next.body with
      | none => (r.fences, taken)
      | some m' =>
        if m.sameKind m' then
          let (fences, more) := readItems inner c m' next behind
          (r.fences ++ fences, taken + 1 + more)
        else (r.fences, taken)
  termination_by rest.length
  decreasing_by
    have := congrArg List.length _h
    simp only [List.length_drop, List.length_cons] at this
    omega

/-! ### Blocks -/

/-- Read the block that a line opens: its fences, and how many lines behind the first it takes. -/
def readBlock (quote list : Reader) (c : Context) (l : Line) (rest : List Line) :
    List Fence × Nat :=
  match rest.head?.bind (tableColumns? c l) with
  | some n => ([], 1 + tableExtent c (interrupts .quote c) n 0 (rest.drop 1))
  | none =>
  if l.isCode c then ([], codeExtent c rest)
  else
  match FenceMark.ofLine? c l with
  | some m =>
    let (n, closed) := m.extent c rest
    let content := ((rest.take n).map (Line.outdented l.indent.toNat)).flatten
    let taken := if closed then n + 1 else n
    ([⟨m.info, content, l.number, l.number + 1 + taken⟩], taken)
  | none =>
  if isQuote c l then readQuote quote c l rest
  else if isBreak c l then ([], 0)
  else
  match ListMark.ofLine? false c l with
  | some m => readItems list c m l rest
  | none =>
  match definitionExtent? c (interrupts .definition c) l rest with
  | some n => ([], n)
  | none =>
  match HtmlKind.ofLine? c l with
  | some k => ([], if k.endsWith l.body then 0 else k.extent c rest)
  | none =>
  if isHeading c l then ([], 0)
  else
  match underlinedExtent? c rest with
  | some n => ([], n)
  | none => ([], paragraphExtent c rest)

/-- Read the blocks of a container until a line is outdented. -/
def fencesOf (quote list : Reader) (c : Context) : List Line → Reading
  | [] => ⟨[], []⟩
  | l :: rest =>
    if l.isEmpty then fencesOf quote list c rest
    else if l.isOutdented c then ⟨[], l :: rest⟩
    else
      let (fences, n) := readBlock quote list c l rest
      let r := fencesOf quote list c (rest.drop n)
      ⟨fences ++ r.fences, r.left⟩
  termination_by ls => ls.length
  decreasing_by
    · simp
    · simp only [List.length_drop, List.length_cons]; omega

/-- Read the lines of a container when no level is left: an outdented line ends it, and everything
is dropped from the first other line with content on. -/
def skipContainer : Reader := fun c ls =>
  match ls.dropWhile Line.isEmpty with
  | [] => ⟨[], []⟩
  | l :: rest => if l.isOutdented c then ⟨[], l :: rest⟩ else ⟨[], []⟩

/-- Read the lines of a container in which `room` levels may be opened. -/
def fencesWithin : Nat → Reader
  | 0 => skipContainer
  | 1 => fencesOf skipContainer skipContainer
  | room + 2 => fencesOf (fencesWithin (room + 1)) (fencesWithin room)

/-- The fences of a document. -/
def fences (d : Dialect) (t : Text) : List Fence :=
  if d.blocks then (fencesWithin d.nesting ⟨d, 0, none⟩ (lines t)).fences else []

end LiterateEdit.Markdown
