import LiterateEdit.Diff.Script
import LiterateEdit.Text.Lines

/-!
# Unified diffs

A unified diff shows the changes between two texts in hunks. A hunk has a header, which says which
lines of the old and of the new text it is about, and then the lines themselves: those that stay
behind a space, those that go behind a minus and those that come behind a plus. Two lines before the
first hunk name the texts. Equal texts have an empty diff.
-/

namespace LiterateEdit.Diff

/-- The lines from `start` to `stop`, which may count from the end. -/
def lineSlice (lines : List Text) (start stop : Int) : List Text :=
  let a := Text.sliceEnd lines.length start
  (lines.drop a).take (Text.sliceEnd lines.length stop - a)

/-- A range of lines in the header of a hunk: the first line and the number of lines, which is left
out if it is one. An empty range is named by the line before it. -/
def rangeText (start stop : Int) : Text :=
  let n := stop - start
  if n = 1 then Text.ofInt (start + 1)
  else Text.ofInt (if n = 0 then start else start + 1) ++ [','] ++ Text.ofInt n

/-- The lines of a hunk that show a change. -/
def Change.lines (old new : List Text) (c : Change) : List Text :=
  let olds := lineSlice old c.oldLow c.oldHigh
  let news := lineSlice new c.newLow c.newHigh
  match c.kind with
  | .equal => olds.map (' ' :: ·)
  | .replace => olds.map ('-' :: ·) ++ news.map ('+' :: ·)
  | .delete => olds.map ('-' :: ·)
  | .insert => news.map ('+' :: ·)

/-- The header of the hunk of a group. -/
def hunkHeader (first last : Change) : Text :=
  Text.lit "@@ -" ++ rangeText first.oldLow last.oldHigh ++ Text.lit " +" ++
    rangeText first.newLow last.newHigh ++ Text.lit " @@\n"

/-- The lines of the hunk of a group. -/
def hunk (old new : List Text) (group : List Change) : List Text :=
  match group.head?, group.getLast? with
  | some first, some last => hunkHeader first last :: group.flatMap (Change.lines old new)
  | _, _ => []

/-- The two lines that name the texts. -/
def names (path : Text) : List Text :=
  [Text.lit "--- a/" ++ path ++ ['\n'], Text.lit "+++ b/" ++ path ++ ['\n']]

/-- The lines of the unified diff of two sequences of lines, with `context` lines around the
changes. -/
def unifiedLines (old new : List Text) (path : Text) (context : Int) : List Text :=
  match groups context old new with
  | [] => []
  | gs => names path ++ gs.flatMap (hunk old new)

/-- How many lines around a change are shown unless another number is asked for. -/
def defaultContext : Int := 3

/-- The unified diff of two texts that go by a path. -/
def unified (old new : Text) (path : Text) (context : Int) : Text :=
  (unifiedLines (Text.lines old) (Text.lines new) path context).flatten

end LiterateEdit.Diff
