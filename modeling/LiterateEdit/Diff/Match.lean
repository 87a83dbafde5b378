import LiterateEdit.Text.Basic

/-!
# Matching two sequences of lines

Two texts are compared line by line by looking for the longest stretch of lines that both have, then
for the longest ones before it and behind it, and so on. Of several stretches of the same length the
one that starts first in the old text counts, and of those the one that starts first in the new
text.

In a long new text, lines that are there very often do not start a stretch, so that blank lines and
the like do not tear apart what belongs together. A stretch found without them is still extended
over them at both its ends.
-/

namespace LiterateEdit.Diff

/-- A stretch of lines that both texts have. -/
structure Match where
  /-- Where it starts in the old text. -/
  old : Nat
  /-- Where it starts in the new text. -/
  new : Nat
  /-- How many lines it has. -/
  size : Nat
  deriving DecidableEq

/-- From how many lines on a text is long. -/
def longText : Nat := 200

/-- How often a line may be in a long text of `n` lines before it is too common. -/
def maxCommon (n : Nat) : Nat := n / 100 + 1

/-- The places of a line in a text, unless the line is too common there. -/
def anchors (new : List Text) (line : Text) : List Nat :=
  let places := (new.zipIdx.filter fun p => p.1 = line).map (·.2)
  if longText ≤ new.length ∧ maxCommon new.length < places.length then [] else places

/-- A part of the old text and a part of the new one. -/
structure Window where
  /-- The first line of the part of the old text. -/
  oldLow : Nat
  /-- The line behind the part of the old text. -/
  oldHigh : Nat
  /-- The first line of the part of the new text. -/
  newLow : Nat
  /-- The line behind the part of the new text. -/
  newHigh : Nat
  deriving DecidableEq

/-- The stretches that end at a line of the old text, given the places of the line in the new text
and the stretches that end one line before: each as the place of its end in the new text and its
length, in the order of the places. -/
def extendRow : List (Nat × Nat) → List Nat → List (Nat × Nat)
  | _, [] => []
  | row, j :: js =>
    let row := row.dropWhile fun e => e.1 + 1 < j
    let k :=
      match row with
      | [] => 1
      | (p, k) :: _ => if p + 1 = j then k + 1 else 1
    (j, k) :: extendRow row js

/-- The better of the best stretch so far and those of a row that ends at line `i` of the old
text. -/
def betterOf (i : Nat) (best : Match) (row : List (Nat × Nat)) : Match :=
  row.foldl
    (fun best e => if best.size < e.2 then ⟨i + 1 - e.2, e.1 + 1 - e.2, e.2⟩ else best) best

/-- The best stretch among the lines of the old text from line `i` on, whose places in the new text
are given. -/
def bestFrom (i : Nat) (best : Match) (row : List (Nat × Nat)) : List (List Nat) → Match
  | [] => best
  | js :: rest =>
    let row := extendRow row js
    bestFrom (i + 1) (betterOf i best row) row rest

/-- How many lines before two places are the same, at most `limit`. -/
def sameBefore (old new : List Text) (i j : Nat) : Nat → Nat
  | 0 => 0
  | limit + 1 =>
    if 0 < i ∧ 0 < j ∧ old[i - 1]? = new[j - 1]? then
      sameBefore old new (i - 1) (j - 1) limit + 1
    else 0

/-- How many lines from two places on are the same, at most `limit`. -/
def sameFrom (old new : List Text) (i j : Nat) : Nat → Nat
  | 0 => 0
  | limit + 1 =>
    if old[i]? = new[j]? then sameFrom old new (i + 1) (j + 1) limit + 1 else 0

/-- The longest stretch in a window. `places` are the places in the new text of each line of the old
one. -/
def longest (old new : List Text) (places : List (List Nat)) (w : Window) : Match :=
  let rows := ((places.drop w.oldLow).take (w.oldHigh - w.oldLow)).map fun js =>
    js.filter fun j => w.newLow ≤ j && j < w.newHigh
  let m := bestFrom w.oldLow ⟨w.oldLow, w.newLow, 0⟩ [] rows
  let before := sameBefore old new m.old m.new (min (m.old - w.oldLow) (m.new - w.newLow))
  let i := m.old + m.size
  let j := m.new + m.size
  let behind := sameFrom old new i j (min (w.oldHigh - i) (w.newHigh - j))
  ⟨m.old - before, m.new - before, before + m.size + behind⟩

/-- The stretches in a window, in order. At most `fuel` of them lie one around another. -/
def matchesIn (old new : List Text) (places : List (List Nat)) : Nat → Window → List Match
  | 0, _ => []
  | fuel + 1, w =>
    if w.oldLow < w.oldHigh ∧ w.newLow < w.newHigh then
      let m := longest old new places w
      if m.size = 0 then []
      else
        matchesIn old new places fuel ⟨w.oldLow, m.old, w.newLow, m.new⟩ ++ [m] ++
          matchesIn old new places fuel ⟨m.old + m.size, w.oldHigh, m.new + m.size, w.newHigh⟩
    else []

/-- Stretches that follow each other without a gap made one. -/
def joinMatches : List Match → List Match
  | m :: n :: rest =>
    if m.old + m.size = n.old ∧ m.new + m.size = n.new then
      joinMatches (⟨m.old, m.new, m.size + n.size⟩ :: rest)
    else m :: joinMatches (n :: rest)
  | ms => ms
  termination_by ms => ms.length

/-- The stretches that two texts share. -/
def sharedStretches (old new : List Text) : List Match :=
  joinMatches <|
    matchesIn old new (old.map (anchors new)) (old.length + 1) ⟨0, old.length, 0, new.length⟩

end LiterateEdit.Diff
