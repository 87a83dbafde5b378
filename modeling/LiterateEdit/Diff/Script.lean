import LiterateEdit.Diff.Match

/-!
# Edit scripts

The stretches that two texts share split them into changes: lines that stay, lines that go, lines
that come, and lines that are replaced. `changes` lists them in order, and `groups` cuts the list
into groups with a number of unchanged lines around the changed ones.
-/

namespace LiterateEdit.Diff

/-- What happens to some lines. -/
inductive Kind where
  /-- They stay. -/
  | equal
  /-- They go, and others come. -/
  | replace
  /-- They go. -/
  | delete
  /-- They come. -/
  | insert
  deriving DecidableEq

/-- A change of the lines `oldLow..oldHigh` of the old text into `newLow..newHigh` of the new. -/
structure Change where
  /-- What happens. -/
  kind : Kind
  /-- The first line in the old text. -/
  oldLow : Int
  /-- The line behind in the old text. -/
  oldHigh : Int
  /-- The first line in the new text. -/
  newLow : Int
  /-- The line behind in the new text. -/
  newHigh : Int
  deriving DecidableEq

/-- The change that leads from one pair of places to another one, if there is any. -/
def gap (i j i' j' : Nat) : List Change :=
  if i < i' ∧ j < j' then [⟨.replace, i, i', j, j'⟩]
  else if i < i' then [⟨.delete, i, i', j, j'⟩]
  else if j < j' then [⟨.insert, i, i', j, j'⟩]
  else []

/-- The changes from a pair of places on, up to the ends of the texts. -/
def changesFrom (oldSize newSize i j : Nat) : List Match → List Change
  | [] => gap i j oldSize newSize
  | m :: rest =>
    gap i j m.old m.new ++ [⟨.equal, m.old, m.old + m.size, m.new, m.new + m.size⟩] ++
      changesFrom oldSize newSize (m.old + m.size) (m.new + m.size) rest

/-- The changes that lead from one text to another. -/
def changes (old new : List Text) : List Change :=
  changesFrom old.length new.length 0 0 (sharedStretches old new)

/-- The last `n` lines of lines that stay; other changes are kept whole. -/
def Change.keepLast (n : Int) (c : Change) : Change :=
  if c.kind = .equal then
    { c with oldLow := max c.oldLow (c.oldHigh - n), newLow := max c.newLow (c.newHigh - n) }
  else c

/-- The first `n` lines of lines that stay; other changes are kept whole. -/
def Change.keepFirst (n : Int) (c : Change) : Change :=
  if c.kind = .equal then
    { c with oldHigh := min c.oldHigh (c.oldLow + n), newHigh := min c.newHigh (c.newLow + n) }
  else c

/-- The changes with the first and the last one trimmed to `n` lines that stay. -/
def trimEnds (n : Int) (cs : List Change) : List Change :=
  let cs := cs.modify 0 (Change.keepLast n)
  cs.modify (cs.length - 1) (Change.keepFirst n)

/-- The groups of a list of changes, `group` being the one that is under way: a long run of lines
that stay ends a group and starts another one. -/
def groupsFrom (n : Int) (group : List Change) : List Change → List (List Change)
  | [] =>
    match group with
    | [] => []
    | [c] => if c.kind = .equal then [] else [[c]]
    | cs => [cs]
  | c :: rest =>
    if c.kind = .equal ∧ n + n < c.oldHigh - c.oldLow then
      (group ++ [c.keepFirst n]) :: groupsFrom n [c.keepLast n] rest
    else groupsFrom n (group ++ [c]) rest

/-- The changes that lead from one text to another, in groups with `n` lines around them that
stay. -/
def groups (n : Int) (old new : List Text) : List (List Change) :=
  let cs := changes old new
  groupsFrom n [] (trimEnds n (if cs = [] then [⟨.equal, 0, 1, 0, 1⟩] else cs))

end LiterateEdit.Diff
