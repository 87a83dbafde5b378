import LiterateEdit.Text.Basic

/-!
# Paths

A path is a root and a list of components. Reading a path from a text drops empty components and
single dots and keeps double dots, so `a//b/.` and `a/b` are one path while `a/../b` and `b` are
two. Two leading slashes are a root of their own, different from one slash; three or more are one.

`Path.normal` also resolves double dots, by dropping the component before each; the double dots that
lead a relative path stay. `Path.absolute` puts a relative path behind a base first.

Paths are ordered by their components, not by their texts: `a/b` comes before `a-b`.
-/

namespace LiterateEdit

/-- Where a path starts. -/
inductive Path.Root where
  /-- At the current directory. -/
  | relative
  /-- At the root. -/
  | slash
  /-- At the root, written with two slashes. -/
  | doubleSlash
  deriving DecidableEq

/-- A path: where it starts and the components that lead from there. -/
structure Path where
  /-- Where the path starts. -/
  root : Path.Root
  /-- The components in order. -/
  parts : List Text
  deriving DecidableEq

namespace Path

/-- The text of a root. -/
def Root.text : Root → Text
  | .relative => []
  | .slash => ['/']
  | .doubleSlash => ['/', '/']

/-- The root of a path's text. -/
def Root.ofText : Text → Root
  | '/' :: '/' :: '/' :: _ => .slash
  | '/' :: '/' :: _ => .doubleSlash
  | '/' :: _ => .slash
  | _ => .relative

/-- The components of a path's text: its pieces between slashes less the empty ones and the dots. -/
def partsOfText (t : Text) : List Text :=
  (Text.splitOn (· = '/') t).filter fun p => p ≠ [] ∧ p ≠ ['.']

/-- The path that a text writes. -/
def ofText (t : Text) : Path := ⟨Root.ofText t, partsOfText t⟩

/-- The text of a path; a dot if there would be none. -/
def text (p : Path) : Text :=
  match p.root, p.parts with
  | .relative, [] => ['.']
  | r, parts => r.text ++ Text.join ['/'] parts

/-- Does the path start at the root? -/
def isAbsolute (p : Path) : Bool := p.root ≠ .relative

/-- `q` seen from `p`: an absolute path stays what it is. -/
def append (p q : Path) : Path :=
  match q.root with
  | .relative => ⟨p.root, p.parts ++ q.parts⟩
  | _ => q

/-- The path one component up; a root, and the current directory, stay. -/
def parent (p : Path) : Path := ⟨p.root, p.parts.dropLast⟩

@[simp] theorem parent_parts (p : Path) : p.parent.parts = p.parts.dropLast := rfl

/-- The last component, if there is one. -/
def name (p : Path) : Text := p.parts.getLast?.getD []

/-! ### The ending of a name -/

/-- A name cut before its last dot; `none` if the dot leads the name, ends it, or is not there. -/
def splitName (n : Text) : Option (Text × Text) :=
  let ending := (n.reverse.takeWhile (· ≠ '.')).reverse
  let before := n.length - (ending.length + 1)
  if ending.length < n.length ∧ 0 < before ∧ ending ≠ [] then
    some (n.take before, '.' :: ending)
  else none

/-- The last component without its ending. -/
def stem (p : Path) : Text :=
  match splitName p.name with
  | some (s, _) => s
  | none => p.name

/-- The ending of the last component, with its dot. -/
def suffix (p : Path) : Text :=
  match splitName p.name with
  | some (_, e) => e
  | none => []

/-! ### Normal form -/

/-- Put a component behind the components of a normal path, which are kept in reverse. -/
def pushPart (absolute : Bool) (done : List Text) (part : Text) : List Text :=
  if part = ['.', '.'] then
    match done with
    | [] => if absolute then [] else [part]
    | last :: rest => if last = ['.', '.'] then part :: done else rest
  else part :: done

/-- The same place without double dots, those that lead a relative path apart. -/
def normal (p : Path) : Path :=
  ⟨p.root, (p.parts.foldl (pushPart p.isAbsolute) []).reverse⟩

/-- The normal absolute path of `p` seen from `base`. -/
def absolute (base p : Path) : Path := (base.append p).normal

/-! ### Order -/

/-- The components with the root, if there is one, as the first of them. -/
def orderKey (p : Path) : List Text :=
  match p.root with
  | .relative => p.parts
  | r => r.text :: p.parts

/-- Does one list of texts come strictly before another? -/
def keyBefore : List Text → List Text → Bool
  | _, [] => false
  | [], _ :: _ => true
  | a :: t, b :: u => if a = b then keyBefore t u else Text.before a b

/-- Does `p` come before `q`, or stand in the same place? -/
def le (p q : Path) : Bool := !keyBefore q.orderKey p.orderKey

/-- Paths in their order. -/
def sort (ps : List Path) : List Path := ps.mergeSort le

end Path

end LiterateEdit
