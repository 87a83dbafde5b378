import LiterateEdit.Block.Target
import LiterateEdit.Tangle.Place

/-!
# Tangling

Tangling writes the target files of a document. The content of a target is the texts of its blocks
with line feeds between them (`tangleText`), as they are laid out around a block that is edited.

Targets are taken in the order and in the spellings in which they first come up; each is written
with all blocks of its normal form. A target whose directory is missing stops the tangling; what was
written before stays.
-/

namespace LiterateEdit

/-- The content of the file that blocks are written to. -/
def tangleText (blocks : List Block) : Text := Text.join ['\n'] (blocks.map (·.text))

/-- The spellings of the targets of blocks, each once. -/
def targetsOf (blocks : List Block) : List Text := (blocks.filterMap Block.target?).eraseDups

/-- The value of the argument `mkdirp` that counts for blocks: the first one that is not empty. -/
def groupMkdirp (blocks : List Block) : Option Text :=
  (blocks.filterMap Block.mkdirp).find? fun m => !m.isEmpty

/-- Why tangling stops. -/
inductive TangleError where
  /-- The directory of a target is not there. -/
  | directory (e : DirectoryError)
  /-- A target cannot be written. -/
  | write (e : FileError) (place : Path)
  deriving DecidableEq

/-- What tangling leads to. -/
structure Tangling where
  /-- The targets that were written, with their places. -/
  outcome : Except TangleError (List (Text × Path))
  /-- The world. -/
  world : World
  /-- What is told about it. -/
  notices : List Notice

/-- Write one target. -/
def World.tangleTarget (w : World) (blocks : List Block) (base : Path) (target : Text) : Tangling :=
  let group := blocksFor blocks (some target)
  let place := Target.place w.cwd base target
  let p := w.provideDirectory place.parent (groupMkdirp group)
  match p.outcome with
  | .error e => ⟨.error (.directory e), p.world, p.notices⟩
  | .ok _ =>
    match p.world.writeText place (tangleText group) with
    | .error e => ⟨.error (.write e place), p.world, p.notices⟩
    | .ok w =>
      ⟨.ok [(target, place)], w, p.notices ++
        [⟨.info, .export, Text.lit "Tangled " ++ Text.ofNat group.length ++
          Text.lit " block(s) into " ++ place.text⟩]⟩

/-- Write targets one after another. -/
def World.tangleTargets (w : World) (blocks : List Block) (base : Path) : List Text → Tangling
  | [] => ⟨.ok [], w, []⟩
  | target :: rest =>
    let first := w.tangleTarget blocks base target
    match first.outcome with
    | .error _ => first
    | .ok done =>
      let others := first.world.tangleTargets blocks base rest
      ⟨others.outcome.map (done ++ ·), others.world, first.notices ++ others.notices⟩

/-- Write all targets of blocks. -/
def World.tangle (w : World) (blocks : List Block) (base : Path) : Tangling :=
  w.tangleTargets blocks base (targetsOf blocks)

end LiterateEdit
