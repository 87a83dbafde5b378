import LiterateEdit.FileSystem.Basic
import LiterateEdit.Notice
import LiterateEdit.Text.Blank
import LiterateEdit.Text.LowerCase

/-!
# Where targets are written

A target is a path seen from a base directory, which is seen from the current directory; an absolute
target stands for itself (`Target.place`).

The directory of a target may be missing. It is made only if a block of the target says so: its
argument `mkdirp`, without white space around it and in lower case, is `yes`. Otherwise nothing is
made and the missing directory is told.
-/

namespace LiterateEdit

/-- The absolute normal path of a target. -/
def Target.place (cwd base : Path) (target : Text) : Path :=
  cwd.absolute (base.append (.ofText target))

/-- Does the value of the argument `mkdirp` allow to make missing directories? -/
def allowsMaking (mkdirp : Option Text) : Bool :=
  Text.lower (Text.strip (mkdirp.getD [])) = Text.lit "yes"

/-- Why a directory is not there. -/
inductive DirectoryError where
  /-- It is missing and must not be made. -/
  | missing (dir : Path)
  /-- It cannot be made. -/
  | refused (e : FileError) (dir : Path)
  deriving DecidableEq

/-- What is told about a directory that is not there. -/
def DirectoryError.message : DirectoryError → Text
  | .missing dir =>
    Text.lit "Directory " ++ dir.text ++
      Text.lit " does not exist; set ':mkdirp yes' on the block to create it"
  | .refused e dir => e.message dir

/-- What asking for a directory leads to. -/
structure Provision where
  /-- Was the directory made? -/
  outcome : Except DirectoryError Bool
  /-- The world. -/
  world : World
  /-- What is told about it. -/
  notices : List Notice

/-- See to it that a directory is there. -/
def World.provideDirectory (w : World) (dir : Path) (mkdirp : Option Text) : Provision :=
  if w.isDirectory dir then ⟨.ok false, w, []⟩
  else if allowsMaking mkdirp then
    match w.makeDirectories dir with
    | (.ok _, w) => ⟨.ok true, w, [⟨.info, .session, Text.lit "Created directory " ++ dir.text⟩]⟩
    | (.error e, w) => ⟨.error (.refused e dir), w, []⟩
  else ⟨.error (.missing dir), w, []⟩

end LiterateEdit
