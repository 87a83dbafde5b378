import LiterateEdit.Document.Basic
import LiterateEdit.FileSystem.Basic

/-!
# Documents in files

Documents are files whose names end in `.md` or `.mdx`. A file that is given by itself counts if its
name does; below a directory, whatever has such a name is found, in the order of paths.
-/

namespace LiterateEdit

/-- Does a path have the ending of a document's name? -/
def Path.isDocument (p : Path) : Bool := p.suffix = Text.lit ".md" || p.suffix = Text.lit ".mdx"

/-- The documents at a path. -/
def World.documents (w : World) (p : Path) : List Path :=
  if w.isFile p then if p.isDocument then [p] else []
  else Path.sort ((w.descendants p).filter Path.isDocument)

/-- Why a document in a file cannot be read. -/
inductive OpenError where
  /-- The file cannot be read. -/
  | unreadable (e : ReadError)
  /-- The text is no document. -/
  | document (e : DocumentError)
  deriving DecidableEq

/-- Read the document in a file. -/
def World.openDocument (w : World) (p : Path) (dialect : Text) : Except OpenError Document :=
  match w.readText p with
  | .error e => .error (.unreadable e)
  | .ok t =>
    match Document.parse t p dialect with
    | .error e => .error (.document e)
    | .ok d => .ok d

end LiterateEdit
