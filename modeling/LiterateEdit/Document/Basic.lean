import LiterateEdit.Document.Frontmatter
import LiterateEdit.Markdown.Document

/-!
# Literate documents

A literate document is a Markdown text with source text in its fences. Reading one cuts off its
front matter and finds the fences of the body; its blocks are those fences with the default header
arguments of the front matter. Lines are counted in the body.
-/

namespace LiterateEdit

/-- A literate document that has been read. -/
structure Document where
  /-- Where the document stands. -/
  path : Path
  /-- The whole text. -/
  raw : Text
  /-- The text behind the front matter. -/
  body : Text
  /-- The front matter. -/
  frontmatter : Frontmatter
  /-- The fences of the body. -/
  fences : List Fence

namespace Document

/-- The name of the dialect that documents are read in unless another one is asked for. -/
def defaultDialect : Text := Text.lit "gfm-like"

/-- Read a document. -/
def parse (raw : Text) (path : Path) (dialect : Text) : Except DocumentError Document :=
  match splitFrontmatter raw with
  | .error e => .error e
  | .ok (frontmatter, body) =>
    match Markdown.Dialect.ofName? dialect with
    | none => .error (.dialect dialect)
    | some d => .ok ⟨path, raw, body, frontmatter, Markdown.fences d body⟩

/-- The blocks of a document, in order. -/
def blocks (d : Document) : Except DocumentError (Noted (List Block)) :=
  match d.frontmatter.headerArgs with
  | .error e => .error e
  | .ok defaults => .ok (blocksOfFences d.path defaults d.fences)

end Document

end LiterateEdit
