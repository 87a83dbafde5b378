import LiterateEdit.Markdown.Line

/-!
# Dialects and containers

A dialect says which constructs a document may use and how deep its containers may nest. The
dialects go by the names of the common presets.

`Context` is what the lines of a container have to know of it: the dialect, the column at which its
content starts, and the column at which the content around the innermost list starts.
-/

namespace LiterateEdit.Markdown

/-- The constructs of a dialect that can be switched. -/
structure Dialect where
  /-- Are there blocks other than paragraphs? -/
  blocks : Bool
  /-- Are there tables? -/
  tables : Bool
  /-- Are there blocks of HTML? -/
  html : Bool
  /-- How deep containers nest; what lies deeper is not read. -/
  nesting : Nat
  deriving DecidableEq

/-- The dialects by their names. -/
def Dialect.named : List (String × Dialect) :=
  [("commonmark", ⟨true, false, true, 20⟩),
   ("gfm-like", ⟨true, true, true, 20⟩),
   ("gfm-like2", ⟨true, true, true, 20⟩),
   ("default", ⟨true, true, false, 100⟩),
   ("js-default", ⟨true, true, false, 100⟩),
   ("zero", ⟨false, false, false, 20⟩)]

/-- The dialect of a name. -/
def Dialect.ofName? (name : Text) : Option Dialect :=
  (Dialect.named.find? fun d => Text.lit d.1 = name).map (·.2)

/-- The container that lines stand in. -/
structure Context where
  /-- The dialect of the document. -/
  dialect : Dialect
  /-- The column at which the content of the container starts. -/
  base : Nat
  /-- The column at which the content around the innermost list starts, if there is a list. -/
  listBase : Option Nat
  deriving DecidableEq

/-- Is the line indented far enough to be code? -/
def Line.isCode (c : Context) (l : Line) : Bool := 4 ≤ l.indent - c.base

/-- Is the line indented less than the content of the container? -/
def Line.isOutdented (c : Context) (l : Line) : Bool := l.indent < c.base

end LiterateEdit.Markdown
