import LiterateEdit.Text.Basic

/-!
# Notices

Operations tell what they did, and what looked wrong without being an error, in notices. A notice
has a level and the part of the library that it comes from; a host shows the notices at or above a
level of its choice, in order. An operation that has something to tell answers with its value and
its notices.
-/

namespace LiterateEdit

/-- How important a notice is. -/
inductive Level where
  | debug
  | info
  | warning
  | error
  | critical
  deriving DecidableEq

/-- The place of a level in their order. -/
def Level.rank : Level → Nat
  | .debug => 0
  | .info => 1
  | .warning => 2
  | .error => 3
  | .critical => 4

/-- The name of a level. -/
def Level.name : Level → String
  | .debug => "DEBUG"
  | .info => "INFO"
  | .warning => "WARNING"
  | .error => "ERROR"
  | .critical => "CRITICAL"

/-- All levels, the least important first. -/
def Level.all : List Level := [.debug, .info, .warning, .error, .critical]

/-- The level of a name. -/
def Level.ofName? (name : Text) : Option Level :=
  Level.all.find? fun l => Text.lit l.name = name

/-- The part of the library that a notice comes from. -/
inductive Source where
  /-- Editing a buffer. -/
  | buffer
  /-- Splicing context into a buffer. -/
  | splice
  /-- Editing a block in a session. -/
  | session
  /-- Reading the header arguments of blocks. -/
  | blocks
  /-- Attaching language clients. -/
  | client
  /-- Resolving the context of a block. -/
  | resolve
  /-- Writing target files. -/
  | export
  deriving DecidableEq

/-- The name under which a source is shown. -/
def Source.name : Source → String
  | .buffer => "mdctx.core.buffer"
  | .splice => "mdctx.core.splice"
  | .session => "mdctx.core.session"
  | .blocks => "mdctx.core.extract.blocks"
  | .client => "mdctx.core.lsp"
  | .resolve => "mdctx.core.resolve"
  | .export => "mdctx.core.export"

/-- A message to the host. -/
structure Notice where
  /-- How important it is. -/
  level : Level
  /-- Where it comes from. -/
  source : Source
  /-- What it says. -/
  message : Text
  deriving DecidableEq

/-- Is the notice at or above a level? -/
def Notice.atLeast (least : Level) (n : Notice) : Bool := least.rank ≤ n.level.rank

/-- The notice as a line of text. -/
def Notice.line (n : Notice) : Text :=
  Text.lit n.level.name ++ Text.lit "  " ++ Text.lit n.source.name ++ Text.lit "  " ++ n.message ++
    ['\n']

/-- A value and the notices made on the way to it. -/
structure Noted (α : Type) where
  /-- The value. -/
  value : α
  /-- The notices, in order. -/
  notices : List Notice

namespace Noted

/-- A value without notices. -/
def quiet (a : α) : Noted α := ⟨a, []⟩

/-- Go on from a value, keeping the notices made so far. -/
def andThen (x : Noted α) (f : α → Noted β) : Noted β :=
  let y := f x.value
  ⟨y.value, x.notices ++ y.notices⟩

@[simp] theorem quiet_value (a : α) : (quiet a).value = a := rfl

@[simp] theorem andThen_value (x : Noted α) (f : α → Noted β) :
    (x.andThen f).value = (f x.value).value := rfl

end Noted

end LiterateEdit
