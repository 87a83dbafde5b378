import LiterateEdit.CommandLine.Arguments
import LiterateEdit.CommandLine.Shell
import LiterateEdit.Diff.Unified

/-!
# Commands

Each command loads the settings, with its own options as overrides, reads the document and does its
work:

* `blocks` lists the blocks of a document;
* `context` shows a block in its context, which has a background colour;
* `edit` opens a session on a block, replaces its text by that of a file, and writes the document
  back or shows what would change;
* `tangle` writes all targets of a document.

What a user can mend is told as an error with exit code 1: settings and documents that cannot be
read, a block that is not there, and a missing directory. `Command.run` is the whole program as a
function of the shell; an error of usage has exit code 2.
-/

namespace LiterateEdit

namespace Action

/-! ### Common beginnings -/

/-- Load the settings; from here on notices of their level are shown. -/
def settings (overrides : Settings.Entries) : Action Settings := do
  let shell ← get
  match Settings.load shell.world shell.environment overrides with
  | .ok s =>
    update fun shell => { shell with level := s.logLevel }
    return s
  | .error e =>
    match e.message? with
    | some m => reject m none
    | none => fail (.settings e)

/-- Stop because the document at a path, as the user wrote it, cannot be read. -/
def rejectDocument (path : Text) (e : DocumentError) : Action α :=
  match e.message? with
  | some m => reject (Text.lit "Cannot read " ++ path) (some m)
  | none => fail (.document e)

/-- Read a document and its blocks. -/
def openDocument (path : Text) (s : Settings) : Action (Document × List Block) := do
  match (← get).world.openDocument (.ofText path) s.dialect with
  | .error (.unreadable e) =>
    reject (Text.lit "Cannot read " ++ path) (some (e.message (.ofText path)))
  | .error (.document e) => rejectDocument path e
  | .ok d =>
    match d.blocks with
    | .error e => rejectDocument path e
    | .ok blocks =>
      tell blocks.notices
      return (d, blocks.value)

/-- Find the block that the user selects. -/
def selectBlock (blocks : List Block) (key : Text) : Action Block := do
  let r := select blocks key
  tell r.notices
  match r.value with
  | .error (.notFound key) => reject (SelectError.notFound key).message none
  | .error (.digits e) => fail (.digits e)
  | .ok i =>
    match blocks[i]? with
    | some b => return b
    | none => reject (SelectError.notFound key).message none

/-- Take the result of an operation of a session. -/
def sessionResult (r : Session.Result α) : Action (Except SessionError α) := do
  update fun shell => { shell with world := r.workspace.world }
  tell r.notices
  return r.outcome

/-- The result of an operation of a session that is not expected to fail. -/
def expectResult (r : Session.Result α) : Action α := do
  match ← sessionResult r with
  | .ok a => return a
  | .error e => fail (.session e)

/-- The override of a field with a value that the user may have given. -/
def override (f : Field) (v : Option Yaml.Value) : Text × Yaml.Value :=
  (Text.lit f.name, v.getD .null)

/-! ### The commands -/

/-- The line that `blocks` shows for the `n`-th block. -/
def blockLine (n : Nat) (b : Block) : Text :=
  let orDash (t : Option Text) : Text := if t.getD [] = [] then ['-'] else t.getD []
  let gap := Text.lit "  "
  Text.trimRight Text.isBlank <|
    Text.padLeft 3 ' ' (Text.ofNat n) ++ gap ++ b.identity ++ gap ++
      Text.padRight 10 (orDash b.language) ++ gap ++ Text.padRight 24 (orDash b.target) ++ gap ++
      b.name.getD []

/-- List the blocks of a document. -/
def listBlocks (path : Text) : Action Unit := do
  let s ← settings []
  let (_, blocks) ← openDocument path s
  if blocks.isEmpty then
    putLine (Text.lit "No source blocks found.")
    quit 1
  else
    (blocks.zipIdx 1).forM fun b => putLine (blockLine b.2 b.1)

/-- Show a stretch of a buffer. -/
def putSegment (s : Settings) (segment : Text × Option Text) : Action Unit := do
  if segment.2 = some contextFace then
    match onBackground? s.background segment.1 with
    | some t => put t
    | none => fail (.colour s.background)
  else put segment.1

/-- Show a block in its context. -/
def showContext (path key : Text) (narrow : Option Bool) : Action Unit := do
  let s ← settings [override .narrow (narrow.map .bool)]
  let (d, blocks) ← openDocument path s
  let block ← selectBlock blocks key
  let ws : Workspace := ⟨(← get).world, .ofStrategy s.strategy⟩
  let session : Session := { block, blocks, settings := s, docDir := d.path.parent }
  let r := session.enter ws false
  expectResult r
  if !r.session.isSpliced then complain (Text.lit "(no context for this block)")
  match r.session.buffer with
  | none => pure ()
  | some b => b.segments.forM (putSegment s)
  discard <| expectResult (r.session.exit r.workspace)

/-- Open a session; a missing directory ends it again. -/
def enterSession (session : Session) (ws : Workspace) (connect : Bool) :
    Action (Session × Workspace) := do
  let r := session.enter ws connect
  match ← sessionResult r with
  | .ok _ => return (r.session, r.workspace)
  | .error (.connect (.directory (.missing dir))) =>
    discard <| expectResult (r.session.exit r.workspace)
    reject (Text.lit "Cannot attach language client") (some (DirectoryError.missing dir).message)
  | .error e => fail (.session e)

/-- The text of a block behind a session in which it was replaced. -/
def editedText (session : Session) (ws : Workspace) (t : Text) : Action Text := do
  let r := session.replaceText ws t
  expectResult r
  expectResult (r.session.exit r.workspace)

/-- Put the text of a file in the place of a block. -/
def editBlock (path key textFile : Text) (diff connect : Bool) (strategy : Option Strategy)
    (stagingDir : Option Text) : Action Unit := do
  let s ← settings
    [override .strategy (strategy.map fun k => .text (Text.lit k.name)),
     override .stagingDir (stagingDir.map .text)]
  let (d, blocks) ← openDocument path s
  let block ← selectBlock blocks key
  let ws : Workspace := ⟨(← get).world, .ofStrategy s.strategy⟩
  let session : Session := { block, blocks, settings := s, docDir := d.path.parent }
  let (session, ws) ← enterSession session ws connect
  match session.file with
  | none => pure ()
  | some file =>
    putLine <| Text.lit "Attached " ++ file.text ++ Text.lit " (" ++ Text.lit s.strategy.name ++
      [')']
  match (← get).world.readText (.ofText textFile) with
  | .error e => fail (.read e)
  | .ok t =>
    let text ← editedText session ws t
    match d.replaceBlock block text with
    | .error e => fail (.outside e)
    | .ok updated =>
      if diff then put (Diff.unified d.raw updated path Diff.defaultContext)
      else if updated = d.raw then putLine (Text.lit "unchanged")
      else
        match (← get).world.writeText d.path updated with
        | .error e => fail (.write e)
        | .ok w =>
          update fun shell => { shell with world := w }
          putLine (Text.lit "updated: block " ++ block.identity)

/-- Write the targets of a document. -/
def tangleDocument (path : Text) (stagingDir : Option Text) : Action Unit := do
  let s ← settings [override .stagingDir (stagingDir.map .text)]
  let (d, blocks) ← openDocument path s
  let r := (← get).world.tangle blocks (s.baseDirectory d.path.parent)
  update fun shell => { shell with world := r.world }
  tell r.notices
  match r.outcome with
  | .error (.directory (.missing dir)) =>
    reject (Text.lit "Tangle failed") (some (DirectoryError.missing dir).message)
  | .error e => fail (.tangle e)
  | .ok [] => putLine (Text.lit "Nothing to tangle.")
  | .ok done =>
    done.forM fun t => putLine (Text.lit "  " ++ t.1 ++ Text.lit " -> " ++ t.2.text)
    putLine (Text.lit "Tangled " ++ Text.ofNat done.length ++ Text.lit " file(s)")

end Action

namespace Command

/-- Are the files there that the arguments of a command must name? -/
def filesExist (w : World) : Command → Bool
  | .edit _ _ textFile _ _ _ _ => w.existsAsWritten textFile
  | _ => true

/-- Do what a command asks for. -/
def action : Command → Action Unit
  | .blocks doc => Action.listBlocks doc
  | .context doc key narrow => Action.showContext doc key narrow
  | .edit doc key textFile diff connect strategy stagingDir =>
    Action.editBlock doc key textFile diff connect strategy stagingDir
  | .tangle doc stagingDir => Action.tangleDocument doc stagingDir

/-- The exit code for an error of usage. -/
def usageCode : Nat := 2

/-- How a run of the program ends. -/
structure Ending where
  /-- The exit code. -/
  code : Nat
  /-- A failure that the caller has to tell. -/
  failure : Option Failure
  /-- The shell. -/
  shell : Shell

/-- Run the program with arguments. -/
def run (args : List Text) (shell : Shell) : Ending :=
  match ofList? args with
  | none => ⟨usageCode, none, shell⟩
  | some c =>
    if c.filesExist shell.world then
      match c.action.run.run shell with
      | (.ok _, shell) => ⟨0, none, shell⟩
      | (.error (.exit code), shell) => ⟨code, none, shell⟩
      | (.error (.failed f), shell) => ⟨1, some f, shell⟩
    else ⟨usageCode, none, shell⟩

end Command

end LiterateEdit
