import LiterateEdit.Context.Splice
import LiterateEdit.Session.Connect

/-!
# Edit sessions

A session opens one block for editing with the rest of its target as context. It is closed or open.
Entering opens it: there is a new buffer with the text of the block, context is spliced into it, and
if there is context and the host wants it, the buffer is connected to the target. Exiting takes the
context away again, gives the text back and closes the session.

A buffer that cannot be connected leaves the session open all the same, and exiting still restores
the text.
-/

namespace LiterateEdit

/-- One block that can be opened for editing. -/
structure Session where
  /-- The block. -/
  block : Block
  /-- The blocks of its document. -/
  blocks : List Block
  /-- The settings. -/
  settings : Settings
  /-- The directory of the document. -/
  docDir : Path
  /-- The buffer, while the session is open. -/
  buffer : Option Buffer := none
  /-- The engine that splices the context. -/
  engine : Engine := .unspliced
  /-- The place of the target to which the session was last connected. -/
  file : Option Path := none

/-- Why a session refuses an operation. -/
inductive SessionError where
  /-- It is open already. -/
  | alreadyOpen (identity : Text)
  /-- It is not open. -/
  | notOpen
  /-- The buffer cannot be connected. -/
  | connect (e : ConnectError)
  /-- The buffer refuses an edit. -/
  | edit (e : EditError)
  deriving DecidableEq

/-- What a session tells when it was driven out of order. -/
def SessionError.message? : SessionError → Option Text
  | .alreadyOpen identity =>
    some (Text.lit "Session for block " ++ identity ++ Text.lit " already entered")
  | .notOpen => some (Text.lit "Session not entered")
  | .connect (.directory e) => some e.message
  | .connect _ => none
  | .edit e => e.message?

namespace Session

/-- What an operation of a session leads to. -/
structure Result (α : Type) where
  /-- The result, or why there is none. -/
  outcome : Except SessionError α
  /-- The session. -/
  session : Session
  /-- The files and the client. -/
  workspace : Workspace
  /-- What is told about it. -/
  notices : List Notice

/-- Is there context around the block? -/
def isSpliced (s : Session) : Bool := s.engine.isSpliced

/-- The text of the editable region; that of the block if the session is closed. -/
def editableText (s : Session) : Text :=
  match s.buffer with
  | none => s.block.text
  | some b => s.engine.editable b

/-- What is told when a missing directory keeps the buffer from being connected. -/
def connectNotices : Except ConnectError (Option Path) → List Notice
  | .error (.directory (.missing dir)) =>
    [⟨.error, .session, Text.lit "Cannot attach language client: " ++
      (DirectoryError.missing dir).message⟩]
  | _ => []

/-- Connect the open buffer and remember its file. -/
def connectBuffer (s : Session) (ws : Workspace) : Result Unit :=
  let c := ws.connect s.settings s.buffer s.block s.docDir
  let s := { s with buffer := c.buffer }
  let notices := c.notices ++ connectNotices c.outcome
  match c.outcome with
  | .ok file => ⟨.ok (), { s with file := file }, c.workspace, notices⟩
  | .error e => ⟨.error (.connect e), s, c.workspace, notices⟩

/-- Open the session. -/
def enter (s : Session) (ws : Workspace) (connect : Bool) : Result Unit :=
  match s.buffer with
  | some _ => ⟨.error (.alreadyOpen s.block.identity), s, ws, []⟩
  | none =>
    let partition := Partition.ofBlock? s.blocks s.block
    let r := s.engine.splice (.ofText s.block.text) partition.value s.settings.narrow none
    let s := { s with buffer := some r.buffer, engine := r.engine }
    let told := partition.notices ++ r.notices
    match r.outcome with
    | .error e => ⟨.error (.edit e), s, ws, told⟩
    | .ok spliced =>
      if spliced && connect then
        let c := s.connectBuffer ws
        { c with notices := told ++ c.notices }
      else ⟨.ok (), s, ws, told⟩

/-- The buffer with its editable region, or its view if there is no context, replaced by a text. -/
def replaced (s : Session) (b : Buffer) (t : Text) : Except EditError Buffer :=
  match s.engine with
  | .spliced start stop => b.replaceRegion (.marker start) (.marker stop) t
  | .unspliced => b.replaceRegion (.at b.low) (.at b.high) t

/-- Replace the editable text, as the user would. -/
def replaceText (s : Session) (ws : Workspace) (t : Text) : Result Unit :=
  match s.buffer with
  | none => ⟨.error .notOpen, s, ws, []⟩
  | some b =>
    match s.replaced b t with
    | .error e => ⟨.error (.edit e), s, ws, []⟩
    | .ok b => ⟨.ok (), { s with buffer := some b }, ws, []⟩

/-- Close the session and give the text back. -/
def exit (s : Session) (ws : Workspace) : Result Text :=
  match s.buffer with
  | none => ⟨.ok s.block.text, s, ws, []⟩
  | some b =>
    let r := s.engine.unsplice b none
    match r.outcome with
    | .error e => ⟨.error (.edit e), { s with buffer := some r.buffer, engine := r.engine }, ws,
        r.notices⟩
    | .ok _ => ⟨.ok r.buffer.text, { s with buffer := none, engine := r.engine }, ws, r.notices⟩

end Session

end LiterateEdit
