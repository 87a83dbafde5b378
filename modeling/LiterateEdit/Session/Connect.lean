import LiterateEdit.Buffer.Basic
import LiterateEdit.Settings.Basic
import LiterateEdit.Block.Basic
import LiterateEdit.Tangle.Place

/-!
# Connecting a buffer

A buffer that shows a block in its context can stand for the target file of the block, so that a
language server sees one whole file. Connecting sees to it that the directory of the target is
there, gives the buffer the place of the target as its file, and attaches the place to a language
client, in this order. A block without a target is not connected.

Targets are relative to the staging directory of the settings if there is one, else to the directory
of the document.
-/

namespace LiterateEdit

/-- What sessions share and change: the files and the language client. -/
structure Workspace where
  /-- The files. -/
  world : World
  /-- The language client. -/
  client : Client

/-- The directory that targets are relative to. -/
def Settings.baseDirectory (s : Settings) (docDir : Path) : Path :=
  match s.stagingDir with
  | none => docDir
  | some [] => docDir
  | some dir => .ofText dir

/-- Why a buffer cannot be connected. -/
inductive ConnectError where
  /-- The directory of the target is not there. -/
  | directory (e : DirectoryError)
  /-- There is no buffer. -/
  | noBuffer
  /-- The client cannot attach the target. -/
  | attach (e : AttachError)
  deriving DecidableEq

/-- What an attempt to connect a buffer leads to. -/
structure Connection where
  /-- The place of the target, if there is a target. -/
  outcome : Except ConnectError (Option Path)
  /-- The buffer. -/
  buffer : Option Buffer
  /-- The files and the client. -/
  workspace : Workspace
  /-- What is told about it. -/
  notices : List Notice

/-- Attach a buffer to a place whose directory is there. -/
def Workspace.attachBuffer (ws : Workspace) (buffer : Option Buffer) (place : Path) : Connection :=
  match buffer with
  | none => ⟨.error .noBuffer, none, ws, []⟩
  | some b =>
    let a := ws.client.attach ws.world.cwd place
    let outcome : Except ConnectError (Option Path) :=
      match a.outcome with
      | .ok _ => .ok (some place)
      | .error e => .error (.attach e)
    ⟨outcome, some { b with file := some place }, { ws with client := a.client }, a.notices⟩

/-- Connect a buffer to the target of a block. -/
def Workspace.connect (ws : Workspace) (settings : Settings) (buffer : Option Buffer)
    (block : Block) (docDir : Path) : Connection :=
  match block.target? with
  | none => ⟨.ok none, buffer, ws, []⟩
  | some target =>
    let place := Target.place ws.world.cwd (settings.baseDirectory docDir) target
    let p := ws.world.provideDirectory place.parent block.mkdirp
    let ws := { ws with world := p.world }
    match p.outcome with
    | .error e => ⟨.error (.directory e), buffer, ws, p.notices⟩
    | .ok _ =>
      let c := ws.attachBuffer buffer place
      { c with notices := p.notices ++ c.notices }

end LiterateEdit
