import LiterateEdit.Notice
import LiterateEdit.Path.Basic
import LiterateEdit.Text.Quoted

/-!
# Language clients

A language client gives files to language servers. It keeps one server session for each key, and a
file belongs to the session of its own key; the strategy says what the key of a file is:

* `Strategy.eglot`: the directory of the file, so that the files of a directory share a session;
* `Strategy.lspMode`: the file itself.

The first file of a key starts the session. A client may have a start hook, which is then called
with that file; it may fail, and then there is no session and the file is not attached. The client
keeps the history of the calls. All paths that it keeps are absolute and normal.
-/

namespace LiterateEdit

/-- How files are grouped into server sessions. -/
inductive Strategy where
  /-- One session for each directory. -/
  | eglot
  /-- One session for each file. -/
  | lspMode
  deriving DecidableEq

namespace Strategy

/-- The name of a strategy. -/
def name : Strategy → String
  | .eglot => "eglot"
  | .lspMode => "lsp-mode"

/-- All strategies. -/
def all : List Strategy := [.eglot, .lspMode]

/-- The strategy of a name. -/
def ofName? (t : Text) : Option Strategy := all.find? fun s => Text.lit s.name = t

/-- What is told about a name that no strategy has. -/
def unknownMessage (t : Text) : Text := Text.quoted t ++ Text.lit " is not a valid LspStrategy"

/-- The key of a file. -/
def key : Strategy → Path → Path
  | .eglot, p => p.parent
  | .lspMode, p => p

end Strategy

/-- A call of a start hook. -/
structure HookCall where
  /-- The file that the hook was called with. -/
  path : Path
  /-- Did the hook return normally? -/
  returned : Bool
  deriving DecidableEq

/-- A language client. -/
structure Client where
  /-- How files are grouped. -/
  strategy : Strategy
  /-- The start hook, if there is one: does its `n`-th call return normally? -/
  hook : Option (Nat → Bool) := none
  /-- The calls of the start hook so far. -/
  calls : List HookCall := []
  /-- The sessions: keys with the files that belong to them. -/
  sessions : List (Path × List Path) := []
  /-- All attached files. -/
  attached : List Path := []

/-- Why a file cannot be attached. -/
inductive AttachError where
  /-- The start hook failed. -/
  | hookFailed
  deriving DecidableEq

/-- What an attempt to attach a file leads to. -/
structure Attachment where
  /-- Was the file not attached before? -/
  outcome : Except AttachError Bool
  /-- The client. -/
  client : Client
  /-- What is told about it. -/
  notices : List Notice

/-- A list with an element put at its end, unless it is there. -/
def insertNew [DecidableEq α] (x : α) (xs : List α) : List α := if x ∈ xs then xs else xs ++ [x]

namespace Client

/-- A client without a start hook that has no files yet. -/
def ofStrategy (s : Strategy) : Client := { strategy := s }

/-- The files of a session, if there is one. -/
def session? (c : Client) (key : Path) : Option (List Path) := c.sessions.lookup key

/-- The keys of the sessions in their order. -/
def keys (c : Client) : List Path := Path.sort (c.sessions.map (·.1))

/-- A notice of the client. -/
def notice (c : Client) (what : String) (p : Path) : Notice :=
  ⟨.info, .client, Text.lit c.strategy.name ++ Text.lit ": " ++ Text.lit what ++ p.text⟩

/-- Call the start hook with a file: did it return normally? -/
def callHook (c : Client) (p : Path) : Bool × Client :=
  match c.hook with
  | none => (true, c)
  | some returns =>
    let returned := returns c.calls.length
    (returned, { c with calls := c.calls ++ [⟨p, returned⟩] })

/-- Put a file into the session of a key. -/
def addTo (c : Client) (key p : Path) : Client :=
  { c with
    sessions := c.sessions.map fun s => if s.1 = key then (s.1, insertNew p s.2) else s
    attached := insertNew p c.attached }

/-- Put a file into the session of a key, which is there, and tell about it if it is new. -/
def join (c : Client) (key p : Path) (told : List Notice) : Attachment :=
  let fresh : Bool := p ∉ (c.session? key).getD []
  ⟨.ok fresh, c.addTo key p, told ++ if fresh then [c.notice "attached " p] else []⟩

/-- Attach a file, given by a path that is seen from a current directory. -/
def attach (c : Client) (cwd p : Path) : Attachment :=
  let p := cwd.absolute p
  let key := c.strategy.key p
  match c.session? key with
  | some _ => c.join key p []
  | none =>
    let told := [c.notice "starting session for " key]
    match c.callHook p with
    | (false, c) => ⟨.error .hookFailed, c, told⟩
    | (true, c) => { c with sessions := c.sessions ++ [(key, [])] }.join key p told

end Client

end LiterateEdit
