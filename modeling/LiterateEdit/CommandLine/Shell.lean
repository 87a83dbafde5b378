import LiterateEdit.CommandLine.Style
import LiterateEdit.Document.Files
import LiterateEdit.Document.Replace
import LiterateEdit.Session.Basic
import LiterateEdit.Settings.Load
import LiterateEdit.Tangle.Write

/-!
# What commands work on

A command runs in a shell: the files, the environment, and two outputs, one for results and one for
notices and errors. It goes on, or it stops: with an exit code, when it has told the user why, or
with a failure that is none of the expected ones and that the caller has to tell.
-/

namespace LiterateEdit

/-- What a command works on. -/
structure Shell where
  /-- The files. -/
  world : World
  /-- The environment. -/
  environment : Environment
  /-- Do the outputs show styles? -/
  styled : Bool
  /-- The level from which on notices are shown. -/
  level : Level := .warning
  /-- The output of results. -/
  out : Text := []
  /-- The output of notices and errors. -/
  err : Text := []

/-- A failure that a command does not expect. -/
inductive Failure where
  /-- Loading the settings. -/
  | settings (e : Settings.LoadError)
  /-- Reading the document. -/
  | document (e : DocumentError)
  /-- Reading the number of a block. -/
  | digits (e : Text.DigitError)
  /-- Reading a file. -/
  | read (e : ReadError)
  /-- Editing the block. -/
  | session (e : SessionError)
  /-- Putting the text into the document. -/
  | outside (e : OutsideDocument)
  /-- Writing the document. -/
  | write (e : FileError)
  /-- Writing the targets. -/
  | tangle (e : TangleError)
  /-- There is no colour of this name. -/
  | colour (name : Text)
  deriving DecidableEq

/-- What is told about a failure. -/
def Failure.message : Failure → Text
  | .settings (.unreadable e) => e.message Settings.file
  | .settings e => e.message?.getD (Text.lit "config.yaml holds no mapping from names")
  | .document e => e.message?.getD (Text.lit "the document cannot be read")
  | .digits e => e.message
  | .read (.encoding e) => e.message
  | .read (.file e) => Text.lit e.description.2
  | .session e => e.message?.getD (Text.lit "the block cannot be edited")
  | .outside e => e.message
  | .write e => Text.lit e.description.2
  | .tangle (.directory e) => e.message
  | .tangle (.write e place) => e.message place
  | .colour name => Text.lit "there is no colour " ++ Text.quoted name

/-- Why a command stops. -/
inductive Stop where
  /-- It has told why and exits with a code. -/
  | exit (code : Nat)
  /-- Something failed. -/
  | failed (f : Failure)
  deriving DecidableEq

/-- A part of a command. -/
abbrev Action := ExceptT Stop (StateM Shell)

namespace Shell

/-- A text as an output shows it. -/
def shown (s : Shell) (t : Text) : Text := if s.styled then t else stripStyles t

end Shell

namespace Action

/-- Change the shell. -/
def update (f : Shell → Shell) : Action Unit := modify f

/-- Put a text to the results. -/
def put (t : Text) : Action Unit := update fun s => { s with out := s.out ++ s.shown t }

/-- Put a line to the results. -/
def putLine (t : Text) : Action Unit := put (t ++ ['\n'])

/-- Put a line to the errors. -/
def complain (t : Text) : Action Unit :=
  update fun s => { s with err := s.err ++ s.shown (t ++ ['\n']) }

/-- Show those notices that are important enough. -/
def tell (ns : List Notice) : Action Unit :=
  update fun s =>
    { s with err := s.err ++ (ns.filter (Notice.atLeast s.level)).flatMap Notice.line }

/-- Stop with an exit code. -/
def quit (code : Nat) : Action α := throw (.exit code)

/-- Stop with a failure. -/
def fail (f : Failure) : Action α := throw (.failed f)

/-- Tell the user what is wrong, and why if there is more to say, and stop. -/
def reject (what : Text) (cause : Option Text) : Action α := do
  complain (Text.lit "Error: " ++ what)
  match cause with
  | none => pure ()
  | some c => complain (Text.lit "  " ++ c)
  quit 1

end Action

end LiterateEdit
