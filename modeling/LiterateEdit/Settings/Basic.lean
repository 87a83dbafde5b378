import LiterateEdit.Client.Basic
import LiterateEdit.Document.Basic
import LiterateEdit.Text.Utf8
import LiterateEdit.Yaml.Value

/-!
# Settings

What a user can choose: seven fields, each with a default. A field is read from a YAML value on its
own, and other names are left alone; so each field has its own reason why it cannot be read, and all
reasons are told at once (`Settings.ofEntries`).

Truth values are read leniently: the usual words in any case, and the numbers zero and one. Bytes
are taken for the text that they encode.
-/

namespace LiterateEdit

/-- A field of the settings. -/
inductive Field where
  | appName
  | narrow
  | strategy
  | stagingDir
  | dialect
  | background
  | logLevel
  deriving DecidableEq

namespace Field

/-- The name of a field. -/
def name : Field → String
  | .appName => "app_name"
  | .narrow => "narrow"
  | .strategy => "lsp_strategy"
  | .stagingDir => "staging_dir"
  | .dialect => "parser_config"
  | .background => "context_bg"
  | .logLevel => "log_level"

/-- All fields in their order. -/
def all : List Field :=
  [.appName, .narrow, .strategy, .stagingDir, .dialect, .background, .logLevel]

end Field

/-- Why a field cannot be read. -/
inductive FieldFault where
  /-- The value is no text. -/
  | noText
  /-- The value is bytes that encode no text. -/
  | noUnicode
  /-- The value is of a type that truth values are not read from. -/
  | noTruthValue
  /-- The value is a text or a number that means neither truth value. -/
  | unclearTruthValue
  /-- The value is no name of a strategy. -/
  | noStrategy
  /-- The text is no name of a level. -/
  | noLevel
  deriving DecidableEq

/-- What is told about a field that cannot be read. -/
def FieldFault.message : FieldFault → String
  | .noText => "should be a text"
  | .noUnicode => "should be UTF-8"
  | .noTruthValue => "should be a truth value"
  | .unclearTruthValue => "is not clear as a truth value"
  | .noStrategy => "should be eglot or lsp-mode"
  | .noLevel => "should be DEBUG, INFO, WARNING, ERROR or CRITICAL"

/-- What a user can choose. -/
structure Settings where
  /-- The name of the program. -/
  appName : Text := Text.lit "mdctx"
  /-- Is the user confined to the editable region? -/
  narrow : Bool := false
  /-- How files are given to language servers. -/
  strategy : Strategy := .eglot
  /-- The directory that targets are relative to; `none` for that of the document. -/
  stagingDir : Option Text := none
  /-- The name of the dialect that documents are read in. -/
  dialect : Text := Document.defaultDialect
  /-- The background colour of context. -/
  background : Text := Text.lit "bright_black"
  /-- The level from which on notices are shown. -/
  logLevel : Level := .warning
  deriving DecidableEq

namespace Settings

/-! ### Reading values -/

/-- Read a text. -/
def readText : Yaml.Value → Except FieldFault Text
  | .text t => .ok t
  | .bytes bs =>
    match Utf8.decode bs with
    | .ok t => .ok t
    | .error _ => .error .noUnicode
  | _ => .error .noText

/-- Read a text that may be missing. -/
def readOptionalText : Yaml.Value → Except FieldFault (Option Text)
  | .null => .ok none
  | v => (readText v).map some

/-- The truth value that a word means. -/
def wordTruth? (t : Text) : Option Bool :=
  let w := Text.toString (Text.asciiLower t)
  if w ∈ ["0", "off", "f", "false", "n", "no"] then some false
  else if w ∈ ["1", "on", "t", "true", "y", "yes"] then some true
  else none

/-- The truth value that a whole number means. -/
def numberTruth? (n : Int) : Option Bool :=
  if n = 0 then some false else if n = 1 then some true else none

/-- The truth value that was found, if any. -/
def clear : Option Bool → Except FieldFault Bool
  | some b => .ok b
  | none => .error .unclearTruthValue

/-- The bound of signed numbers of 64 bits. -/
def wordBound : Int := 0x8000000000000000

/-- Read a truth value. Numbers out of the range of 64 bits are not even taken for numbers. -/
def readTruth : Yaml.Value → Except FieldFault Bool
  | .bool b => .ok b
  | .int n =>
    if -wordBound ≤ n ∧ n < wordBound then clear (numberTruth? n) else .error .noTruthValue
  | .float x =>
    match Decimal.toInt? x with
    | some n =>
      if -wordBound < n ∧ n < wordBound then clear (numberTruth? n) else .error .noTruthValue
    | none => .error .noTruthValue
  | .text t => clear (wordTruth? t)
  | .bytes bs =>
    match Utf8.decode bs with
    | .ok t => clear (wordTruth? t)
    | .error _ => .error .unclearTruthValue
  | _ => .error .noTruthValue

/-- Read a strategy. -/
def readStrategy (v : Yaml.Value) : Except FieldFault Strategy :=
  match (readText v).toOption.bind Strategy.ofName? with
  | some s => .ok s
  | none => .error .noStrategy

/-- Read a level. -/
def readLevel (v : Yaml.Value) : Except FieldFault Level := do
  match Level.ofName? (← readText v) with
  | some l => .ok l
  | none => .error .noLevel

/-! ### Reading entries -/

/-- Settings with a field read from a value. -/
def set (s : Settings) (v : Yaml.Value) : Field → Except FieldFault Settings
  | .appName => (readText v).map fun t => { s with appName := t }
  | .narrow => (readTruth v).map fun b => { s with narrow := b }
  | .strategy => (readStrategy v).map fun k => { s with strategy := k }
  | .stagingDir => (readOptionalText v).map fun t => { s with stagingDir := t }
  | .dialect => (readText v).map fun t => { s with dialect := t }
  | .background => (readText v).map fun t => { s with background := t }
  | .logLevel => (readLevel v).map fun l => { s with logLevel := l }

/-- Names with the values that are given to them. -/
abbrev Entries := List (Text × Yaml.Value)

/-- The value that is given to a field. -/
def given (entries : Entries) (f : Field) : Option Yaml.Value :=
  (entries.find? fun e => e.1 = Text.lit f.name).map (·.2)

/-- Settings with a field read from entries; the reasons why fields could not be read are kept. -/
def setGiven (entries : Entries) (acc : Settings × List (Field × FieldFault)) (f : Field) :
    Settings × List (Field × FieldFault) :=
  match given entries f with
  | none => acc
  | some v =>
    match acc.1.set v f with
    | .ok s => (s, acc.2)
    | .error fault => (acc.1, acc.2 ++ [(f, fault)])

/-- The settings that entries give, and the defaults for fields that are not among them. -/
def ofEntries (entries : Entries) : Except (List (Field × FieldFault)) Settings :=
  match Field.all.foldl (setGiven entries) ({}, []) with
  | (s, []) => .ok s
  | (_, faults) => .error faults

end Settings

end LiterateEdit
