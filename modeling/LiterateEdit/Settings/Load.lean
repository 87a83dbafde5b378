import LiterateEdit.FileSystem.Basic
import LiterateEdit.Settings.Basic
import LiterateEdit.Yaml.Load

/-!
# Where settings come from

Settings are gathered from three sources, a later one winning over an earlier one field by field:
the file `config.yaml` in the current directory, the environment, where a variable that is not empty
gives a field, and the overrides of the caller, where nothing means no override. Values are read
only when all sources are gathered (`Settings.ofEntries`).

The file holds one YAML value. One that counts as absent gives nothing; one that is no mapping is an
error, which is told by the first source that is put onto it.
-/

namespace LiterateEdit

/-- The variables of the environment with their values. -/
abbrev Environment := List (Text × Text)

/-- The variable that gives a field. -/
def Field.variable (f : Field) : Text := Text.lit "MDCTX_" ++ Text.asciiUpper (Text.lit f.name)

namespace Settings

/-- The file that settings are read from. -/
def file : Path := .ofText (Text.lit "config.yaml")

/-- Why settings cannot be loaded. -/
inductive LoadError where
  /-- The file cannot be read. -/
  | unreadable (e : ReadError)
  /-- The file is no YAML, or holds a scalar that does not fit its type. -/
  | yaml (e : Yaml.Error)
  /-- The file holds a value that takes no single entries. -/
  | takesNoEntry
  /-- The file holds a value that cannot be updated with overrides. -/
  | takesNoUpdate
  /-- The gathered value is no mapping from texts. -/
  | noNames
  /-- Fields cannot be read. -/
  | invalid (faults : List (Field × FieldFault))
  deriving DecidableEq

/-- The start of the message about a file that is no YAML. -/
def invalidFile : String := "Invalid config.yaml:"

/-- The start of the message about fields that cannot be read. -/
def invalidFields : String := "Invalid settings:"

/-- What is told about settings that cannot be loaded, if anything is. -/
def LoadError.message? : LoadError → Option Text
  | .unreadable (.encoding e) => some e.message
  | .yaml .malformed => some (Text.lit invalidFile ++ Text.lit " the file is no YAML")
  | .yaml (.unfit reason) => some reason
  | .invalid faults =>
    some (Text.lit invalidFields ++ faults.flatMap fun f =>
      Text.lit "\n  " ++ Text.lit f.1.name ++ [' '] ++ Text.lit f.2.message)
  | _ => none

/-- The value that the file holds; an empty mapping if there is no file. -/
def fileValue (w : World) : Except LoadError Yaml.Value :=
  if w.exists? file then
    match w.readText file with
    | .error e => .error (.unreadable e)
    | .ok t =>
      match Yaml.load t with
      | .error e => .error (.yaml e)
      | .ok v => .ok (if v.isVoid then .map [] else v)
  else .ok (.map [])

/-- A value with an entry put in. -/
def withEntry (v : Yaml.Value) (name : Text) (entry : Yaml.Value) :
    Except LoadError Yaml.Value :=
  match v with
  | .map entries => .ok (.map (Yaml.Value.insert (.text name) entry entries))
  | _ => .error .takesNoEntry

/-- A value with the fields put in that the environment gives. -/
def withEnvironment (env : Environment) (v : Yaml.Value) : Except LoadError Yaml.Value :=
  Field.all.foldlM (fun v f =>
    match env.lookup f.variable with
    | none => .ok v
    | some [] => .ok v
    | some t => withEntry v (Text.lit f.name) (.text t)) v

/-- A value with overrides put in. A set can be updated too, but gives no settings. -/
def withOverrides (overrides : Entries) (v : Yaml.Value) : Except LoadError Yaml.Value :=
  if overrides.isEmpty then .ok v
  else
    match v with
    | .map entries =>
      .ok (.map (overrides.foldl (fun entries o =>
        match o.2 with
        | .null => entries
        | w => Yaml.Value.insert (.text o.1) w entries) entries))
    | .set vs => .ok (.set vs)
    | _ => .error .takesNoUpdate

/-- An entry whose key is a text. -/
def namedEntry (e : Yaml.Value × Yaml.Value) : Except LoadError (Text × Yaml.Value) :=
  match e.1 with
  | .text name => .ok (name, e.2)
  | _ => .error .noNames

/-- The entries of a mapping from texts. -/
def entries : Yaml.Value → Except LoadError Entries
  | .map kvs => kvs.mapM namedEntry
  | _ => .error .noNames

/-- Load the settings. -/
def load (w : World) (env : Environment) (overrides : Entries) : Except LoadError Settings := do
  let v ← withOverrides overrides (← withEnvironment env (← fileValue w))
  match ofEntries (← entries v) with
  | .ok s => .ok s
  | .error faults => .error (.invalid faults)

end Settings

end LiterateEdit
