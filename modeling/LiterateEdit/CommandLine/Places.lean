import LiterateEdit.CommandLine.Run

/-!
# The places that a command looks at

A command runs on a picture of the files. The picture has to show the files that the command reads
(`Command.reads`) and what leads to the targets of its document (`Command.targetPlaces`), which are
known once the document is.
-/

namespace LiterateEdit

/-- A path with those that lead to it: each of its beginnings in normal form. -/
def Path.ancestry (p : Path) : List Path :=
  (List.range (p.parts.length + 1)).map fun n => Path.normal ⟨p.root, p.parts.take n⟩

namespace Command

/-- The files that a command reads. -/
def reads : Command → List Path
  | .blocks doc => [Settings.file, .ofText doc]
  | .context doc _ _ => [Settings.file, .ofText doc]
  | .edit doc _ textFile _ _ _ _ => [Settings.file, .ofText doc, .ofText textFile]
  | .tangle doc _ => [Settings.file, .ofText doc]

/-- The document that a command works on. -/
def document : Command → Text
  | .blocks doc => doc
  | .context doc _ _ => doc
  | .edit doc _ _ _ _ _ _ => doc
  | .tangle doc _ => doc

/-- The base directory of targets that the arguments of a command give. -/
def stagingDir? : Command → Option Text
  | .edit _ _ _ _ _ _ dir => dir
  | .tangle _ dir => dir
  | _ => none

/-- The places of the targets of a command's document, as far as they can be known. -/
def targetPlaces (c : Command) (w : World) (env : Environment) : List Path :=
  let overrides := [Action.override .stagingDir (c.stagingDir?.map .text)]
  match Settings.load w env overrides with
  | .error _ => []
  | .ok s =>
    match w.openDocument (.ofText c.document) s.dialect with
    | .error _ => []
    | .ok d =>
      match d.blocks with
      | .error _ => []
      | .ok bs =>
        (targetsOf bs.value).map (Target.place w.cwd (s.baseDirectory d.path.parent))

end Command

end LiterateEdit
