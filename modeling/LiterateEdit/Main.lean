import LiterateEdit.CommandLine.Places

/-!
# The program

Takes a picture of the files that the command looks at, runs the command on it, and carries out what
the command changed in the picture.
-/

namespace LiterateEdit.Program

/-- What stands at a path. What is there and cannot be read as a file is taken for a directory. -/
def look (p : Path) : IO (Option Entry) := do
  let name := Text.toString p.text
  try
    return some (.file (← IO.FS.readBinFile name).toList)
  catch _ =>
    try
      discard (IO.FS.realPath name)
      return some .directory
    catch _ =>
      return none

/-- The picture with what stands at a path. -/
def showPlace (w : World) (p : Path) : IO World := do
  match ← look p with
  | some e => return { w with files := w.files.set p.parts e }
  | none => return w

/-- The picture with what stands at some paths and leads to them. -/
def showPaths (w : World) (ps : List Path) : IO World := do
  let places := (ps.flatMap fun p => (w.cwd.append p).ancestry).eraseDups
  (places.filter fun p => p.parts ≠ []).foldlM showPlace w

/-- Make what is in the second picture and not in the first. -/
def carryOut (before after : World) : IO Unit :=
  for (place, e) in after.files.entries do
    if before.files.get? place ≠ some e then
      let name := Text.toString (Path.text ⟨.slash, place⟩)
      match e with
      | .directory => IO.FS.createDir name
      | .file content => IO.FS.writeBinFile name ⟨content.toArray⟩

/-- The variables of the environment that give fields of the settings. -/
def environment : IO Environment := do
  let values ← Field.all.mapM fun f => do
    let value ← IO.getEnv (Text.toString f.variable)
    return value.map fun v => (f.variable, Text.lit v)
  return values.filterMap id

/-- A picture of the files that arguments make the program look at. -/
def picture (args : List Text) (env : Environment) : IO World := do
  let cwd := Path.ofText (Text.lit (toString (← IO.currentDir)))
  let empty : World := ⟨⟨[]⟩, cwd⟩
  match Command.ofList? args with
  | none => return empty
  | some c =>
    let w ← showPaths empty c.reads
    showPaths w (c.targetPlaces w env)

end LiterateEdit.Program

open LiterateEdit LiterateEdit.Program in
/-- Runs the command that the arguments ask for. -/
def main (args : List String) : IO UInt32 := do
  let args := args.map Text.lit
  let env ← environment
  let before ← picture args env
  let stdout ← IO.getStdout
  let ending := Command.run args
    { world := before, environment := env, styled := ← stdout.isTty }
  carryOut before ending.shell.world
  stdout.putStr (Text.toString ending.shell.out)
  IO.eprint (Text.toString ending.shell.err)
  if ending.code = Command.usageCode then IO.eprint Command.usage
  match ending.failure with
  | some f => IO.eprintln (Text.toString f.message)
  | none => pure ()
  return UInt32.ofNat ending.code
