import LiterateEdit.Path.Basic
import LiterateEdit.Text.Lines
import LiterateEdit.Text.Quoted
import LiterateEdit.Text.Utf8

/-!
# A file system

A file system is a finite tree of directories and files without links, kept as a list of places and
what stands there. A place is the list of components that leads to it from the root; the root is
always a directory.

A path is walked component by component: every component but the last must lead to a directory, and
a double dot leads to the directory above the one reached so far. So `a/../b` is found only where
`a` is a directory, unlike its normal form.

`World` adds a current directory, from which relative paths are walked.
-/

namespace LiterateEdit

/-- What stands at a place. -/
inductive Entry where
  /-- A directory. -/
  | directory
  /-- A file and its content. -/
  | file (content : Bytes)
  deriving DecidableEq

/-- Why the file system refuses an operation. -/
inductive FileError where
  /-- Nothing stands at the place. -/
  | missing
  /-- Something stands at the place already. -/
  | occupied
  /-- A component that has to be a directory is a file. -/
  | notDirectory
  /-- The place holds a directory. -/
  | directory
  deriving DecidableEq

/-- The number of an error and its words. -/
def FileError.description : FileError → Nat × String
  | .missing => (2, "No such file or directory")
  | .occupied => (17, "File exists")
  | .notDirectory => (20, "Not a directory")
  | .directory => (21, "Is a directory")

/-- What is told about an operation on the path `p` that was refused. -/
def FileError.message (e : FileError) (p : Path) : Text :=
  Text.lit "[Errno " ++ Text.ofNat e.description.1 ++ Text.lit "] " ++ Text.lit e.description.2 ++
    Text.lit ": " ++ Text.quoted p.text

/-- A place: the components from the root. -/
abbrev Place := List Text

/-- The places below the root at which something stands. -/
structure FileSystem where
  /-- What stands where, in the order of creation. -/
  entries : List (Place × Entry)
  deriving DecidableEq

namespace FileSystem

/-- What stands at a place. -/
def get? (fs : FileSystem) (spot : Place) : Option Entry :=
  if spot = [] then some .directory else (fs.entries.find? fun e => e.1 = spot).map (·.2)

/-- Put something at a place, in place of what stood there. -/
def set (fs : FileSystem) (spot : Place) (e : Entry) : FileSystem :=
  if fs.entries.any fun x => x.1 = spot then
    ⟨fs.entries.map fun x => if x.1 = spot then (spot, e) else x⟩
  else ⟨fs.entries ++ [(spot, e)]⟩

/-- One step of a walk: the place that a component leads to from a place. -/
def step (fs : FileSystem) (here : Place) (part : Text) : Except FileError Place :=
  match fs.get? here with
  | none => .error .missing
  | some (.file _) => .error .notDirectory
  | some .directory => .ok (if part = ['.', '.'] then here.dropLast else here ++ [part])

/-- The place that components lead to from a place. -/
def walk (fs : FileSystem) (here : Place) : List Text → Except FileError Place
  | [] => .ok here
  | part :: rest =>
    match fs.step here part with
    | .error e => .error e
    | .ok next => fs.walk next rest

/-- What stands below a place. -/
def below (fs : FileSystem) (top : Place) : List (Place × Entry) :=
  fs.entries.filter fun e => top.isPrefixOf e.1 && e.1 ≠ top

end FileSystem

/-- A file system and the current directory. -/
structure World where
  /-- The file system. -/
  files : FileSystem
  /-- The current directory, an absolute path. -/
  cwd : Path
  deriving DecidableEq

namespace World

/-- The place that a path leads to. -/
def place (w : World) (p : Path) : Except FileError Place :=
  w.files.walk [] (w.cwd.append p).parts

/-- What stands where a path leads to. -/
def stat (w : World) (p : Path) : Except FileError Entry := do
  match w.files.get? (← w.place p) with
  | none => .error .missing
  | some e => .ok e

/-- Does the path lead to anything? -/
def exists? (w : World) (p : Path) : Bool := (w.stat p).isOk

/-- Does the path lead to a directory? -/
def isDirectory (w : World) (p : Path) : Bool :=
  match w.stat p with
  | .ok .directory => true
  | _ => false

/-- Does the path lead to a file? -/
def isFile (w : World) (p : Path) : Bool :=
  match w.stat p with
  | .ok (.file _) => true
  | _ => false

/-- Does the text of a path, as the user wrote it, lead to anything? Unlike in a `Path`, a slash or
a dot at the end asks for a directory, and the empty text leads nowhere. -/
def existsAsWritten (w : World) (t : Text) : Bool :=
  let asksDirectory := Text.endsWith ['/'] t || Text.endsWith ['/', '.'] t
  t ≠ [] && if asksDirectory then w.isDirectory (.ofText t) else w.exists? (.ofText t)

/-- The content of the file that a path leads to. -/
def read (w : World) (p : Path) : Except FileError Bytes := do
  match (← w.stat p) with
  | .directory => .error .directory
  | .file content => .ok content

/-- Write a file: a new one, if its directory is there, or in place of the old. -/
def write (w : World) (p : Path) (content : Bytes) : Except FileError World := do
  let place ← w.place p
  match w.files.get? place with
  | some .directory => .error .directory
  | _ =>
    if w.files.get? place.dropLast = none then .error .missing
    else .ok { w with files := w.files.set place (.file content) }

/-- Make a directory in a directory that is there. -/
def makeDirectory (w : World) (p : Path) : Except FileError World := do
  let place ← w.place p
  match w.files.get? place with
  | some _ => .error .occupied
  | none => .ok { w with files := w.files.set place .directory }

/-- Make a directory and accept one that is there already. -/
def acceptDirectory (w : World) (p : Path) : Except FileError Unit × World :=
  match w.makeDirectory p with
  | .ok w => (.ok (), w)
  | .error e => (if w.isDirectory p then .ok () else .error e, w)

/-- Make a directory with the missing ones above it; the components are given in reverse. What was
made before an attempt fails stays. -/
def makeDirectoriesAt (w : World) (root : Path.Root) : List Text → Except FileError Unit × World
  | [] => w.acceptDirectory ⟨root, []⟩
  | part :: above =>
    let p : Path := ⟨root, (part :: above).reverse⟩
    match w.makeDirectory p with
    | .ok w => (.ok (), w)
    | .error .missing =>
      match w.makeDirectoriesAt root above with
      | (.error e, w) => (.error e, w)
      | (.ok _, w) => w.acceptDirectory p
    | .error e => (if w.isDirectory p then .ok () else .error e, w)

/-- Make a directory with the missing ones above it, if it is not there. -/
def makeDirectories (w : World) (p : Path) : Except FileError Unit × World :=
  w.makeDirectoriesAt p.root p.parts.reverse

/-- All paths below a directory, as they are seen through the path that leads to it. -/
def descendants (w : World) (p : Path) : List Path :=
  match w.place p with
  | .error _ => []
  | .ok top =>
    if w.isDirectory p then
      (w.files.below top).map fun e => ⟨p.root, p.parts ++ e.1.drop top.length⟩
    else []

end World

/-- What can go wrong in reading a file as text. -/
inductive ReadError where
  /-- The file system refuses. -/
  | file (e : FileError)
  /-- The bytes are no UTF-8. -/
  | encoding (e : Utf8.Error)
  deriving DecidableEq

/-- What is told about a file at `p` that could not be read. -/
def ReadError.message (e : ReadError) (p : Path) : Text :=
  match e with
  | .file e => e.message p
  | .encoding e => e.message

/-- The text of a file, with every carriage return turned into a line feed. -/
def World.readText (w : World) (p : Path) : Except ReadError Text :=
  match w.read p with
  | .error e => .error (.file e)
  | .ok content =>
    match Utf8.decode content with
    | .error e => .error (.encoding e)
    | .ok t => .ok (Text.unixNewlines t)

/-- Write a text to a file as UTF-8. -/
def World.writeText (w : World) (p : Path) (t : Text) : Except FileError World :=
  w.write p (Utf8.encode t)

end LiterateEdit
