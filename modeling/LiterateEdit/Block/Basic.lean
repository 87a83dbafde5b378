import LiterateEdit.Text.Basic

/-!
# Source blocks

A source block is a fenced piece of source text in a literate document. It knows where it stands,
its language, the file that it is a part of (its target), and its header arguments, a mapping from
names to texts.

Header arguments are kept in the order in which their names first came up. Setting an argument that
is there already keeps its place; `get?_set` says what can be read after a setting.
-/

namespace LiterateEdit

/-- Header arguments: names with their values, each name once. -/
abbrev HeaderArgs := List (Text × Text)

namespace HeaderArgs

/-- The value of an argument. -/
def get? (args : HeaderArgs) (key : Text) : Option Text := args.lookup key

/-- Give an argument a value. -/
def set : HeaderArgs → Text → Text → HeaderArgs
  | [], key, value => [(key, value)]
  | (k, v) :: rest, key, value =>
    if k = key then (k, value) :: rest else (k, v) :: set rest key value

/-- Give arguments their values one after another. -/
def setAll (args : HeaderArgs) (more : List (Text × Text)) : HeaderArgs :=
  more.foldl (fun a kv => a.set kv.1 kv.2) args

/-- After a setting the argument has the new value and all others have theirs. -/
theorem get?_set (args : HeaderArgs) (key value k : Text) :
    (args.set key value).get? k = if k = key then some value else args.get? k := by
  induction args with
  | nil => by_cases h : k = key <;> simp [set, get?, List.lookup_cons, h, beq_eq_false_iff_ne.2]
  | cons kv rest ih =>
    obtain ⟨a, b⟩ := kv
    simp only [get?] at ih
    by_cases h : a = key <;> by_cases h' : k = key <;> by_cases h'' : k = a <;>
      simp_all [set, get?, List.lookup_cons, beq_eq_false_iff_ne.2]

end HeaderArgs

/-- A fenced source block of a literate document. -/
structure Block where
  /-- What tells the block from the others of its document. -/
  identity : Text
  /-- The language of the source text. -/
  language : Option Text
  /-- The file that the block is a part of, relative to a base directory or absolute. -/
  target : Option Text
  /-- The header arguments. -/
  args : HeaderArgs
  /-- The source text, with the line feed that ends it. -/
  text : Text
  /-- The name that the block was given. -/
  name : Option Text
  /-- The line of the opening fence. -/
  first : Int
  /-- The line behind the block. -/
  stop : Int
  deriving DecidableEq

/-- May missing directories of the target be made? The value of the argument that says so. -/
def Block.mkdirp (b : Block) : Option Text := b.args.get? (Text.lit "mkdirp")

/-- The target, unless it is missing or empty. -/
def Block.target? (b : Block) : Option Text :=
  match b.target with
  | some [] => none
  | t => t

end LiterateEdit
