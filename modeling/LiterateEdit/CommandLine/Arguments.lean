import LiterateEdit.Client.Basic

/-!
# Arguments of the command line

The first argument names a command, and those behind it are its options and operands in any order.
An option starts with a hyphen; it is a flag, or it has a value, which is written behind an equals
sign or as the next argument, whatever that is. Behind two hyphens all arguments are operands. Of
repeated options the last one counts.

What does not have this form is an error of usage, and so is a missing or a surplus operand.
-/

namespace LiterateEdit

/-- What the user wants to be done. -/
inductive Command where
  /-- List the blocks of a document. -/
  | blocks (doc : Text)
  /-- Show a block in its context. -/
  | context (doc key : Text) (narrow : Option Bool)
  /-- Put the text of a file in the place of a block. -/
  | edit (doc key textFile : Text) (diff connect : Bool) (strategy : Option Strategy)
    (stagingDir : Option Text)
  /-- Write the targets of a document. -/
  | tangle (doc : Text) (stagingDir : Option Text)
  deriving DecidableEq

namespace Command

/-- The options that a command knows. -/
structure Options where
  /-- Those without a value. -/
  flags : List String
  /-- Those with a value. -/
  valued : List String

/-- The arguments of a command, sorted out. -/
structure Arguments where
  /-- The options with their values, flags with none, in reverse order. -/
  options : List (Text × Option Text)
  /-- The operands. -/
  operands : List Text

/-- Does an argument have the form of an option? -/
def isOption (a : Text) : Bool := a.head? = some '-' && 1 < a.length

/-- An option without the value behind its equals sign, and that value. -/
def splitOption (a : Text) : Text × Option Text :=
  let name := a.takeWhile (· ≠ '=')
  (name, if name.length = a.length then none else some (a.drop (name.length + 1)))

/-- Is a text one of some names? -/
def isNamed (names : List String) (t : Text) : Bool := names.any fun n => Text.lit n = t

/-- Sort arguments out, putting them behind those that are sorted out already. -/
def sortOut (known : Options) (done : Arguments) : List Text → Option Arguments
  | [] => some done
  | a :: rest =>
    if a = ['-', '-'] then some { done with operands := done.operands ++ rest }
    else if isOption a then
      let (name, value) := splitOption a
      if isNamed known.flags name then
        match value with
        | some _ => none
        | none => sortOut known { done with options := (name, none) :: done.options } rest
      else if isNamed known.valued name then
        match value with
        | some v => sortOut known { done with options := (name, some v) :: done.options } rest
        | none =>
          match rest with
          | v :: rest =>
            sortOut known { done with options := (name, some v) :: done.options } rest
          | [] => none
      else none
    else sortOut known { done with operands := done.operands ++ [a] } rest

namespace Arguments

/-- Is a flag given? -/
def has (a : Arguments) (name : String) : Bool := (a.options.lookup (Text.lit name)).isSome

/-- The value of an option. -/
def value? (a : Arguments) (name : String) : Option Text :=
  (a.options.lookup (Text.lit name)).join

/-- Which one of two flags was given last? -/
def choice? (a : Arguments) (yes no : String) : Option Bool :=
  a.options.findSome? fun o =>
    if o.1 = Text.lit yes then some true else if o.1 = Text.lit no then some false else none

end Arguments

/-- The option for the base directory of targets. -/
def stagingOption : String := "--staging-dir"

/-- The command that a name and sorted arguments write. -/
def ofArguments? (name : String) (a : Arguments) : Option Command :=
  match name, a.operands with
  | "blocks", [doc] => some (.blocks doc)
  | "context", [doc, key] => some (.context doc key (a.choice? "--narrow" "--no-narrow"))
  | "edit", [doc, key] => do
    let textFile ← a.value? "--text-file"
    let strategy ← match a.value? "--lsp-strategy" with
      | none => some none
      | some s => (Strategy.ofName? s).map some
    return .edit doc key textFile (a.has "--diff") (a.has "--connect") strategy
      (a.value? stagingOption)
  | "tangle", [doc] => some (.tangle doc (a.value? stagingOption))
  | _, _ => none

/-- The options of a command. -/
def optionsOf : String → Options
  | "context" => ⟨["--narrow", "--no-narrow"], []⟩
  | "edit" => ⟨["--diff", "--connect"], ["--text-file", "--lsp-strategy", stagingOption]⟩
  | "tangle" => ⟨[], [stagingOption]⟩
  | _ => ⟨[], []⟩

/-- The command that arguments without options in front write. -/
def ofNamed? : List Text → Option Command
  | [] => none
  | name :: rest =>
    let name := Text.toString name
    (sortOut (optionsOf name) ⟨[], []⟩ rest).bind (ofArguments? name)

/-- The command that arguments write. -/
def ofList? : List Text → Option Command
  | [] => none
  | a :: rest =>
    if a = ['-', '-'] then ofNamed? rest
    else if isOption a then none
    else ofNamed? (a :: rest)

/-- How the commands are written. -/
def usage : String :=
  "usage: mdctx blocks PATH\n" ++
  "       mdctx context PATH BLOCK [--narrow | --no-narrow]\n" ++
  "       mdctx edit PATH BLOCK --text-file FILE [--diff] [--connect]\n" ++
  "                  [--lsp-strategy eglot|lsp-mode] [--staging-dir DIR]\n" ++
  "       mdctx tangle PATH [--staging-dir DIR]\n"

end Command

end LiterateEdit
