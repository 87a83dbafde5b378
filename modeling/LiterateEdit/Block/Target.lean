import LiterateEdit.Block.Basic
import LiterateEdit.Path.Basic
import LiterateEdit.Text.Blank
import LiterateEdit.Text.LowerCase

/-!
# Targets

The header argument `tangle` says which file a block is a part of. Blank or `no` means none; `yes`
means the file named after the document with the ending of the block's language; anything else names
the file.

Two spellings mean the same target if they have the same normal form, with backslashes read as
slashes. `blocksFor` picks the blocks of one target in document order.
-/

namespace LiterateEdit

namespace Target

/-- The file endings of the languages that have one other than their name. -/
def endings : List (String × String) :=
  [("python", "py"), ("py", "py"), ("javascript", "js"), ("js", "js"), ("typescript", "ts"),
   ("ts", "ts"), ("shell", "sh"), ("sh", "sh"), ("bash", "sh"), ("rust", "rs"), ("go", "go"),
   ("ruby", "rb"), ("c", "c"), ("cpp", "cpp"), ("java", "java"), ("elisp", "el"),
   ("emacs-lisp", "el"), ("yaml", "yaml"), ("toml", "toml")]

/-- The file ending of a language: the one listed for it, else its name, else that of plain text. -/
def ending (language : Option Text) : Text :=
  let name := Text.lower (language.getD [])
  match endings.find? fun e => Text.lit e.1 = name with
  | some e => Text.lit e.2
  | none =>
    match language with
    | none => Text.lit "txt"
    | some [] => Text.lit "txt"
    | some l => l

/-- The target that the header arguments of a block name, in the document at `doc`. -/
def ofArgs (args : HeaderArgs) (language : Option Text) (doc : Path) : Option Text :=
  let tangle := Text.strip ((args.get? (Text.lit "tangle")).getD [])
  if tangle = [] ∨ Text.lower tangle = Text.lit "no" then none
  else if Text.lower tangle = Text.lit "yes" then some (doc.stem ++ ['.'] ++ ending language)
  else some tangle

/-- The normal form of a target's spelling. -/
def normal (target : Text) : Text :=
  (Path.ofText (target.map fun c => if c = '\\' then '/' else c)).normal.text

end Target

/-- Is the block a part of a target, given by its normal form? -/
def Block.isPartOf (wanted : Text) (b : Block) : Bool :=
  match b.target? with
  | none => false
  | some t => Target.normal t = wanted

/-- The blocks of a target, in document order. -/
def blocksFor (blocks : List Block) (target : Option Text) : List Block :=
  match target with
  | none => []
  | some [] => []
  | some t => blocks.filter (Block.isPartOf (Target.normal t))

end LiterateEdit
