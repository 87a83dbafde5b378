import LiterateEdit.Block.Basic
import LiterateEdit.Notice
import LiterateEdit.Text.Blank
import LiterateEdit.Text.LowerCase
import LiterateEdit.Text.Quoted
import LiterateEdit.Text.ShellWords

/-!
# Info strings

What stands behind an opening fence is its info string: the language, then header arguments, each a
word that starts with a colon and the words of its value. The info string is split into words as a
shell does; if a quote is left open, it is split at white space instead, with a warning.

The first word is the language unless it starts with a colon. A word that starts with a colon and
has more than the colon is a key; its name is the rest in lower case. The value of a key is made of
the words up to the next key, joined by single spaces. Words before the first key have no meaning. A
key that comes again overrides its earlier value.
-/

namespace LiterateEdit

/-- An info string taken apart. -/
structure Info where
  /-- The language, if one is named. -/
  language : Option Text
  /-- The header arguments. -/
  args : HeaderArgs
  deriving DecidableEq

namespace Info

/-- The words of an info string. -/
def words (info : Text) : Noted (List Text) :=
  match Text.shellWords info with
  | some ws => .quiet ws
  | none =>
    ⟨Text.blankWords info,
      [⟨.warning, .blocks, Text.lit "Unbalanced quotes in fence info " ++ Text.quoted info ++
        Text.lit "; splitting on whitespace"⟩]⟩

/-- Is the word a key? -/
def isKey : Text → Bool
  | ':' :: _ :: _ => true
  | _ => false

/-- The name that a key word gives. -/
def keyName (word : Text) : Text := Text.lower (word.drop 1)

/-- The language and the words behind it. -/
def splitLanguage : List Text → Option Text × List Text
  | [] => (none, [])
  | w :: ws => if w.head? = some ':' then (none, w :: ws) else (some w, ws)

/-- The keys among the words, each with its value, in order. -/
def pairs (ws : List Text) : List (Text × Text) :=
  match ws with
  | [] => []
  | w :: rest =>
    if isKey w then
      (keyName w, Text.join [' '] (rest.takeWhile fun v => !isKey v)) :: pairs rest
    else pairs rest

/-- A notice for every word before the first key. -/
def strayNotices (ws : List Text) : List Notice :=
  (ws.takeWhile fun w => !isKey w).map fun w =>
    ⟨.debug, .blocks, Text.lit "Ignoring stray fence info word " ++ Text.quoted w⟩

/-- The language and the header arguments that words give. -/
def ofWords (ws : List Text) : Info :=
  let (language, rest) := splitLanguage ws
  ⟨language, HeaderArgs.setAll [] (pairs rest)⟩

/-- Take an info string apart. -/
def parse (info : Text) : Noted Info :=
  (words info).andThen fun ws => ⟨ofWords ws, strayNotices (splitLanguage ws).2⟩

end Info

end LiterateEdit
