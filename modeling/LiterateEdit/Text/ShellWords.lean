import LiterateEdit.Text.Basic

/-!
# Shell words

Splitting a text into words as a shell does. Words are separated by runs of space, tab, carriage
return and line feed. Single quotes keep everything between them; double quotes keep everything but
a backslash before a double quote or a backslash; outside quotes a backslash keeps the next
character. Quoted pieces join what they touch, and an empty quoted piece is a word. There are no
comments.

A text whose last quote is not closed, or that ends in a backslash, has no words: `shellWords`
answers `none`.
-/

namespace LiterateEdit.Text

/-- Does `c` separate words? -/
def isShellGap (c : Char) : Bool := c = ' ' || c = '\t' || c = '\r' || c = '\n'

/-- What the reader of words stands in, with the word read so far. -/
inductive ShellMode where
  /-- Between two words. -/
  | gap
  /-- In a word, outside quotes. -/
  | word (w : Text)
  /-- Between single quotes. -/
  | single (w : Text)
  /-- Between double quotes. -/
  | double (w : Text)
  /-- Behind a backslash outside quotes. -/
  | escape (w : Text)
  /-- Behind a backslash between double quotes. -/
  | doubleEscape (w : Text)
  deriving DecidableEq

/-- What the reader stands in behind a character outside quotes, where `w` is the word so far. -/
def ShellMode.outside (w : Text) (c : Char) : ShellMode :=
  if c = '\\' then .escape w
  else if c = '\'' then .single w
  else if c = '"' then .double w
  else .word (w ++ [c])

/-- The words of the rest of a text. -/
def shellWordsFrom : ShellMode → Text → Option (List Text)
  | .gap, [] => some []
  | .word w, [] => some [w]
  | .single _, [] => none
  | .double _, [] => none
  | .escape _, [] => none
  | .doubleEscape _, [] => none
  | .gap, c :: t => shellWordsFrom (if isShellGap c then .gap else .outside [] c) t
  | .word w, c :: t =>
    if isShellGap c then (shellWordsFrom .gap t).map (w :: ·)
    else shellWordsFrom (.outside w c) t
  | .single w, c :: t => shellWordsFrom (if c = '\'' then .word w else .single (w ++ [c])) t
  | .double w, c :: t =>
    shellWordsFrom
      (if c = '"' then .word w else if c = '\\' then .doubleEscape w else .double (w ++ [c])) t
  | .escape w, c :: t => shellWordsFrom (.word (w ++ [c])) t
  | .doubleEscape w, c :: t =>
    shellWordsFrom (.double (if c = '"' ∨ c = '\\' then w ++ [c] else w ++ ['\\', c])) t

/-- The words of a text, or `none` if a quote or a backslash is left open. -/
def shellWords (t : Text) : Option (List Text) := shellWordsFrom .gap t

example : shellWords "a \"b c\" '' d\\ e".toList =
    some ["a".toList, "b c".toList, [], "d e".toList] := by decide +kernel

example : shellWords "a 'b".toList = none := by decide +kernel

end LiterateEdit.Text
