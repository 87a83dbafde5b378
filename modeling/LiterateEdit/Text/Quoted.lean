import LiterateEdit.Text.Printable

/-!
# Quoted texts

How a message shows a text so that every character can be told: between quotes, with the quotes, the
backslash and all unprintable characters escaped. Single quotes are used unless the text holds a
single quote and no double quote. Unprintable characters are written by their code point with two,
four or eight hexadecimal digits, whichever is the first to suffice; tab, line feed and carriage
return have escapes of their own.
-/

namespace LiterateEdit.Text

/-- The code point of `c` as an escape. -/
def codeEscape (c : Char) : Text :=
  let n := c.toNat
  if n < 0x100 then lit "\\x" ++ ofHex 2 n
  else if n < 0x10000 then lit "\\u" ++ ofHex 4 n
  else lit "\\U" ++ ofHex 8 n

/-- One character between quotes of the kind `quote`. -/
def quotedChar (quote c : Char) : Text :=
  if c = quote ∨ c = '\\' then ['\\', c]
  else if c = '\t' then lit "\\t"
  else if c = '\n' then lit "\\n"
  else if c = '\r' then lit "\\r"
  else if isPrintable c then [c]
  else codeEscape c

/-- The kind of quotes that a text is put between. -/
def quoteFor (t : Text) : Char := if '\'' ∈ t ∧ '"' ∉ t then '"' else '\''

/-- A text between quotes. -/
def quoted (t : Text) : Text :=
  quoteFor t :: t.flatMap (quotedChar (quoteFor t)) ++ [quoteFor t]

end LiterateEdit.Text
