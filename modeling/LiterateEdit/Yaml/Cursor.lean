import LiterateEdit.Text.Utf8
import LiterateEdit.Yaml.Error

/-!
# A place in a YAML text

Reading tokens moves a cursor over the text. The cursor knows its line and column, on which the
structure of a YAML document depends: a line feed, a next-line character, a line or paragraph
separator, or a carriage return ends a line, and a carriage return before a line feed does not
count. Behind the end of the text every character reads as the null character, which a YAML text
never holds.
-/

namespace LiterateEdit.Yaml

/-- A place in a text. -/
structure Cursor where
  /-- The text from here on. -/
  rest : Text
  /-- How many characters stand before. -/
  index : Nat
  /-- How many lines have ended before. -/
  line : Nat
  /-- How many characters of the line stand before. -/
  column : Nat

/-- What reading at a cursor gives. -/
abbrev Scan := StateT Cursor (Except Error)

/-- Does `c` end a line? -/
def isBreak (c : Char) : Bool :=
  c = '\n' || c = '\r' || c = '\u0085' || c = '\u2028' || c = '\u2029'

/-- Is `c` a line break or the end? -/
def isBreakOrEnd (c : Char) : Bool := isBreak c || c = '\x00'

/-- Is `c` a space, a line break or the end? -/
def isSpaceOrEnd (c : Char) : Bool := c = ' ' || isBreakOrEnd c

/-- Is `c` a space, a tab, a line break or the end? -/
def isBlankOrEnd (c : Char) : Bool := c = '\t' || isSpaceOrEnd c

/-- May `c` stand in a YAML text? -/
def isAllowed (c : Char) : Bool :=
  let n := c.toNat
  n = 0x09 || n = 0x0a || n = 0x0d || (0x20 ≤ n && n ≤ 0x7e) || n = 0x85 ||
    (0xa0 ≤ n && n ≤ 0xd7ff) || (0xe000 ≤ n && n ≤ 0xfffd) || 0x10000 ≤ n

/-- May `c` stand in a name: of an anchor, a directive or a tag handle? -/
def isNameChar (c : Char) : Bool :=
  Text.isAsciiLetter c || Text.isAsciiDigit c || c = '-' || c = '_'

/-- The place behind the next character. -/
def Cursor.next (c : Cursor) : Cursor :=
  match c.rest with
  | [] => c
  | ch :: t =>
    if isBreak ch && !(ch = '\r' && t.head? = some '\n') then ⟨t, c.index + 1, c.line + 1, 0⟩
    else if ch = '\ufeff' then ⟨t, c.index + 1, c.line, c.column⟩
    else ⟨t, c.index + 1, c.line, c.column + 1⟩

/-- The place behind the next `n` characters. -/
def Cursor.skip : Nat → Cursor → Cursor
  | 0, c => c
  | n + 1, c => c.next.skip n

/-- The character `k` places ahead. -/
def Cursor.peek (c : Cursor) (k : Nat) : Char := c.rest.getD k '\x00'

/-- Does the line start with a marker between documents? -/
def Cursor.atDocumentMarker (c : Cursor) : Bool :=
  (Text.startsWith (Text.lit "---") c.rest || Text.startsWith (Text.lit "...") c.rest) &&
    isBlankOrEnd (c.peek 3)

namespace Scan

/-- The text makes no sense here. -/
def fail : Scan α := throw .malformed

/-- Go on only if a condition holds. -/
def require (p : Bool) : Scan Unit := if p then pure () else fail

/-- The character `k` places ahead. -/
def peek (k : Nat) : Scan Char := do return (← get).peek k

/-- Pass `n` characters. -/
def forward (n : Nat) : Scan Unit := modify (Cursor.skip n)

/-- Pass the characters of a class and tell them. -/
def takeWhile (p : Char → Bool) : Scan Text := do
  let t := (← get).rest.takeWhile p
  forward t.length
  return t

/-- Pass the characters of a class. -/
def skipWhile (p : Char → Bool) : Scan Unit := do
  let _ ← takeWhile p

/-- Pass a line break and tell how it reads: most breaks read as a line feed. At any other character
nothing is passed. -/
def lineBreak : Scan Text := do
  let c ← peek 0
  if c = '\r' ∧ (← peek 1) = '\n' then
    forward 2
    return ['\n']
  else if c = '\r' ∨ c = '\n' ∨ c = '\u0085' then
    forward 1
    return ['\n']
  else if c = '\u2028' ∨ c = '\u2029' then
    forward 1
    return [c]
  else return []

/-- Pass the rest of a line that may hold a comment, and the line break. -/
def restOfLine : Scan Unit := do
  skipWhile (· = ' ')
  if (← peek 0) = '#' then skipWhile fun c => !isBreakOrEnd c
  require (isBreakOrEnd (← peek 0))
  let _ ← lineBreak

end Scan

end LiterateEdit.Yaml
