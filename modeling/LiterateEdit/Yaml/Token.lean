import LiterateEdit.Yaml.Lexeme

/-!
# The tokens of a YAML text

Outside of brackets and braces the structure of a YAML text lies in its indentation. A stack of
columns tells which block collections are open: an item or a key to the right of the innermost
column opens one, and a token to the left closes those it is to the left of.

A key can be simple, that is, be known as a key only by the colon behind it. So every token that
could start a simple key is remembered, one for each level of brackets, and the token that says that
a key starts is put before it when the colon comes. A simple key lies on one line and spans at most
1024 characters.

`tokens` reads all tokens of a text; if the text makes no sense at some place, the last token says
so.
-/

namespace LiterateEdit.Yaml

/-- A token of a YAML text. -/
inductive Token where
  | directive (d : Directive)
  | documentStart
  | documentEnd
  | blockSequenceStart
  | blockMappingStart
  | blockEnd
  | flowSequenceStart
  | flowSequenceEnd
  | flowMappingStart
  | flowMappingEnd
  | flowEntry
  | blockEntry
  | key
  | value
  | alias (name : Text)
  | anchor (name : Text)
  | tag (t : TagName)
  /-- A scalar; a plain one is one without quotes and indicators. -/
  | scalar (t : Text) (plain : Bool)
  /-- The end of the text. -/
  | done
  /-- The text makes no sense from here on. -/
  | fault (e : Error)
  deriving DecidableEq

/-- A token that could start a simple key. -/
structure PossibleKey where
  /-- The place of the token among all tokens. -/
  token : Nat
  /-- Must a key start here? -/
  required : Bool
  /-- Where the token starts. -/
  index : Nat
  /-- The line of the token. -/
  line : Nat
  /-- The column of the token. -/
  column : Nat

/-- What is known between two tokens. -/
structure Lexer where
  /-- The place in the text. -/
  cursor : Cursor
  /-- The tokens so far, in reverse. -/
  made : List Token
  /-- How many brackets and braces are open. -/
  depth : Nat
  /-- The column of the innermost block collection, `-1` if there is none. -/
  indent : Int
  /-- The columns of the block collections around it. -/
  outer : List Int
  /-- Can a simple key start here? -/
  keyAllowed : Bool
  /-- The tokens that could start a simple key, with the levels of brackets they are on. -/
  keys : List (Nat × PossibleKey)

namespace Lexer

/-- Reading with a lexer. -/
abbrev Lex := StateT Lexer (Except Error)

/-- The lexer before the first token. -/
def initial (t : Text) : Lexer := ⟨⟨t, 0, 0, 0⟩, [], 0, -1, [], true, []⟩

/-- Read a piece of the text. -/
def scan (s : Scan α) : Lex α := do
  let l ← get
  let (a, c) ← s.run l.cursor
  set { l with cursor := c }
  return a

/-- Put a token behind the others. -/
def emit (t : Token) : Lex Unit := modify fun l => { l with made := t :: l.made }

/-- Put a token before the one at a place. -/
def insertAt (place : Nat) (t : Token) : Lex Unit :=
  modify fun l =>
    let behind := l.made.length - place
    { l with made := l.made.take behind ++ t :: l.made.drop behind }

/-- Allow or forbid a simple key at the next token. -/
def allowKey (b : Bool) : Lex Unit := modify fun l => { l with keyAllowed := b }

/-- How many characters a simple key may span. -/
def maxKeyLength : Nat := 1024

/-- Can a token no longer start a simple key that ends at a place? -/
def isStale (c : Cursor) (k : PossibleKey) : Bool :=
  k.line ≠ c.line || maxKeyLength < c.index - k.index

/-- Forget the tokens that can no longer start a simple key. -/
def dropStaleKeys : Lex Unit := do
  let l ← get
  if l.keys.any fun k => isStale l.cursor k.2 && k.2.required then throw .malformed
  set { l with keys := l.keys.filter fun k => !isStale l.cursor k.2 }

/-- Forget the token on this level of brackets that could start a simple key. -/
def dropKey : Lex Unit := do
  let l ← get
  match l.keys.lookup l.depth with
  | none => pure ()
  | some k =>
    if k.required then throw .malformed
    set { l with keys := l.keys.filter fun x => x.1 ≠ l.depth }

/-- Remember that the next token could start a simple key, if it could. -/
def saveKey : Lex Unit := do
  let l ← get
  let required := l.depth = 0 && l.indent = l.cursor.column
  if l.keyAllowed then
    dropKey
    let k : PossibleKey :=
      ⟨l.made.length, required, l.cursor.index, l.cursor.line, l.cursor.column⟩
    modify fun l => { l with keys := (l.depth, k) :: l.keys }

/-- The open columns and how many of them are closed by a token at a column. -/
def unwound (column : Int) : Int → List Int → Int × List Int × Nat
  | indent, [] => (indent, [], 0)
  | indent, i :: outer =>
    if column < indent then
      let (i, o, n) := unwound column i outer
      (i, o, n + 1)
    else (indent, i :: outer, 0)

/-- Close the block collections to the right of a column. -/
def unwind (column : Int) : Lex Unit :=
  modify fun l =>
    if l.depth = 0 then
      let (i, o, n) := unwound column l.indent l.outer
      { l with indent := i, outer := o, made := List.replicate n .blockEnd ++ l.made }
    else l

/-- Open a block collection at a column, if it is to the right of the innermost one. -/
def openAt (column : Int) : Lex Bool := do
  let l ← get
  if l.indent < column then
    set { l with indent := column, outer := l.indent :: l.outer }
    return true
  else return false

/-- Pass spaces, comments and line breaks up to the next token. At most `fuel` lines are passed. -/
def toNextToken : Nat → Lex Unit
  | 0 => pure ()
  | fuel + 1 => do
    scan (Scan.skipWhile (· = ' '))
    if (← get).cursor.peek 0 = '#' then scan (Scan.skipWhile fun c => !isBreakOrEnd c)
    if (← scan Scan.lineBreak) ≠ [] then
      if (← get).depth = 0 then allowKey true
      toNextToken fuel

/-- Pass `n` characters that are a token. -/
def indicator (n : Nat) (t : Token) : Lex Unit := do
  scan (Scan.forward n)
  emit t

/-- A token that separates documents or stands before one. -/
def betweenDocuments : Lex Unit := do
  unwind (-1)
  dropKey
  allowKey false

/-- An opening bracket or brace. -/
def opening (t : Token) : Lex Unit := do
  saveKey
  modify fun l => { l with depth := l.depth + 1 }
  allowKey true
  indicator 1 t

/-- A closing bracket or brace. -/
def closing (t : Token) : Lex Unit := do
  dropKey
  modify fun l => { l with depth := l.depth - 1 }
  allowKey false
  indicator 1 t

/-- Open a block collection for an item or a key that stands here. -/
def openHere (t : Token) : Lex Unit := do
  let l ← get
  if l.depth = 0 then
    if !l.keyAllowed then throw .malformed
    if ← openAt l.cursor.column then emit t

/-- A colon behind a key. -/
def colon : Lex Unit := do
  let l ← get
  match l.keys.lookup l.depth with
  | some k =>
    set { l with keys := l.keys.filter fun x => x.1 ≠ l.depth }
    insertAt k.token .key
    if l.depth = 0 then
      if ← openAt k.column then insertAt k.token .blockMappingStart
    allowKey false
  | none =>
    openHere .blockMappingStart
    allowKey (l.depth = 0)
    dropKey
  indicator 1 .value

/-- Can a plain scalar start with `c`, with `next` behind it? -/
def startsPlain (inFlow : Bool) (c next : Char) : Bool :=
  !(isBlankOrEnd c || c ∈ Text.lit "-?:,[]\x7b\x7d#&*!|>'\"%@`") ||
    (!isBlankOrEnd next && (c = '-' || (!inFlow && (c = '?' || c = ':'))))

/-- A token that could start a simple key and after which none can start. -/
def property (s : Scan Token) : Lex Unit := do
  saveKey
  allowKey false
  emit (← scan s)

/-- Read the next token. The answer is whether there may be more. -/
def next : Lex Bool := do
  if (← get).cursor.index = 0 ∧ (← get).cursor.peek 0 = '\ufeff' then scan (Scan.forward 1)
  toNextToken ((← get).cursor.rest.length + 1)
  dropStaleKeys
  unwind (← get).cursor.column
  let l ← get
  let c := l.cursor.peek 0
  let d := l.cursor.peek 1
  let inFlow := l.depth ≠ 0
  if c = '\x00' then
    betweenDocuments
    emit .done
    return false
  if c = '%' ∧ l.cursor.column = 0 then
    betweenDocuments
    emit (.directive (← scan Scan.directive))
  else if l.cursor.column = 0 ∧ l.cursor.atDocumentMarker then
    betweenDocuments
    indicator 3 (if c = '-' then .documentStart else .documentEnd)
  else if c = '[' then opening .flowSequenceStart
  else if c = '\x7b' then opening .flowMappingStart
  else if c = ']' then closing .flowSequenceEnd
  else if c = '\x7d' then closing .flowMappingEnd
  else if c = ',' then
    allowKey true
    dropKey
    indicator 1 .flowEntry
  else if c = '-' ∧ isBlankOrEnd d then
    openHere .blockSequenceStart
    allowKey true
    dropKey
    indicator 1 .blockEntry
  else if c = '?' ∧ (inFlow ∨ isBlankOrEnd d) then
    openHere .blockMappingStart
    allowKey (!inFlow)
    dropKey
    indicator 1 .key
  else if c = ':' ∧ (inFlow ∨ isBlankOrEnd d) then colon
  else if c = '*' then property (do return .alias (← Scan.anchorName))
  else if c = '&' then property (do return .anchor (← Scan.anchorName))
  else if c = '!' then property (do return .tag (← Scan.tag))
  else if (c = '|' ∨ c = '>') ∧ !inFlow then
    allowKey true
    dropKey
    emit (.scalar (← scan (Scan.blockScalar l.indent)) false)
  else if c = '\'' ∨ c = '"' then property (do return .scalar (← Scan.quotedScalar) false)
  else if startsPlain inFlow c d then
    saveKey
    allowKey false
    let (t, ended) ← scan (Scan.plainScalar inFlow l.indent)
    if ended then allowKey true
    emit (.scalar t true)
  else throw .malformed
  return true

/-- The tokens if the text makes no sense behind them. What a token is that could start a simple key
is open until no colon can follow it any more, so the first such token is already where the text
makes no sense. -/
def faulted (e : Error) (l : Lexer) : List Token :=
  let undecided := l.keys.filter fun k => !isStale l.cursor k.2
  let known := undecided.foldl (fun n k => min n k.2.token) l.made.length
  l.made.reverse.take known ++ [.fault e]

/-- Read the tokens up to the end. At most `fuel` tokens are read. -/
def run : Nat → Lexer → List Token
  | 0, l => l.faulted .malformed
  | fuel + 1, l =>
    match next.run l with
    | .error e => l.faulted e
    | .ok (true, l) => run fuel l
    | .ok (false, l) => l.made.reverse

end Lexer

/-- The tokens of a text. -/
def tokens (t : Text) : List Token :=
  if t.all isAllowed then Lexer.run (t.length + 1) (Lexer.initial t) else [.fault .malformed]

end LiterateEdit.Yaml
