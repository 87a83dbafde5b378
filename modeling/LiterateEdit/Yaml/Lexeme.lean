import LiterateEdit.Yaml.Cursor

/-!
# The scalars and properties of a YAML text

How the pieces of a YAML text with an inner form are read: names, tags, directives, scalars in
quotes, block scalars and plain scalars. Each function starts at the first character of its piece
and ends behind the last.

Line breaks inside a scalar are folded: a single one reads as a space, and further ones as
themselves. Block scalars say by an indicator whether they fold and what becomes of the breaks at
their end.
-/

namespace LiterateEdit.Yaml

/-- A tag as it is written: the handle, if there is one, and what follows it. -/
structure TagName where
  /-- The handle. -/
  handle : Option Text
  /-- The rest. -/
  suffix : Text
  deriving DecidableEq

/-- A directive before a document. -/
inductive Directive where
  /-- The version of the language. -/
  | version (major : Nat)
  /-- What a tag handle stands for. -/
  | tag (handle meaning : Text)
  /-- A directive that means nothing here. -/
  | other
  deriving DecidableEq

namespace Scan

/-! ### Names and tags -/

/-- The name behind an anchor's or an alias's indicator. -/
def anchorName : Scan Text := do
  forward 1
  let name ← takeWhile isNameChar
  require (name ≠ [])
  let c ← peek 0
  require (isBlankOrEnd c || c ∈ Text.lit "?:,]\x7d%@`")
  return name

/-- A tag handle. -/
def tagHandle : Scan Text := do
  require ((← peek 0) = '!')
  let name := ((← get).rest.drop 1).takeWhile isNameChar
  if name = [] ∧ (← peek 1) = ' ' then
    forward 1
    return ['!']
  else
    require ((← peek (name.length + 1)) = '!')
    forward (name.length + 2)
    return '!' :: name ++ ['!']

/-- May `c` stand in a tag as itself? -/
def isTagChar (c : Char) : Bool :=
  Text.isAsciiLetter c || Text.isAsciiDigit c || c ∈ Text.lit "-;/?:@&=+$,_.!~*'()[]"

/-- The bytes of percent escapes. At most `fuel` of them are read. -/
def escapedBytes : Nat → Scan (List UInt8)
  | 0 => return []
  | fuel + 1 => do
    if (← peek 0) = '%' then
      match Text.hexValue? (← peek 1), Text.hexValue? (← peek 2) with
      | some a, some b =>
        forward 3
        return UInt8.ofNat (a * 16 + b) :: (← escapedBytes fuel)
      | _, _ => fail
    else return []

/-- The pieces of the text of a tag. At most `fuel` of them are read. -/
def tagPieces : Nat → Scan Text
  | 0 => return []
  | fuel + 1 => do
    let plain ← takeWhile isTagChar
    if (← peek 0) = '%' then
      match Utf8.decode (← escapedBytes (← get).rest.length) with
      | .error _ => fail
      | .ok t => return plain ++ t ++ (← tagPieces fuel)
    else return plain

/-- The text of a tag. -/
def tagText : Scan Text := do
  let start := (← get).index
  let t ← tagPieces ((← get).rest.length + 1)
  require ((← get).index ≠ start)
  return t

/-- A tag. -/
def tag : Scan TagName := do
  let c ← peek 1
  let name ←
    if c = '<' then do
      forward 2
      let suffix ← tagText
      require ((← peek 0) = '>')
      forward 1
      pure (TagName.mk none suffix)
    else if isBlankOrEnd c then do
      forward 1
      pure (TagName.mk none ['!'])
    else do
      let word := ((← get).rest.drop 1).takeWhile fun d => !isSpaceOrEnd d
      let handle ← if '!' ∈ word then tagHandle else do
        forward 1
        pure ['!']
      let suffix ← tagText
      pure (TagName.mk (some handle) suffix)
  require (isSpaceOrEnd (← peek 0))
  return name

/-- A number in a directive. -/
def directiveNumber : Scan Nat := do
  let t ← takeWhile Text.isAsciiDigit
  require (t ≠ [])
  return Text.readNat t

/-- A directive. -/
def directive : Scan Directive := do
  forward 1
  let name ← takeWhile isNameChar
  require (name ≠ [] && isSpaceOrEnd (← peek 0))
  let d ←
    if name = Text.lit "YAML" then do
      skipWhile (· = ' ')
      let major ← directiveNumber
      require ((← peek 0) = '.')
      forward 1
      let _ ← directiveNumber
      require (isSpaceOrEnd (← peek 0))
      pure (Directive.version major)
    else if name = Text.lit "TAG" then do
      skipWhile (· = ' ')
      let handle ← tagHandle
      require ((← peek 0) = ' ')
      skipWhile (· = ' ')
      let meaning ← tagText
      require (isSpaceOrEnd (← peek 0))
      pure (Directive.tag handle meaning)
    else do
      skipWhile fun c => !isBreakOrEnd c
      pure Directive.other
  restOfLine
  return d

/-! ### Scalars in quotes -/

/-- The characters that a backslash and a letter stand for. -/
def escapes : List (Char × Char) :=
  [('0', '\x00'), ('a', '\x07'), ('b', '\x08'), ('t', '\t'), ('\t', '\t'), ('n', '\n'),
   ('v', '\x0b'), ('f', '\x0c'), ('r', '\r'), ('e', '\x1b'), (' ', ' '), ('"', '"'), ('\\', '\\'),
   ('/', '/'), ('N', '\u0085'), ('_', '\u00a0'), ('L', '\u2028'), ('P', '\u2029')]

/-- The number of hexadecimal digits behind a backslash and a letter. -/
def escapeLength? (c : Char) : Option Nat :=
  if c = 'x' then some 2 else if c = 'u' then some 4 else if c = 'U' then some 8 else none

/-- The character of a number. -/
def characterOf (code : Nat) : Scan Char :=
  if 0x7fffffff < code then throw .hugeCharacter
  else if 0x10ffff < code then throw (.unfit (Text.lit "chr() arg not in range(0x110000)"))
  else return Char.ofNat code

/-- The breaks of empty lines in a quoted scalar. At most `fuel` of them are read. -/
def quotedBreaks : Nat → Scan Text
  | 0 => return []
  | fuel + 1 => do
    require (!(← get).atDocumentMarker)
    skipWhile fun c => c = ' ' || c = '\t'
    if isBreak (← peek 0) then
      let b ← lineBreak
      return b ++ (← quotedBreaks fuel)
    else return []

/-- A break in a scalar and the breaks of the empty lines behind it, folded. -/
def foldBreaks (first more : Text) : Text :=
  if first ≠ ['\n'] then first ++ more else if more = [] then [' '] else more

/-- What a backslash in double quotes stands for. -/
def escape : Scan Text := do
  forward 1
  let c ← peek 0
  match escapes.lookup c, escapeLength? c with
  | some r, _ =>
    forward 1
    return [r]
  | none, some n =>
    forward 1
    let digits := (← get).rest.take n
    require (digits.length = n && digits.all fun d => (Text.hexValue? d).isSome)
    let r ← characterOf (Text.readBase 16 digits)
    forward n
    return [r]
  | none, none =>
    require (isBreak c)
    let _ ← lineBreak
    quotedBreaks ((← get).rest.length + 1)

/-- A scalar in quotes of the kind `quote`, from behind the first quote on. At most `fuel` pieces of
it are read. -/
def quotedPieces (quote : Char) : Nat → Scan Text
  | 0 => fail
  | fuel + 1 => do
    let double := quote = '"'
    let plain ← takeWhile fun c => !isBlankOrEnd c && c ≠ '\'' && c ≠ '"' && c ≠ '\\'
    let c ← peek 0
    if !double ∧ c = '\'' ∧ (← peek 1) = '\'' then
      forward 2
      return plain ++ ['\''] ++ (← quotedPieces quote fuel)
    else if c = quote then
      forward 1
      return plain
    else if c = '\'' ∨ (!double ∧ (c = '"' ∨ c = '\\')) then
      forward 1
      return plain ++ [c] ++ (← quotedPieces quote fuel)
    else if c = '\\' then
      let e ← escape
      return plain ++ e ++ (← quotedPieces quote fuel)
    else
      let spaces ← takeWhile fun c => c = ' ' || c = '\t'
      let c ← peek 0
      require (c ≠ '\x00')
      let gap ←
        if isBreak c then do
          let first ← lineBreak
          let more ← quotedBreaks ((← get).rest.length + 1)
          pure (foldBreaks first more)
        else pure spaces
      return plain ++ gap ++ (← quotedPieces quote fuel)

/-- A scalar in quotes. -/
def quotedScalar : Scan Text := do
  let quote ← peek 0
  forward 1
  quotedPieces quote ((← get).rest.length + 1)

/-! ### Block scalars -/

/-- What becomes of the breaks at the end of a block scalar. -/
inductive Chomping where
  /-- The last one stays. -/
  | clip
  /-- None stays. -/
  | strip
  /-- All stay. -/
  | keep
  deriving DecidableEq

/-- The indicator of what becomes of the breaks at the end. -/
def chomping : Scan (Option Chomping) := do
  let c ← peek 0
  if c = '+' ∨ c = '-' then
    forward 1
    return some (if c = '+' then .keep else .strip)
  else return none

/-- The indicator of how far a block scalar is indented. -/
def indentation : Scan (Option Nat) := do
  let c ← peek 0
  if Text.isAsciiDigit c then
    require (c ≠ '0')
    forward 1
    return some (c.toNat - 48)
  else return none

/-- The indicators of a block scalar, in either order. -/
def blockHeader : Scan (Chomping × Option Nat) := do
  let first ← chomping
  let n ← indentation
  let c ← if first.isNone && n.isSome then chomping else pure first
  require (isSpaceOrEnd (← peek 0))
  return (c.getD .clip, n)

/-- The breaks of the empty lines that a block scalar starts with, and how far they are indented at
most. At most `fuel` characters are read. -/
def leadingBreaks : Nat → Nat → Scan (Text × Nat)
  | 0, widest => return ([], widest)
  | fuel + 1, widest => do
    let c ← peek 0
    if c = ' ' then
      forward 1
      leadingBreaks fuel (max widest (← get).column)
    else if isBreak c then
      let b ← lineBreak
      let (more, w) ← leadingBreaks fuel widest
      return (b ++ more, w)
    else return ([], widest)

/-- Pass spaces up to a column. -/
def indentTo (column : Int) : Scan Unit := do
  let c ← get
  let spaces := (c.rest.takeWhile (· = ' ')).length
  forward (min spaces (column - c.column).toNat)

/-- The breaks of empty lines in a block scalar, the start of the next line passed up to a column.
At most `fuel` of them are read. -/
def blockBreaks (column : Int) : Nat → Scan Text
  | 0 => return []
  | fuel + 1 => do
    indentTo column
    if isBreak (← peek 0) then
      let b ← lineBreak
      return b ++ (← blockBreaks column fuel)
    else return []

/-- Is the cursor at a line of a block scalar that starts at `column`? -/
def atBlockLine (column : Int) : Scan Bool := do
  let c ← get
  return c.column = column && c.peek 0 ≠ '\x00'

/-- The lines of a block scalar that starts at `column`; `breaks` are the breaks of the empty lines
before. At most `fuel` lines are read. -/
def blockLines (folded : Bool) (chomp : Chomping) (column : Int) : Nat → Text → Scan Text
  | 0, _ => fail
  | fuel + 1, breaks => do
    let flush := !(let c := (← peek 0); c = ' ' || c = '\t')
    let line ← takeWhile fun c => !isBreakOrEnd c
    let b ← lineBreak
    let more ← blockBreaks column ((← get).rest.length + 1)
    if ← atBlockLine column then
      let c ← peek 0
      let joint :=
        if folded && b = ['\n'] && flush && c ≠ ' ' && c ≠ '\t' then
          if more = [] then [' '] else []
        else b
      return breaks ++ line ++ joint ++ (← blockLines folded chomp column fuel more)
    else
      return breaks ++ line ++
        match chomp with
        | .clip => b
        | .strip => []
        | .keep => b ++ more

/-- A block scalar in a collection whose content starts at the column `indent`. -/
def blockScalar (indent : Int) : Scan Text := do
  let folded := (← peek 0) = '>'
  forward 1
  let (chomp, increment) ← blockHeader
  restOfLine
  let least := max (indent + 1) 1
  let fuel := (← get).rest.length + 1
  let (breaks, column) ←
    match increment with
    | none => do
      let (b, widest) ← leadingBreaks fuel 0
      pure (b, max least (widest : Int))
    | some n => do
      let column := least + n - 1
      let b ← blockBreaks column fuel
      pure (b, column)
  if ← atBlockLine column then blockLines folded chomp column fuel breaks
  else return if chomp = .keep then breaks else []

/-! ### Plain scalars -/

/-- How many characters a piece of a plain scalar without spaces has. -/
def plainLength (inFlow : Bool) : Text → Nat
  | [] => 0
  | c :: t =>
    let next := t.headD '\x00'
    if isBlankOrEnd c ||
        (c = ':' && (isBlankOrEnd next || (inFlow && next ∈ Text.lit ",[]\x7b\x7d"))) ||
        (inFlow && c ∈ Text.lit ",?[]\x7b\x7d") then 0
    else plainLength inFlow t + 1

/-- The breaks of empty lines in a plain scalar; `none` at a marker between documents. At most
`fuel` characters are read. -/
def plainBreaks : Nat → Scan (Option Text)
  | 0 => return some []
  | fuel + 1 => do
    let c ← peek 0
    if c = ' ' then
      forward 1
      plainBreaks fuel
    else if isBreak c then
      let b ← lineBreak
      if (← get).atDocumentMarker then return none
      else return (← plainBreaks fuel).map (b ++ ·)
    else return some []

/-- What stands between two pieces of a plain scalar, folded, and whether a line has ended. -/
def plainGap : Scan (Text × Bool) := do
  let spaces ← takeWhile (· = ' ')
  if isBreak (← peek 0) then
    let first ← lineBreak
    if (← get).atDocumentMarker then return ([], true)
    else
      match ← plainBreaks ((← get).rest.length + 1) with
      | none => return ([], true)
      | some more => return (foldBreaks first more, true)
  else return (spaces, false)

/-- The pieces of a plain scalar that starts at the column `indent` at least, and whether it ends
behind a line. At most `fuel` of them are read. -/
def plainPieces (inFlow : Bool) (indent : Int) : Nat → Text → Bool → Scan (Text × Bool)
  | 0, _, ended => return ([], ended)
  | fuel + 1, gap, ended => do
    let n := plainLength inFlow (← get).rest
    if (← peek 0) = '#' ∨ n = 0 then return ([], ended)
    else
      let piece := (← get).rest.take n
      forward n
      let (next, newLine) ← plainGap
      let c ← get
      if next = [] ∨ c.peek 0 = '#' ∨ (!inFlow ∧ c.column < indent) then
        return (gap ++ piece, newLine)
      else
        let (more, ended) ← plainPieces inFlow indent fuel next newLine
        return (gap ++ piece ++ more, ended)

/-- A plain scalar in a collection whose content starts at the column `indent`, and whether it ends
behind a line. -/
def plainScalar (inFlow : Bool) (indent : Int) : Scan (Text × Bool) := do
  plainPieces inFlow (indent + 1) ((← get).rest.length + 1) [] false

end Scan

end LiterateEdit.Yaml
