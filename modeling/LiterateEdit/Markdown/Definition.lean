import LiterateEdit.Markdown.Grammar
import LiterateEdit.Text.Blank

/-!
# Link reference definitions

A definition gives a label a destination and possibly a title: the label in brackets and a colon,
the destination, and the title in quotes or parentheses, each on the line of the one before or on
the next. It stands where a paragraph could start, and what follows it starts anew. So all that
matters here is how many lines a definition takes.

The functions read from a text that holds the first line and all lines that could go on with it, and
answer with what is left.
-/

namespace LiterateEdit.Markdown

/-! ### Label -/

/-- Read a label behind its opening bracket: the label and what is left behind the closing one. -/
def readLabel (label : Text) : Text → Option (Text × Text)
  | [] => none
  | ']' :: t => some (label, t)
  | '[' :: _ => none
  | '\\' :: c :: t => readLabel (label ++ ['\\', c]) t
  | c :: t => readLabel (label ++ [c]) t

/-! ### Destination -/

/-- Read a destination behind its opening angle bracket. -/
def readAngled (dest : Text) : Text → Option (Text × Text)
  | [] => none
  | '>' :: t => some (dest, t)
  | '<' :: _ => none
  | '\n' :: _ => none
  | '\\' :: '\n' :: _ => none
  | '\\' :: c :: t => readAngled (dest ++ ['\\', c]) t
  | c :: t => readAngled (dest ++ [c]) t

/-- Does `c` end a destination without brackets? -/
def endsDestination (c : Char) : Bool := c.toNat ≤ 0x20 || c.toNat = 0x7f

/-- How many parentheses may be open in a destination. -/
def maxParentheses : Nat := 32

/-- Read a destination without brackets, in which `level` parentheses are open. A backslash at the
end of a line takes the line feed into the destination, which is then at its end. -/
def readPlain (level : Nat) (dest : Text) : Text → Option (Text × Text)
  | [] => if level = 0 ∧ dest ≠ [] then some (dest, []) else none
  | c :: t =>
    let finish := if level = 0 ∧ dest ≠ [] then some (dest, c :: t) else none
    if endsDestination c then finish
    else if c = '\\' then
      match t with
      | [] => readPlain level (dest ++ [c]) []
      | d :: u =>
        if d = ' ' then finish
        else if d = '\n' then if level = 0 then some (dest ++ [c, d], d :: u) else none
        else readPlain level (dest ++ [c, d]) u
    else if c = '(' then
      if level < maxParentheses then readPlain (level + 1) (dest ++ [c]) t else none
    else if c = ')' then
      match level with
      | 0 => finish
      | level + 1 => readPlain level (dest ++ [c]) t
    else readPlain level (dest ++ [c]) t

/-- Read a destination. -/
def readDestination : Text → Option (Text × Text)
  | '<' :: t => readAngled [] t
  | t => readPlain 0 [] t

/-! ### Is the destination safe? -/

/-- The characters with a name of their own that matter at the start of a destination. -/
def namedCharacters : List (String × Char) :=
  [("colon", ':'), ("semi", ';'), ("sol", '/'), ("Tab", '\t'), ("NewLine", '\n'),
   ("nbsp", '\u00a0'), ("NonBreakingSpace", '\u00a0'), ("ensp", '\u2002'), ("emsp", '\u2003'),
   ("emsp13", '\u2004'), ("emsp14", '\u2005'), ("numsp", '\u2007'), ("puncsp", '\u2008'),
   ("thinsp", '\u2009'), ("ThinSpace", '\u2009'), ("hairsp", '\u200a'),
   ("VeryThinSpace", '\u200a'), ("MediumSpace", '\u205f')]

/-- The character that a reference between `&` and `;` stands for. -/
def referenced? : Text → Option Char
  | '#' :: x :: digits =>
    if x = 'x' ∨ x = 'X' then
      if digits ≠ [] ∧ digits.length ≤ 8 ∧ digits.all fun d => (Text.hexValue? d).isSome then
        some (Char.ofNat (Text.readBase 16 digits))
      else none
    else if (x :: digits).length ≤ 8 ∧ (x :: digits).all Text.isAsciiDigit then
      some (Char.ofNat (Text.readNat (x :: digits)))
    else none
  | name => (namedCharacters.find? fun n => Text.lit n.1 = name).map (·.2)

/-- Is `c` punctuation that a backslash may stand before? -/
def isEscapable (c : Char) : Bool := c ∈ Text.lit "!\"#$%&'()*+,-./:;<=>?@[\\]^_`\x7b|\x7d~"

/-- A destination with its backslashes and character references resolved. -/
def unescape : Text → Text
  | [] => []
  | c :: t =>
    if c = '\\' then
      match t with
      | [] => [c]
      | d :: u => if isEscapable d then d :: unescape u else c :: d :: unescape u
    else if c = '&' then
      let name := t.takeWhile fun d => d ≠ ';'
      match if name.length < t.length then referenced? name else none with
      | some r => r :: unescape (t.drop (name.length + 1))
      | none => c :: unescape t
    else c :: unescape t
  termination_by t => t.length
  decreasing_by
    all_goals simp only [List.length_cons, List.length_drop]
    all_goals omega

/-- Is a destination one that a document may link to? Scripts and local data are not. -/
def isSafeDestination (dest : Text) : Bool :=
  let url := Text.asciiLower (Text.strip (unescape dest))
  let has (s : String) := Text.startsWith (Text.lit s) url
  !(has "vbscript:" || has "javascript:" || has "file:" || has "data:") ||
    has "data:image/gif;" || has "data:image/png;" || has "data:image/jpeg;" ||
    has "data:image/webp;"

/-! ### Title -/

/-- Read a title up to its closing mark: whether it is empty, and what is left. -/
def readTitleBody (close : Char) (empty : Bool) : Text → Option (Bool × Text)
  | [] => none
  | c :: t =>
    if c = close then some (empty, t)
    else if c = '(' ∧ close = ')' then none
    else if c = '\\' then
      match t with
      | [] => none
      | _ :: u => readTitleBody close false u
    else readTitleBody close false t

/-- Read a title: whether it is empty, and what is left. -/
def readTitle : Text → Option (Bool × Text)
  | [] => none
  | c :: t =>
    if c = '"' ∨ c = '\'' then readTitleBody c true t
    else if c = '(' then readTitleBody ')' true t
    else none

/-! ### Definition -/

/-- Is `c` a gap or a line feed? -/
def isGapOrFeed (c : Char) : Bool := isGap c || c = '\n'

/-- What is left of a text behind the rest of its line, if that rest is only gaps. -/
def restIsGap? (t : Text) : Option Text :=
  match t.dropWhile isGap with
  | [] => some []
  | '\n' :: u => some ('\n' :: u)
  | _ => none

/-- What is left of a text behind the definition that it starts with. -/
def readDefinition (t : Text) : Option Text :=
  match t with
  | '[' :: t =>
    match readLabel [] t with
    | some (label, ':' :: t) =>
      match readDestination (t.dropWhile isGapOrFeed) with
      | none => none
      | some (dest, t) =>
        if !isSafeDestination dest || Text.isBlankText label then none
        else
          let behind := t.dropWhile isGapOrFeed
          let mayHaveTitle := behind.length < t.length && dest.getLast? ≠ some '\n'
          let title := if mayHaveTitle then readTitle behind else none
          match title with
          | none => restIsGap? t
          | some (empty, u) =>
            match restIsGap? u with
            | some rest => some rest
            | none => if empty then none else restIsGap? t
    | _ => none
  | _ => none

/-- The lines that could go on with a definition or a paragraph, as one text. `interrupts` says
whether a line opens another block. -/
def continuation (c : Context) (interrupts : Line → List Line → Bool) : List Line → Text
  | [] => []
  | l :: rest =>
    if l.isEmpty || (!l.isCode c && 0 ≤ l.indent && interrupts l rest) then []
    else l.bodyWithFeed ++ continuation c interrupts rest

/-- How many of the lines behind the first belong to the definition that the first one starts. -/
def definitionExtent? (c : Context) (interrupts : Line → List Line → Bool) (l : Line)
    (rest : List Line) : Option Nat :=
  if l.isCode c || l.body.head? ≠ some '[' then none
  else
    let t := l.bodyWithFeed ++ continuation c interrupts rest
    (readDefinition t).map fun left => t.count '\n' - left.count '\n'

end LiterateEdit.Markdown
