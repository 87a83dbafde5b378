import LiterateEdit.Markdown.Grammar
import LiterateEdit.Text.Blank

/-!
# Blocks of HTML

A line that starts with a less-than sign may open a block of HTML. There are seven kinds, told by
how the line starts, and each kind has a way of its own to end: raw elements, comments,
instructions, declarations and character data end with a line that holds their closing piece; block
elements, and lines that hold just one complete tag, end before an empty line. A line with just one
tag does not interrupt a paragraph.
-/

namespace LiterateEdit.Markdown

/-- The kinds of blocks of HTML. -/
inductive HtmlKind where
  /-- An element whose content is raw text. -/
  | raw
  /-- A comment. -/
  | comment
  /-- A processing instruction. -/
  | instruction
  /-- A declaration. -/
  | declaration
  /-- A section of character data. -/
  | data
  /-- An element that is a block. -/
  | block
  /-- A line that is one complete tag. -/
  | tag
  deriving DecidableEq

namespace HtmlKind

/-- The elements whose content is raw text. -/
def rawNames : List String := ["script", "pre", "style", "textarea"]

/-- The elements that are blocks. -/
def blockNames : List String :=
  ["address", "article", "aside", "base", "basefont", "blockquote", "body", "caption", "center",
   "col", "colgroup", "dd", "details", "dialog", "dir", "div", "dl", "dt", "fieldset",
   "figcaption", "figure", "footer", "form", "frame", "frameset", "h1", "h2", "h3", "h4", "h5",
   "h6", "head", "header", "hr", "html", "iframe", "legend", "li", "link", "main", "menu",
   "menuitem", "nav", "noframes", "ol", "optgroup", "option", "p", "param", "search", "section",
   "summary", "table", "tbody", "td", "tfoot", "th", "thead", "title", "tr", "track", "ul"]

/-- A character with its case set aside, as far as the names of elements are concerned: the long s,
the Kelvin sign and the dotless and dotted i are letters of another case. -/
def foldCase (c : Char) : Char :=
  if c = '\u017f' then 's'
  else if c = '\u212a' then 'k'
  else if c = '\u0130' ∨ c = '\u0131' then 'i'
  else c.toLower

/-- Is `c` a letter or a digit of ASCII? -/
def isNameChar (c : Char) : Bool := Text.isAsciiLetter c || Text.isAsciiDigit c

/-- The name that a text starts with, with its case set aside, and what follows it. -/
def splitName (t : Text) : Text × Text :=
  let folded := t.map foldCase
  let name := folded.takeWhile isNameChar
  (name, t.drop name.length)

/-- Is the text at its end or at white space? -/
def atGap : Text → Bool
  | [] => true
  | c :: _ => Text.isBlank c

/-! ### Complete tags -/

/-- May `c` start the name of an attribute? -/
def startsAttribute (c : Char) : Bool := Text.isAsciiLetter c || c = '_' || c = ':'

/-- May `c` stand in the name of an attribute? -/
def inAttribute (c : Char) : Bool := isNameChar c || c = ':' || c = '.' || c = '_' || c = '-'

/-- May `c` stand in a value without quotes? -/
def inBareValue (c : Char) : Bool :=
  0x20 < c.toNat && c ≠ '"' && c ≠ '\'' && c ≠ '=' && c ≠ '<' && c ≠ '>' && c ≠ '`'

/-- What can follow a value that stands at the start of a text: for a bare value any of its
non-empty starts counts as the value, the longest first. -/
def afterValues : Text → List Text
  | [] => []
  | c :: t =>
    if c = '"' ∨ c = '\'' then
      match t.dropWhile (· ≠ c) with
      | [] => []
      | _ :: rest => [rest]
    else
      let n := ((c :: t).takeWhile inBareValue).length
      (List.range n).map fun k => (c :: t).drop (n - k)

/-- Does a text close a tag and hold nothing else? -/
def closesTag (t : Text) : Bool :=
  let t := t.dropWhile Text.isBlank
  match t with
  | '/' :: '>' :: rest => rest.all Text.isBlank
  | '>' :: rest => rest.all Text.isBlank
  | _ => false

/-- Does a text hold the attributes and the end of an opening tag and nothing else? At most `fuel`
attributes are read. -/
def closesOpeningTag : Nat → Text → Bool
  | 0, t => closesTag t
  | fuel + 1, t =>
    closesTag t ||
      match t with
      | [] => false
      | c :: rest =>
        Text.isBlank c &&
          match rest.dropWhile Text.isBlank with
          | [] => false
          | d :: rest =>
            startsAttribute d &&
              let behind := rest.dropWhile inAttribute
              closesOpeningTag fuel behind ||
                match behind.dropWhile Text.isBlank with
                | '=' :: value =>
                  (afterValues (value.dropWhile Text.isBlank)).any (closesOpeningTag fuel)
                | _ => false

/-- Is the text one complete tag, opening or closing, with white space behind it at most? -/
def isCompleteTag : Text → Bool
  | '<' :: '/' :: c :: t =>
    Text.isAsciiLetter c &&
      match (t.dropWhile fun d => isNameChar d || d = '-').dropWhile Text.isBlank with
      | '>' :: rest => rest.all Text.isBlank
      | _ => false
  | '<' :: c :: t =>
    Text.isAsciiLetter c &&
      closesOpeningTag t.length (t.dropWhile fun d => isNameChar d || d = '-')
  | _ => false

/-! ### The kinds -/

/-- Does the text start with the tag of a raw element? -/
def opensRaw : Text → Bool
  | '<' :: t =>
    let (name, rest) := splitName t
    rawNames.any (fun n => Text.lit n = name) && (atGap rest || rest.head? = some '>')
  | _ => false

/-- Does the text start with a declaration? -/
def opensDeclaration : Text → Bool
  | '<' :: '!' :: c :: _ => 'A' ≤ c && c ≤ 'Z'
  | _ => false

/-- Does the text start with a tag of an element that is a block? -/
def opensBlock : Text → Bool
  | '<' :: t =>
    let t :=
      match t with
      | '/' :: u => u
      | u => u
    let (name, rest) := splitName t
    blockNames.any (fun n => Text.lit n = name) &&
      (atGap rest || rest.head? = some '>' || Text.startsWith ['/', '>'] rest)
  | _ => false

/-- The kind of block of HTML that a text opens. -/
def ofText? (t : Text) : Option HtmlKind :=
  if opensRaw t then some .raw
  else if Text.startsWith (Text.lit "<!--") t then some .comment
  else if Text.startsWith (Text.lit "<?") t then some .instruction
  else if opensDeclaration t then some .declaration
  else if Text.startsWith (Text.lit "<![CDATA[") t then some .data
  else if opensBlock t then some .block
  else if isCompleteTag t then some .tag
  else none

/-- The kind of block of HTML that a line opens. -/
def ofLine? (c : Context) (l : Line) : Option HtmlKind :=
  if l.isCode c || !c.dialect.html then none else ofText? l.body

/-- Does a line with this content end the block? -/
def endsWith (k : HtmlKind) (t : Text) : Bool :=
  match k with
  | .raw =>
    let folded := t.map foldCase
    rawNames.any fun n => Text.containsText (Text.lit "</" ++ Text.lit n ++ ['>']) folded
  | .comment => Text.containsText (Text.lit "-->") t
  | .instruction => Text.containsText (Text.lit "?>") t
  | .declaration => Text.containsText ['>'] t
  | .data => Text.containsText (Text.lit "]]>") t
  | .block => t.isEmpty
  | .tag => t.isEmpty

/-- How many of the lines behind the first belong to the block. -/
def extent (k : HtmlKind) (c : Context) : List Line → Nat
  | [] => 0
  | l :: rest =>
    if l.isOutdented c then 0
    else if k.endsWith l.body then if l.isEmpty then 0 else 1
    else k.extent c rest + 1

end HtmlKind

end LiterateEdit.Markdown
