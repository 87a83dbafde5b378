import LiterateEdit.Text.Basic

/-!
# Lines of a text

Two notions of line meet in a literate document. The wide one, used to cut a document for editing
and for a diff, ends a line at any of the line-breaking characters of Unicode, and at the pair of
carriage return and line feed as one break (`lines`). The narrow one ends a line at a line feed
only, after all carriage returns have been turned into line feeds (`unixNewlines`).

`lines` keeps the breaks, so nothing is lost: `join_lines` says that the lines put one after another
are the text again.
-/

namespace LiterateEdit.Text

/-- Does `c` end a line by itself? -/
def isLineBreak (c : Char) : Bool :=
  inRanges [(0x0a, 0x0d), (0x1c, 0x1e), (0x85, 0x85), (0x2028, 0x2029)] c

/-- Put a character before the first line. -/
def consLine (c : Char) : List Text → List Text
  | [] => [[c]]
  | l :: ls => (c :: l) :: ls

@[simp] theorem flatten_consLine (c : Char) (ls : List Text) :
    (consLine c ls).flatten = c :: ls.flatten := by
  cases ls <;> simp [consLine]

/-- The lines of a text, each with the break that ends it; only the last one may have none. -/
def lines : Text → List Text
  | [] => []
  | '\r' :: '\n' :: t => ['\r', '\n'] :: lines t
  | c :: t => if isLineBreak c then [c] :: lines t else consLine c (lines t)

/-- The lines put one after another are the text. -/
theorem join_lines (t : Text) : (lines t).flatten = t := by
  fun_induction lines t with
  | case1 => rfl
  | case2 t ih => simp [ih]
  | case3 c t _ h ih => simp [ih]
  | case4 c t _ h ih => simp [ih]

/-- Every carriage return, alone or before a line feed, turned into a line feed. -/
def unixNewlines : Text → Text
  | [] => []
  | '\r' :: '\n' :: t => '\n' :: unixNewlines t
  | c :: t => (if c = '\r' then '\n' else c) :: unixNewlines t

/-- The pieces of a text between its line feeds. -/
def feedPieces (t : Text) : List Text := splitOn (· = '\n') t

end LiterateEdit.Text
