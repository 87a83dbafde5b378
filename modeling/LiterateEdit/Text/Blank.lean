import LiterateEdit.Text.Basic

/-!
# Blank characters

White space in the sense of Unicode 14: the space separators, the line and paragraph separators, and
the control characters that move the cursor or separate information. Trimming, splitting into words
and the blank parts of a front matter's fences all use this class.
-/

namespace LiterateEdit.Text

/-- The ranges of blank code points. -/
def blankRanges : List (Nat × Nat) :=
  [(0x09, 0x0d), (0x1c, 0x20), (0x85, 0x85), (0xa0, 0xa0), (0x1680, 0x1680), (0x2000, 0x200a),
   (0x2028, 0x2029), (0x202f, 0x202f), (0x205f, 0x205f), (0x3000, 0x3000)]

/-- Is `c` white space? -/
def isBlank (c : Char) : Bool := inRanges blankRanges c

/-- Is a text made of white space only? -/
def isBlankText (t : Text) : Bool := t.all isBlank

/-- A text without the white space at both its ends. -/
def strip (t : Text) : Text := trim isBlank t

/-- The pieces of a text between runs of white space. -/
def blankWords (t : Text) : List Text := words isBlank t

example : isBlank ' ' = true ∧ isBlank '\x1c' = true ∧ isBlank '\u200b' = false := by decide

end LiterateEdit.Text
