import LiterateEdit.Text.Quoted

/-!
# Digits and the numbers they write

Two classes of Unicode 14 are called digits. The wide one (`isDigit`) holds every character that
stands for a digit in some way, superscripts and circled digits among them. The narrow one holds the
decimal digits, which come in runs of ten and have a value in positional notation
(`decimalValue?`). A number can be read from a text (`readDecimal`) only if all its characters are
in the narrow class, and only up to a bound on their count.
-/

namespace LiterateEdit.Text

/-- The ranges of characters that stand for a digit. -/
def digitRanges : List (Nat × Nat) :=
  [(0x30, 0x39), (0xb2, 0xb3), (0xb9, 0xb9), (0x660, 0x669), (0x6f0, 0x6f9), (0x7c0, 0x7c9),
   (0x966, 0x96f), (0x9e6, 0x9ef), (0xa66, 0xa6f), (0xae6, 0xaef), (0xb66, 0xb6f), (0xbe6, 0xbef),
   (0xc66, 0xc6f), (0xce6, 0xcef), (0xd66, 0xd6f), (0xde6, 0xdef), (0xe50, 0xe59), (0xed0, 0xed9),
   (0xf20, 0xf29), (0x1040, 0x1049), (0x1090, 0x1099), (0x1369, 0x1371), (0x17e0, 0x17e9),
   (0x1810, 0x1819), (0x1946, 0x194f), (0x19d0, 0x19da), (0x1a80, 0x1a89), (0x1a90, 0x1a99),
   (0x1b50, 0x1b59), (0x1bb0, 0x1bb9), (0x1c40, 0x1c49), (0x1c50, 0x1c59), (0x2070, 0x2070),
   (0x2074, 0x2079), (0x2080, 0x2089), (0x2460, 0x2468), (0x2474, 0x247c), (0x2488, 0x2490),
   (0x24ea, 0x24ea), (0x24f5, 0x24fd), (0x24ff, 0x24ff), (0x2776, 0x277e), (0x2780, 0x2788),
   (0x278a, 0x2792), (0xa620, 0xa629), (0xa8d0, 0xa8d9), (0xa900, 0xa909), (0xa9d0, 0xa9d9),
   (0xa9f0, 0xa9f9), (0xaa50, 0xaa59), (0xabf0, 0xabf9), (0xff10, 0xff19), (0x104a0, 0x104a9),
   (0x10a40, 0x10a43), (0x10d30, 0x10d39), (0x10e60, 0x10e68), (0x11052, 0x1105a),
   (0x11066, 0x1106f), (0x110f0, 0x110f9), (0x11136, 0x1113f), (0x111d0, 0x111d9),
   (0x112f0, 0x112f9), (0x11450, 0x11459), (0x114d0, 0x114d9), (0x11650, 0x11659),
   (0x116c0, 0x116c9), (0x11730, 0x11739), (0x118e0, 0x118e9), (0x11950, 0x11959),
   (0x11c50, 0x11c59), (0x11d50, 0x11d59), (0x11da0, 0x11da9), (0x16a60, 0x16a69),
   (0x16ac0, 0x16ac9), (0x16b50, 0x16b59), (0x1d7ce, 0x1d7ff), (0x1e140, 0x1e149),
   (0x1e2f0, 0x1e2f9), (0x1e950, 0x1e959), (0x1f100, 0x1f10a), (0x1fbf0, 0x1fbf9)]

/-- The zeros of the runs of ten decimal digits. -/
def decimalZeros : List Nat :=
  [0x30, 0x660, 0x6f0, 0x7c0, 0x966, 0x9e6, 0xa66, 0xae6, 0xb66, 0xbe6,
   0xc66, 0xce6, 0xd66, 0xde6, 0xe50, 0xed0, 0xf20, 0x1040, 0x1090, 0x17e0,
   0x1810, 0x1946, 0x19d0, 0x1a80, 0x1a90, 0x1b50, 0x1bb0, 0x1c40, 0x1c50, 0xa620,
   0xa8d0, 0xa900, 0xa9d0, 0xa9f0, 0xaa50, 0xabf0, 0xff10, 0x104a0, 0x10d30, 0x11066,
   0x110f0, 0x11136, 0x111d0, 0x112f0, 0x11450, 0x114d0, 0x11650, 0x116c0, 0x11730, 0x118e0,
   0x11950, 0x11c50, 0x11d50, 0x11da0, 0x16a60, 0x16ac0, 0x16b50, 0x1d7ce, 0x1d7d8, 0x1d7e2,
   0x1d7ec, 0x1d7f6, 0x1e140, 0x1e2f0, 0x1e950, 0x1fbf0]

/-- Does `c` stand for a digit in some way? -/
def isDigit (c : Char) : Bool := inRanges digitRanges c

/-- Is a text non-empty and made of characters that stand for digits? -/
def allDigits (t : Text) : Bool := !t.isEmpty && t.all isDigit

/-- The value of a decimal digit of any script. -/
def decimalValue? (c : Char) : Option Nat :=
  (decimalZeros.find? fun z => z ≤ c.toNat && c.toNat < z + 10).map fun z => c.toNat - z

/-- The number that a sequence of digit values writes. -/
def ofDigitValues (ds : List Nat) : Nat := ds.foldl (fun n d => n * 10 + d) 0

/-- The greatest count of digits that is read as a number. -/
def maxDigits : Nat := 4300

/-- Why a text of digits is not read as a number. -/
inductive DigitError where
  /-- The leading decimal digits are more than the bound. -/
  | tooMany (count : Nat)
  /-- A character of the text is no decimal digit. -/
  | notDecimal (t : Text)
  deriving DecidableEq

/-- What is told about digits that cannot be read. -/
def DigitError.message : DigitError → Text
  | .tooMany n =>
    lit "Exceeds the limit (4300 digits) for integer string conversion: value has " ++ ofNat n ++
      lit " digits; use sys.set_int_max_str_digits() to increase the limit"
  | .notDecimal t => lit "invalid literal for int() with base 10: " ++ quoted t

/-- Read a number from a text of digits. -/
def readDecimal (t : Text) : Except DigitError Nat :=
  let leading := (t.takeWhile fun c => (decimalValue? c).isSome).filterMap decimalValue?
  if maxDigits < leading.length then .error (.tooMany leading.length)
  else if leading.length = t.length ∧ t ≠ [] then .ok (ofDigitValues leading)
  else .error (.notDecimal t)

example : decimalValue? '7' = some 7 ∧ decimalValue? '\u0663' = some 3 := by decide +kernel

example : decimalValue? '\u00b2' = none := by decide +kernel

example : isDigit '\u00b2' = true ∧ isDigit '\u0663' = true ∧ isDigit 'x' = false := by
  decide +kernel

end LiterateEdit.Text
