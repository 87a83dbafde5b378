import LiterateEdit.Text.Basic

/-!
# Styled text

Terminals read escape sequences in a text as styles. Context is shown on a background colour: the
sequence that sets the colour, the text, and the sequence that ends all styles. An output that is no
terminal gets the text without its escape sequences (`stripStyles`).
-/

namespace LiterateEdit

/-- The start of an escape sequence. -/
def styleStart : Text := ['\x1b', '[']

/-- The names of the colours. -/
def colourNames : List String :=
  ["black", "red", "green", "yellow", "blue", "magenta", "cyan", "white"]

/-- The number that a colour has as a background. -/
def backgroundCode? (name : Text) : Option Nat :=
  if name = Text.lit "reset" then some 49
  else
    match colourNames.findIdx? fun c => Text.lit c = name with
    | some i => some (40 + i)
    | none =>
      (colourNames.findIdx? fun c => Text.lit "bright_" ++ Text.lit c = name).map (100 + ·)

/-- An escape sequence with a number. -/
def styleCode (n : Nat) : Text := styleStart ++ Text.ofNat n ++ ['m']

/-- A text on a background; no name leaves the background as it is. There is no styled text if no
colour has the name. -/
def onBackground? (name t : Text) : Option Text :=
  if name.isEmpty then some (t ++ styleCode 0)
  else (backgroundCode? name).map fun n => styleCode n ++ t ++ styleCode 0

/-- Can the character stand between the start and the end of an escape sequence? -/
def isStyleParameter (c : Char) : Bool := c = ';' || c = '?' || Text.isAsciiDigit c

/-- What follows the escape sequence whose start is just before a text. -/
def behindStyle? (t : Text) : Option Text :=
  match t.dropWhile isStyleParameter with
  | [] => none
  | c :: u => if Text.isAsciiLetter c then some u else none

theorem length_behindStyle? {t u : Text} (h : behindStyle? t = some u) : u.length < t.length := by
  have hle : (t.dropWhile isStyleParameter).length ≤ t.length :=
    (List.dropWhile_suffix _).length_le
  unfold behindStyle? at h
  split at h
  · simp at h
  · next c v hv =>
    rw [hv] at hle
    split at h
    · cases h
      simp only [List.length_cons] at hle
      omega
    · simp at h

/-- A text without its escape sequences. -/
def stripStyles (t : Text) : Text :=
  match t with
  | [] => []
  | c :: rest =>
    if c = '\x1b' ∧ rest.head? = some '[' then
      match _found : behindStyle? rest.tail with
      | some u => stripStyles u
      | none => c :: stripStyles rest
    else c :: stripStyles rest
termination_by t.length
decreasing_by
  · have hu := length_behindStyle? _found
    simp only [List.length_tail] at hu
    simp only [List.length_cons]
    omega
  · simp
  · simp

end LiterateEdit
