/-!
# Text as a sequence of characters

Every text of this library is a list of code points. Positions, lengths and offsets count code
points, so a cut of a document is `take` and `drop`, and a law about a document is an induction on a
list. `String` serves for constants and at the edge of the program only.

The module holds the handful of operations that `List` does not already name: reading a constant,
joining, cutting a slice whose ends may be negative, and writing numbers.
-/

namespace LiterateEdit

/-- A text is the sequence of its code points. -/
abbrev Text := List Char

namespace Text

/-- The text of a string constant. -/
def lit (s : String) : Text := s.toList

/-- The string of a text, for the edge of the program. -/
def toString (t : Text) : String := String.ofList t

/-! ### Joining and searching -/

/-- The texts one after another with `sep` between each two. -/
def join (sep : Text) : List Text → Text
  | [] => []
  | [t] => t
  | t :: u :: rest => t ++ sep ++ join sep (u :: rest)

@[simp] theorem join_singleton (sep t : Text) : join sep [t] = t := rfl

@[simp] theorem join_cons_cons (sep t u : Text) (rest : List Text) :
    join sep (t :: u :: rest) = t ++ sep ++ join sep (u :: rest) := rfl

/-- Does `t` start with `start`? -/
def startsWith (start t : Text) : Bool := start.isPrefixOf t

/-- Does `t` end with `stop`? -/
def endsWith (stop t : Text) : Bool := stop.isSuffixOf t

/-- The rest of `t` behind `start`, if `t` starts with it. -/
def dropStart? : Text → Text → Option Text
  | [], t => some t
  | _ :: _, [] => none
  | a :: start, b :: t => if a = b then dropStart? start t else none

theorem append_of_dropStart? {start t u : Text} (h : dropStart? start t = some u) :
    start ++ u = t := by
  fun_induction dropStart? start t with
  | case1 t => simpa using h.symm
  | case2 => simp at h
  | case3 start b t ih => rw [List.cons_append, ih h]
  | case4 => simp at h

theorem suffix_of_dropStart? {start t u : Text} (h : dropStart? start t = some u) : u <:+ t :=
  ⟨start, append_of_dropStart? h⟩

/-- Does `part` occur in `t`? -/
def containsText (part : Text) : Text → Bool
  | [] => part.isEmpty
  | c :: t => part.isPrefixOf (c :: t) || containsText part t

/-! ### Cutting -/

/-- `t` without the characters of class `p` at its start. -/
def trimLeft (p : Char → Bool) (t : Text) : Text := t.dropWhile p

/-- `t` without the characters of class `p` at its end. -/
def trimRight (p : Char → Bool) : Text → Text
  | [] => []
  | c :: t =>
    match trimRight p t with
    | [] => if p c then [] else [c]
    | d :: u => c :: d :: u

/-- `t` without the characters of class `p` at both ends. -/
def trim (p : Char → Bool) (t : Text) : Text := trimRight p (trimLeft p t)

/-- The pieces of `t` between the characters of class `p`; there is always at least one. -/
def splitOn (p : Char → Bool) : Text → List Text
  | [] => [[]]
  | c :: t =>
    if p c then [] :: splitOn p t
    else
      match splitOn p t with
      | [] => [[c]]
      | piece :: rest => (c :: piece) :: rest

/-- The non-empty pieces of `t` between runs of the class `p`. -/
def words (p : Char → Bool) (t : Text) : List Text :=
  (splitOn p t).filter (fun w => !w.isEmpty)

/-- An end of a slice of a sequence of length `n`: a negative one counts from the end, and all are
brought into `0..n`. -/
def sliceEnd (n : Nat) (i : Int) : Nat :=
  if i < 0 then (i + n).toNat else min i.toNat n

/-- The slice `[start, stop)` of a text, whose ends may be negative (counted from the end) or out of
range (brought in). -/
def slice (t : Text) (start stop : Int) : Text :=
  let a := sliceEnd t.length start
  (t.drop a).take (sliceEnd t.length stop - a)

/-- `t` with spaces put behind it up to a width. -/
def padRight (width : Nat) (t : Text) : Text := t ++ List.replicate (width - t.length) ' '

/-- `t` with `fill` put before it up to a width. -/
def padLeft (width : Nat) (fill : Char) (t : Text) : Text :=
  List.replicate (width - t.length) fill ++ t

/-! ### Numbers -/

/-- A number in decimal digits. -/
def ofNat (n : Nat) : Text := Nat.toDigits 10 n

/-- An integer in decimal digits, with `-` before a negative one. -/
def ofInt : Int → Text
  | .ofNat n => ofNat n
  | .negSucc n => '-' :: ofNat (n + 1)

/-- A number in lower-case hexadecimal digits, padded with zeros to a width. -/
def ofHex (width n : Nat) : Text := padLeft width '0' (Nat.toDigits 16 n)

/-- Is `c` one of `0` … `9`? -/
def isAsciiDigit (c : Char) : Bool := '0' ≤ c && c ≤ '9'

/-- Is `c` an ASCII letter? -/
def isAsciiLetter (c : Char) : Bool := ('a' ≤ c && c ≤ 'z') || ('A' ≤ c && c ≤ 'Z')

/-- The value of a hexadecimal digit. -/
def hexValue? (c : Char) : Option Nat :=
  if isAsciiDigit c then some (c.toNat - 48)
  else if 'a' ≤ c && c ≤ 'f' then some (c.toNat - 87)
  else if 'A' ≤ c && c ≤ 'F' then some (c.toNat - 55)
  else none

/-- The number that ASCII digits write in a base up to sixteen; other characters count as zero. -/
def readBase (base : Nat) (t : Text) : Nat :=
  t.foldl (fun n c => n * base + (hexValue? c).getD 0) 0

/-- The number that decimal digits write. -/
def readNat (t : Text) : Nat := readBase 10 t

/-- Lower case for the ASCII letters; every other character stays. -/
def asciiLower (t : Text) : Text := t.map Char.toLower

/-- Upper case for the ASCII letters; every other character stays. -/
def asciiUpper (t : Text) : Text := t.map Char.toUpper

/-! ### Order -/

/-- Does `t` come strictly before `u` in the order of code points? -/
def before : Text → Text → Bool
  | _, [] => false
  | [], _ :: _ => true
  | a :: t, b :: u => if a = b then before t u else a.toNat < b.toNat

end Text

/-- Is the code point of `c` in one of the closed ranges of a table? -/
def inRanges (table : List (Nat × Nat)) (c : Char) : Bool :=
  table.any fun r => r.1 ≤ c.toNat && c.toNat ≤ r.2

end LiterateEdit
