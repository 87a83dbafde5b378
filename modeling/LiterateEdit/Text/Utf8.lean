import LiterateEdit.Text.Basic

/-!
# UTF-8

Files hold bytes; documents are texts. `encode` writes a text as UTF-8, `decode` reads it back or
says where and why the bytes are no UTF-8: a byte that starts no character, a character broken off
by a byte that does not continue it, or the end of the bytes inside a character. The error tells the
first and the last byte of the offending piece, which a message to the user shows.
-/

namespace LiterateEdit

/-- The content of a file. -/
abbrev Bytes := List UInt8

namespace Utf8

/-- Why bytes are no UTF-8. -/
inductive Fault where
  /-- A byte that starts no character. -/
  | start
  /-- A byte that does not continue the character before it. -/
  | continuation
  /-- The bytes end inside a character. -/
  | truncated
  deriving DecidableEq

/-- The piece of the bytes that is no UTF-8. -/
structure Error where
  /-- What is wrong. -/
  fault : Fault
  /-- The offset of the first byte of the piece. -/
  first : Nat
  /-- The bytes of the piece. -/
  piece : Bytes
  deriving DecidableEq

/-- Does `b` continue a character? -/
def isTail (b : UInt8) : Bool := 0x80 ≤ b && b ≤ 0xbf

/-- May `b` be the second byte of a character of three bytes that starts with `a`? -/
def isSecondOfThree (a b : UInt8) : Bool :=
  isTail b && (a != 0xe0 || 0xa0 ≤ b) && (a != 0xed || b < 0xa0)

/-- May `b` be the second byte of a character of four bytes that starts with `a`? -/
def isSecondOfFour (a b : UInt8) : Bool :=
  isTail b && (a != 0xf0 || 0x90 ≤ b) && (a != 0xf4 || b < 0x90)

/-- The low six bits of a byte. -/
def low (b : UInt8) : Nat := b.toNat % 64

/-- Read the bytes from offset `pos` on. -/
def decodeFrom (pos : Nat) : Bytes → Except Error Text
  | [] => .ok []
  | a :: r =>
    if a < 0x80 then (decodeFrom (pos + 1) r).map (Char.ofNat a.toNat :: ·)
    else if 0xc2 ≤ a ∧ a ≤ 0xdf then
      match r with
      | [] => .error ⟨.truncated, pos, [a]⟩
      | b :: r =>
        if isTail b then
          (decodeFrom (pos + 2) r).map (Char.ofNat (a.toNat % 32 * 64 + low b) :: ·)
        else .error ⟨.continuation, pos, [a]⟩
    else if 0xe0 ≤ a ∧ a ≤ 0xef then
      match r with
      | [] => .error ⟨.truncated, pos, [a]⟩
      | b :: r =>
        if isSecondOfThree a b then
          match r with
          | [] => .error ⟨.truncated, pos, [a, b]⟩
          | c :: r =>
            if isTail c then
              (decodeFrom (pos + 3) r).map
                (Char.ofNat ((a.toNat % 16 * 64 + low b) * 64 + low c) :: ·)
            else .error ⟨.continuation, pos, [a, b]⟩
        else .error ⟨.continuation, pos, [a]⟩
    else if 0xf0 ≤ a ∧ a ≤ 0xf4 then
      match r with
      | [] => .error ⟨.truncated, pos, [a]⟩
      | b :: r =>
        if isSecondOfFour a b then
          match r with
          | [] => .error ⟨.truncated, pos, [a, b]⟩
          | c :: r =>
            if isTail c then
              match r with
              | [] => .error ⟨.truncated, pos, [a, b, c]⟩
              | d :: r =>
                if isTail d then
                  (decodeFrom (pos + 4) r).map
                    (Char.ofNat (((a.toNat % 8 * 64 + low b) * 64 + low c) * 64 + low d) :: ·)
                else .error ⟨.continuation, pos, [a, b, c]⟩
            else .error ⟨.continuation, pos, [a, b]⟩
        else .error ⟨.continuation, pos, [a]⟩
    else .error ⟨.start, pos, [a]⟩

/-- The text that bytes encode. -/
def decode (bs : Bytes) : Except Error Text := decodeFrom 0 bs

/-- The bytes that encode a text. -/
def encode (t : Text) : Bytes := t.flatMap String.utf8EncodeChar

/-- What is wrong, in words. -/
def Fault.message : Fault → String
  | .start => "invalid start byte"
  | .continuation => "invalid continuation byte"
  | .truncated => "unexpected end of data"

/-- The error in words: one byte is shown, more are told by their offsets. -/
def Error.message (e : Error) : Text :=
  let place :=
    match e.piece with
    | [b] => Text.lit "byte 0x" ++ Text.ofHex 2 b.toNat ++ Text.lit " in position " ++
        Text.ofNat e.first
    | piece => Text.lit "bytes in position " ++ Text.ofNat e.first ++ ['-'] ++
        Text.ofNat (e.first + piece.length - 1)
  Text.lit "'utf-8' codec can't decode " ++ place ++ Text.lit ": " ++ Text.lit e.fault.message

end Utf8

end LiterateEdit
