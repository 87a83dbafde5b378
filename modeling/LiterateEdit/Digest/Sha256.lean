import LiterateEdit.Text.Utf8

/-!
# SHA-256

The hash function of FIPS 180-4 over a list of bytes. The message is padded to blocks of sixteen
words; each block is stretched to a schedule of sixty-four words, which drive as many rounds over a
state of eight words; the state after a block is added to the state before it.
-/

namespace LiterateEdit.Sha256

/-- The round constants: the first 32 bits of the fractional parts of the cube roots of the first
sixty-four primes. -/
def roundConstants : List UInt32 :=
  [0x428a2f98, 0x71374491, 0xb5c0fbcf, 0xe9b5dba5, 0x3956c25b, 0x59f111f1, 0x923f82a4, 0xab1c5ed5,
   0xd807aa98, 0x12835b01, 0x243185be, 0x550c7dc3, 0x72be5d74, 0x80deb1fe, 0x9bdc06a7, 0xc19bf174,
   0xe49b69c1, 0xefbe4786, 0x0fc19dc6, 0x240ca1cc, 0x2de92c6f, 0x4a7484aa, 0x5cb0a9dc, 0x76f988da,
   0x983e5152, 0xa831c66d, 0xb00327c8, 0xbf597fc7, 0xc6e00bf3, 0xd5a79147, 0x06ca6351, 0x14292967,
   0x27b70a85, 0x2e1b2138, 0x4d2c6dfc, 0x53380d13, 0x650a7354, 0x766a0abb, 0x81c2c92e, 0x92722c85,
   0xa2bfe8a1, 0xa81a664b, 0xc24b8b70, 0xc76c51a3, 0xd192e819, 0xd6990624, 0xf40e3585, 0x106aa070,
   0x19a4c116, 0x1e376c08, 0x2748774c, 0x34b0bcb5, 0x391c0cb3, 0x4ed8aa4a, 0x5b9cca4f, 0x682e6ff3,
   0x748f82ee, 0x78a5636f, 0x84c87814, 0x8cc70208, 0x90befffa, 0xa4506ceb, 0xbef9a3f7, 0xc67178f2]

/-- The eight words of the state. -/
structure State where
  a : UInt32
  b : UInt32
  c : UInt32
  d : UInt32
  e : UInt32
  f : UInt32
  g : UInt32
  h : UInt32
  deriving DecidableEq

/-- The state before the first block: the first 32 bits of the fractional parts of the square roots
of the first eight primes. -/
def State.initial : State :=
  ⟨0x6a09e667, 0xbb67ae85, 0x3c6ef372, 0xa54ff53a, 0x510e527f, 0x9b05688c, 0x1f83d9ab, 0x5be0cd19⟩

/-- A word turned right by `n` bits. -/
def rotateRight (x : UInt32) (n : UInt32) : UInt32 := (x >>> n) ||| (x <<< (32 - n))

/-- The word of four bytes, the first the most significant. -/
def wordOfBytes (a b c d : UInt8) : UInt32 :=
  (a.toUInt32 <<< 24) ||| (b.toUInt32 <<< 16) ||| (c.toUInt32 <<< 8) ||| d.toUInt32

/-- The bytes as words; fewer than four bytes at the end are dropped. -/
def words : Bytes → List UInt32
  | a :: b :: c :: d :: r => wordOfBytes a b c d :: words r
  | _ => []

/-- The byte of `n` at position `i`, counted from the least significant. -/
def byteAt (n i : Nat) : UInt8 := UInt8.ofNat (n >>> (8 * i))

/-- The message with a one bit, zeros and its length in bits behind it, to a multiple of sixty-four
bytes. -/
def pad (m : Bytes) : Bytes :=
  let zeros := (119 - m.length % 64) % 64
  m ++ [0x80] ++ List.replicate zeros 0 ++
    (List.range 8).reverse.map (byteAt (m.length * 8))

/-- One more word of the schedule, which is kept in reverse. -/
def stretch (w : List UInt32) : List UInt32 :=
  match w with
  | [] => []
  | _ :: _ =>
    let x := w.getD 14 0
    let y := w.getD 1 0
    let s0 := rotateRight x 7 ^^^ rotateRight x 18 ^^^ (x >>> 3)
    let s1 := rotateRight y 17 ^^^ rotateRight y 19 ^^^ (y >>> 10)
    (w.getD 15 0 + s0 + w.getD 6 0 + s1) :: w

/-- The schedule of a block of sixteen words. -/
def schedule (block : List UInt32) : List UInt32 := (Nat.repeat stretch 48 block.reverse).reverse

/-- One round. -/
def State.round (s : State) (k w : UInt32) : State :=
  let s1 := rotateRight s.e 6 ^^^ rotateRight s.e 11 ^^^ rotateRight s.e 25
  let choice := (s.e &&& s.f) ^^^ (~~~s.e &&& s.g)
  let t1 := s.h + s1 + choice + k + w
  let s0 := rotateRight s.a 2 ^^^ rotateRight s.a 13 ^^^ rotateRight s.a 22
  let majority := (s.a &&& s.b) ^^^ (s.a &&& s.c) ^^^ (s.b &&& s.c)
  ⟨t1 + s0 + majority, s.a, s.b, s.c, s.d + t1, s.e, s.f, s.g⟩

/-- The state after one block. -/
def State.absorb (s : State) (block : List UInt32) : State :=
  let t := (roundConstants.zip (schedule block)).foldl (fun t kw => t.round kw.1 kw.2) s
  ⟨s.a + t.a, s.b + t.b, s.c + t.c, s.d + t.d, s.e + t.e, s.f + t.f, s.g + t.g, s.h + t.h⟩

/-- The state after all blocks of a sequence of words, of which `count` are left to read. -/
def State.absorbAll (s : State) : Nat → List UInt32 → State
  | 0, _ => s
  | count + 1, ws => (s.absorb (ws.take 16)).absorbAll count (ws.drop 16)

/-- The words of the hash of a message. -/
def hash (m : Bytes) : List UInt32 :=
  let ws := words (pad m)
  let s := State.initial.absorbAll (ws.length / 16) ws
  [s.a, s.b, s.c, s.d, s.e, s.f, s.g, s.h]

/-- The hash of a message in hexadecimal digits. -/
def hexDigest (m : Bytes) : Text := (hash m).flatMap fun w => Text.ofHex 8 w.toNat

end LiterateEdit.Sha256
