import LiterateEdit.Proofs.Text.Newline
import LiterateEdit.Text.Utf8

/-!
# Reading and writing UTF-8

Bytes that are read as a text are the bytes that the text is written as (`encode_of_decode`): of the
forms that a character could have in four bytes or fewer, `decode` accepts only the shortest one. So
a file whose text is written back has the same bytes.

A byte below 128 stands for the character of its number and for nothing else (`mem_encode_iff`). So
the bytes of a file that is read as a text are those of the text, but for carriage returns
(`ReadAs.eq_encode_iff`).
-/

namespace LiterateEdit.Utf8

variable {a b c d : UInt8} {bs : Bytes} {t u : Text} {pos n : Nat}

@[simp] theorem encode_append (t u : Text) : encode (t ++ u) = encode t ++ encode u :=
  List.flatMap_append

theorem encode_cons (x : Char) (t : Text) : encode (x :: t) = String.utf8EncodeChar x ++ encode t :=
  List.flatMap_cons

/-! ### One character -/

/-- The bytes of the character with a number. -/
private theorem utf8EncodeChar_ofNat (h : n.isValidChar) :
    String.utf8EncodeChar (Char.ofNat n) =
      if n ≤ 127 then [UInt8.ofNat n]
      else if n ≤ 2047 then [UInt8.ofNat (n / 64 % 32 + 192), UInt8.ofNat (n % 64 + 128)]
      else if n ≤ 65535 then
        [UInt8.ofNat (n / 4096 % 16 + 224), UInt8.ofNat (n / 64 % 64 + 128),
          UInt8.ofNat (n % 64 + 128)]
      else
        [UInt8.ofNat (n / 262144 % 8 + 240), UInt8.ofNat (n / 4096 % 64 + 128),
          UInt8.ofNat (n / 64 % 64 + 128), UInt8.ofNat (n % 64 + 128)] := by
  have hval : (Char.ofNat n).val.toNat = n := by
    rw [Char.ofNat, dif_pos h]
    rfl
  rw [String.utf8EncodeChar, hval]

/-- A byte is told by its number. -/
private theorem ofNat_eq {m : Nat} (h : m = a.toNat) : UInt8.ofNat m = a := by
  rw [h, UInt8.ofNat_toNat]

private theorem isTail_iff : isTail b = true ↔ 128 ≤ b.toNat ∧ b.toNat ≤ 191 := by
  rw [isTail, Bool.and_eq_true, decide_eq_true_eq, decide_eq_true_eq, UInt8.le_iff_toNat_le,
    UInt8.le_iff_toNat_le]
  exact Iff.rfl

private theorem encodeChar_one (h : a < 0x80) :
    String.utf8EncodeChar (Char.ofNat a.toNat) = [a] := by
  have ha : a.toNat < 128 := UInt8.lt_iff_toNat_lt.1 h
  rw [utf8EncodeChar_ofNat (.inl (by omega)), if_pos (by omega), UInt8.ofNat_toNat]

private theorem encodeChar_two (h : 0xc2 ≤ a ∧ a ≤ 0xdf) (hb : isTail b = true) :
    String.utf8EncodeChar (Char.ofNat (a.toNat % 32 * 64 + low b)) = [a, b] := by
  have ha : 194 ≤ a.toNat := UInt8.le_iff_toNat_le.1 h.1
  have ha' : a.toNat ≤ 223 := UInt8.le_iff_toNat_le.1 h.2
  obtain ⟨hb, hb'⟩ := isTail_iff.1 hb
  unfold low
  rw [utf8EncodeChar_ofNat (.inl (by omega)), if_neg (by omega), if_pos (by omega),
    ofNat_eq (a := a) (by omega), ofNat_eq (a := b) (by omega)]

private theorem encodeChar_three (h : 0xe0 ≤ a ∧ a ≤ 0xef) (hb : isSecondOfThree a b = true)
    (hc : isTail c = true) :
    String.utf8EncodeChar (Char.ofNat ((a.toNat % 16 * 64 + low b) * 64 + low c)) = [a, b, c] := by
  have ha : 224 ≤ a.toNat := UInt8.le_iff_toNat_le.1 h.1
  have ha' : a.toNat ≤ 239 := UInt8.le_iff_toNat_le.1 h.2
  simp only [isSecondOfThree, Bool.and_eq_true, Bool.or_eq_true, bne_iff_ne, ne_eq,
    decide_eq_true_eq, isTail_iff, UInt8.le_iff_toNat_le, UInt8.lt_iff_toNat_lt,
    ← UInt8.toNat_inj] at hb
  obtain ⟨⟨⟨hb, hb'⟩, hshort⟩, hsurrogate⟩ := hb
  change ¬ a.toNat = 224 ∨ 160 ≤ b.toNat at hshort
  change ¬ a.toNat = 237 ∨ b.toNat < 160 at hsurrogate
  obtain ⟨hc, hc'⟩ := isTail_iff.1 hc
  have hvalid : ((a.toNat % 16 * 64 + b.toNat % 64) * 64 + c.toNat % 64).isValidChar := by
    unfold Nat.isValidChar
    omega
  unfold low
  rw [utf8EncodeChar_ofNat hvalid, if_neg (by omega), if_neg (by omega), if_pos (by omega),
    ofNat_eq (a := a) (by omega), ofNat_eq (a := b) (by omega), ofNat_eq (a := c) (by omega)]

private theorem encodeChar_four (h : 0xf0 ≤ a ∧ a ≤ 0xf4) (hb : isSecondOfFour a b = true)
    (hc : isTail c = true) (hd : isTail d = true) :
    String.utf8EncodeChar
        (Char.ofNat (((a.toNat % 8 * 64 + low b) * 64 + low c) * 64 + low d)) = [a, b, c, d] := by
  have ha : 240 ≤ a.toNat := UInt8.le_iff_toNat_le.1 h.1
  have ha' : a.toNat ≤ 244 := UInt8.le_iff_toNat_le.1 h.2
  simp only [isSecondOfFour, Bool.and_eq_true, Bool.or_eq_true, bne_iff_ne, ne_eq,
    decide_eq_true_eq, isTail_iff, UInt8.le_iff_toNat_le, UInt8.lt_iff_toNat_lt,
    ← UInt8.toNat_inj] at hb
  obtain ⟨⟨⟨hb, hb'⟩, hshort⟩, hlarge⟩ := hb
  change ¬ a.toNat = 240 ∨ 144 ≤ b.toNat at hshort
  change ¬ a.toNat = 244 ∨ b.toNat < 144 at hlarge
  obtain ⟨hc, hc'⟩ := isTail_iff.1 hc
  obtain ⟨hd, hd'⟩ := isTail_iff.1 hd
  have hvalid : (((a.toNat % 8 * 64 + b.toNat % 64) * 64 + c.toNat % 64) * 64 +
      d.toNat % 64).isValidChar := by
    unfold Nat.isValidChar
    omega
  unfold low
  rw [utf8EncodeChar_ofNat hvalid, if_neg (by omega), if_neg (by omega), if_neg (by omega),
    ofNat_eq (a := a) (by omega), ofNat_eq (a := b) (by omega), ofNat_eq (a := c) (by omega),
    ofNat_eq (a := d) (by omega)]

/-! ### Texts -/

private theorem encode_of_map {x : Char} {r : Except Error Text} {rest : Bytes}
    (h : r.map (x :: ·) = .ok t) (hrest : ∀ {u}, r = .ok u → encode u = rest) :
    encode t = String.utf8EncodeChar x ++ rest := by
  cases r with
  | error e => cases h
  | ok u =>
    cases h
    rw [encode_cons, hrest rfl]

private theorem encode_of_decodeFrom (h : decodeFrom pos bs = .ok t) : encode t = bs := by
  fun_induction decodeFrom pos bs generalizing t
  case case1 =>
    cases h
    rfl
  case case2 ha ih =>
    rw [encode_of_map h ih, encodeChar_one ha]
    rfl
  case case4 ha _ _ hb ih =>
    rw [encode_of_map h ih, encodeChar_two ha hb]
    rfl
  case case8 ha _ hb _ _ hc ih =>
    rw [encode_of_map h ih, encodeChar_three ha hb hc]
    rfl
  case case14 ha _ hb _ hc _ _ hd ih =>
    rw [encode_of_map h ih, encodeChar_four ha hb hc hd]
    rfl
  -- in all other cases nothing is read
  all_goals cases h

/-- **What is read is what would be written.** -/
theorem encode_of_decode (h : decode bs = .ok t) : encode t = bs := encode_of_decodeFrom h

/-- A byte below 128 is the number of its character. -/
private theorem mem_encodeChar_iff {x : Char} (ha : a.toNat < 128) :
    a ∈ String.utf8EncodeChar x ↔ x.toNat = a.toNat := by
  have hbyte {m : Nat} (hm : m < 256) : a = UInt8.ofNat m ↔ m = a.toNat := by
    rw [← UInt8.toNat_inj, UInt8.toNat_ofNat_of_lt' hm]
    exact eq_comm
  change _ ↔ x.val.toNat = _
  rw [String.utf8EncodeChar]
  generalize x.val.toNat = n
  -- all bytes of a longer character are 128 or more
  split
  · rw [List.mem_singleton, hbyte (by omega)]
  · split
    · simp only [List.mem_cons, List.not_mem_nil, or_false]
      rw [hbyte (by omega), hbyte (by omega)]
      omega
    · split
      · simp only [List.mem_cons, List.not_mem_nil, or_false]
        rw [hbyte (by omega), hbyte (by omega), hbyte (by omega)]
        omega
      · simp only [List.mem_cons, List.not_mem_nil, or_false]
        rw [hbyte (by omega), hbyte (by omega), hbyte (by omega), hbyte (by omega)]
        omega

/-- **A byte below 128 is that of its character**, and of no other one. -/
theorem mem_encode_iff {x : Char} (hx : x.toNat < 128) :
    UInt8.ofNat x.toNat ∈ encode t ↔ x ∈ t := by
  have hnumber : (UInt8.ofNat x.toNat).toNat = x.toNat :=
    UInt8.toNat_ofNat_of_lt' (Nat.lt_trans hx (by decide))
  rw [encode, List.mem_flatMap]
  constructor
  · rintro ⟨y, hy, hmem⟩
    rw [mem_encodeChar_iff (by omega), hnumber] at hmem
    rwa [← Char.ofNat_toNat x, ← hmem, Char.ofNat_toNat]
  · exact fun hmem => ⟨x, hmem, (mem_encodeChar_iff (by omega)).2 hnumber.symm⟩

/-! ### Bytes that are read as a text -/

/-- Bytes are read as a text, whatever ends the lines in them. -/
def ReadAs (bs : Bytes) (t : Text) : Prop := ∃ u, bs = encode u ∧ Text.unixNewlines u = t

/-- The byte of a carriage return. -/
theorem mem_encode_return : 0x0d ∈ encode t ↔ '\r' ∈ t :=
  have hascii : ('\r').toNat < 128 := by decide
  mem_encode_iff hascii

namespace ReadAs

variable {bytes : Bytes}

/-- Where the text is cut, the bytes can be cut. -/
theorem exists_append (h : ReadAs bytes (t ++ u)) :
    ∃ bs₁ bs₂, bytes = bs₁ ++ bs₂ ∧ ReadAs bs₁ t ∧ ReadAs bs₂ u := by
  obtain ⟨v, rfl, hread⟩ := h
  obtain ⟨v₁, v₂, rfl, h₁, h₂⟩ := Text.exists_of_unixNewlines_eq_append hread
  exact ⟨encode v₁, encode v₂, encode_append v₁ v₂, ⟨v₁, rfl, h₁⟩, ⟨v₂, rfl, h₂⟩⟩

theorem not_mem (h : ReadAs bytes t) : '\r' ∉ t := by
  obtain ⟨u, -, rfl⟩ := h
  exact Text.not_mem_unixNewlines u

/-- **Writing the text back gives the bytes** if there is no carriage return among them. -/
theorem eq_encode_iff (h : ReadAs bytes t) : bytes = encode t ↔ 0x0d ∉ bytes := by
  constructor
  · rintro rfl
    exact mt mem_encode_return.1 h.not_mem
  · obtain ⟨u, rfl, rfl⟩ := h
    intro hnone
    rw [Text.unixNewlines_of_not_mem (mt mem_encode_return.2 hnone)]

/-- **What is read around something is written back as it was** exactly if no carriage return is
among its bytes. -/
theorem exists_encode_eq_iff {head tail : Bytes} {mid : Text} (hhead : ReadAs head t)
    (htail : ReadAs tail u) (hmid : '\r' ∉ mid) :
    (∃ body, encode (t ++ (mid ++ u)) = head ++ (body ++ tail)) ↔ 0x0d ∉ head ∧ 0x0d ∉ tail := by
  constructor
  · rintro ⟨body, heq⟩
    have hnone : 0x0d ∉ encode (t ++ (mid ++ u)) := by
      rw [mem_encode_return, List.mem_append, List.mem_append, not_or, not_or]
      exact ⟨hhead.not_mem, hmid, htail.not_mem⟩
    rw [heq] at hnone
    exact ⟨fun h => hnone (List.mem_append_left _ h),
      fun h => hnone (List.mem_append_right head (List.mem_append_right body h))⟩
  · rintro ⟨hheadNone, htailNone⟩
    refine ⟨encode mid, ?_⟩
    rw [encode_append, encode_append, ← hhead.eq_encode_iff.2 hheadNone,
      ← htail.eq_encode_iff.2 htailNone]

end ReadAs

end LiterateEdit.Utf8
