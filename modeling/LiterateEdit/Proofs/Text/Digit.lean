import LiterateEdit.Text.Digit
import Mathlib.Data.List.Basic
import Mathlib.Data.List.TakeWhile
import Mathlib.Data.Nat.Digits.Defs

/-!
# Numbers in digits

A text of decimal digits, of whatever scripts, writes a number in positional notation (`Writes`),
and just these texts do (`exists_writes_iff`). The number is read from the text unless the text is
empty or has more digits than are read (`readDecimal_eq_ok_iff`).

Every decimal digit is a digit (`isDigit_of_decimalValue?`). The converse fails, so there are texts
of digits that no number is read from.
-/

namespace LiterateEdit.Text

variable {c : Char} {d n : Nat} {ds : List Nat} {t : Text}

/-- The digits of the text, each with its value, write the number. -/
def Writes (t : Text) (n : Nat) : Prop :=
  ∃ ds : List Nat, t.map decimalValue? = ds.map some ∧ n = Nat.ofDigits 10 ds.reverse

theorem ofDigitValues_eq_ofDigits (ds : List Nat) :
    ofDigitValues ds = Nat.ofDigits 10 ds.reverse := by
  rw [ofDigitValues, Nat.ofDigits_eq_foldr, List.foldr_reverse]
  simp only [Nat.cast_id, Nat.mul_comm 10, Nat.add_comm]

/-- Decimal digits of all scripts are digits. -/
theorem isDigit_of_decimalValue? (h : decimalValue? c = some d) : isDigit c = true := by
  have hranges : ∀ z ∈ decimalZeros, ∃ r ∈ digitRanges, r.1 ≤ z ∧ z + 9 ≤ r.2 := by decide +kernel
  obtain ⟨z, hfind, -⟩ := Option.map_eq_some_iff.1 h
  obtain ⟨r, hr, hfirst, hlast⟩ := hranges z (List.mem_of_find?_eq_some hfind)
  have hz := List.find?_some hfind
  simp only [Bool.and_eq_true, decide_eq_true_eq] at hz
  refine List.any_eq_true.2 ⟨r, hr, ?_⟩
  simp only [Bool.and_eq_true, decide_eq_true_eq]
  omega

/-- The values of decimal digits, one for each. -/
theorem map_some_filterMap_decimalValue? (h : ∀ c ∈ t, decimalValue? c ≠ none) :
    (t.filterMap decimalValue?).map some = t.map decimalValue? := by
  induction t with
  | nil => rfl
  | cons c t ih =>
    obtain ⟨hc, ht⟩ := List.forall_mem_cons.1 h
    obtain ⟨d, hd⟩ := Option.ne_none_iff_exists'.1 hc
    rw [List.filterMap_cons_some hd, List.map_cons, List.map_cons, ih ht, hd]

/-- Just the texts of decimal digits write a number. -/
theorem exists_writes_iff : (∃ n, t.Writes n) ↔ ∀ c ∈ t, decimalValue? c ≠ none := by
  constructor
  · rintro ⟨n, ds, hds, -⟩ c hc
    have hmem : decimalValue? c ∈ ds.map some := hds ▸ List.mem_map_of_mem hc
    obtain ⟨d, -, hd⟩ := List.mem_map.1 hmem
    rw [← hd]
    exact nofun
  · intro h
    exact ⟨_, _, (map_some_filterMap_decimalValue? h).symm, rfl⟩

/-- The empty text writes zero only. -/
theorem ne_nil_of_writes (h : t.Writes (n + 1)) : t ≠ [] := by
  rintro rfl
  obtain ⟨ds, hds, hn⟩ := h
  obtain rfl : ds = [] := List.map_eq_nil_iff.1 hds.symm
  cases hn

/-- A text that writes a number is made of digits. -/
theorem allDigits_of_writes (hne : t ≠ []) (h : t.Writes n) : allDigits t = true := by
  have hdigits : t.all isDigit = true := List.all_eq_true.2 fun c hc => by
    obtain ⟨d, hd⟩ := Option.ne_none_iff_exists'.1 (exists_writes_iff.1 ⟨n, h⟩ c hc)
    exact isDigit_of_decimalValue? hd
  rw [allDigits, hdigits, Bool.and_true, Bool.not_eq_true', List.isEmpty_eq_false_iff]
  exact hne

/-- A text is read digit by digit if all of them are decimal. -/
theorem readDecimal_of_decimal (h : ∀ c ∈ t, decimalValue? c ≠ none) :
    readDecimal t =
      if maxDigits < t.length then .error (.tooMany t.length)
      else if t = [] then .error (.notDecimal t)
      else .ok (ofDigitValues (t.filterMap decimalValue?)) := by
  have htake : (t.takeWhile fun c => (decimalValue? c).isSome) = t :=
    List.takeWhile_eq_self_iff.2 fun c hc => Option.isSome_iff_ne_none.2 (h c hc)
  have hlength : (t.filterMap decimalValue?).length = t.length := by
    rw [← List.length_map (f := some), map_some_filterMap_decimalValue? h, List.length_map]
  unfold readDecimal
  simp only [htake, hlength, true_and, ne_eq, ite_not]

/-- Nothing is read from a text with another character. -/
theorem readDecimal_of_not_decimal (h : ¬∀ c ∈ t, decimalValue? c ≠ none) :
    ∃ e, readDecimal t = .error e := by
  -- the digits before the first other character are fewer than the characters
  have hshort : ((t.takeWhile fun c => (decimalValue? c).isSome).filterMap decimalValue?).length
      ≠ t.length := fun hlength => h fun c hc => by
    have hprefix := List.takeWhile_prefix (l := t) fun c => (decimalValue? c).isSome
    have hle := hlength ▸ List.length_filterMap_le decimalValue? _
    have htake := hprefix.eq_of_length (Nat.le_antisymm hprefix.length_le hle)
    rw [← htake] at hc
    exact Option.isSome_iff_ne_none.1 (List.all_eq_true.1 List.all_takeWhile c hc)
  unfold readDecimal
  simp only [hshort, false_and, if_false]
  split
  · exact ⟨_, rfl⟩
  · exact ⟨_, rfl⟩

/-- **Which texts are read as which numbers.** -/
theorem readDecimal_eq_ok_iff :
    readDecimal t = .ok n ↔ t ≠ [] ∧ t.length ≤ maxDigits ∧ t.Writes n := by
  by_cases h : ∀ c ∈ t, decimalValue? c ≠ none
  · have hwrites : t.Writes n ↔ ofDigitValues (t.filterMap decimalValue?) = n := by
      rw [Writes, ofDigitValues_eq_ofDigits, ← map_some_filterMap_decimalValue? h]
      constructor
      · rintro ⟨ds, hds, rfl⟩
        rw [List.map_injective_iff.2 (Option.some_injective Nat) hds]
      · rintro rfl
        exact ⟨_, rfl, rfl⟩
    rw [readDecimal_of_decimal h, hwrites]
    split
    · next hmany => exact iff_of_false nofun fun hok => Nat.not_le.2 hmany hok.2.1
    · next hfew =>
      split
      · next hnil => exact iff_of_false nofun fun hok => hok.1 hnil
      · next hne => rw [Except.ok.injEq, and_iff_right hne, and_iff_right (Nat.not_lt.1 hfew)]
  · obtain ⟨e, he⟩ := readDecimal_of_not_decimal h
    rw [he]
    exact iff_of_false nofun fun hok => h (exists_writes_iff.1 ⟨n, hok.2.2⟩)

/-- **Which texts no number is read from.** -/
theorem readDecimal_eq_error_iff :
    (∃ e, readDecimal t = .error e) ↔
      t = [] ∨ maxDigits < t.length ∨ ∃ c ∈ t, decimalValue? c = none := by
  have hok : (∃ n, readDecimal t = .ok n) ↔
      t ≠ [] ∧ t.length ≤ maxDigits ∧ ∀ c ∈ t, decimalValue? c ≠ none := by
    simp only [readDecimal_eq_ok_iff, exists_and_left, exists_writes_iff]
  have herror : (∃ e, readDecimal t = .error e) ↔ ¬∃ n, readDecimal t = .ok n := by
    cases readDecimal t <;> simp
  rw [herror, hok, not_and_or, not_and_or, not_not, Nat.not_le]
  push Not
  rfl

end LiterateEdit.Text
