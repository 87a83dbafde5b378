import LiterateEdit.Text.Basic
import Mathlib.Data.List.Basic

/-!
# Slices of a text that is edited

An edit puts a text `u` in the place of the stretch of `t` from `i` to `j`: what comes out is
`t.take i ++ u ++ t.drop j`. This file says what becomes of a slice of `t`:

* a slice that ends where the stretch starts, or before, is read at the same place
  (`slice_edit_before`);
* a slice that starts where the stretch ends, or behind it, is read `u.length - (j - i)` further on
  (`slice_edit_behind`).

Both rest on `slice_eq`, which reads a slice with ends in the text as a `drop` and a `take`.
-/

namespace LiterateEdit

namespace Text

variable {t u v w : Text} {i j p q : Int}

/-! ### Slices with ends in the text -/

theorem sliceEnd_eq {n : Nat} (h₀ : 0 ≤ p) (h : p ≤ n) : sliceEnd n p = p.toNat := by
  have h₁ : ¬ p < 0 := by omega
  rw [sliceEnd, if_neg h₁]
  omega

/-- A slice with ends in the text drops what is before it and takes its length. -/
theorem slice_eq (h₀ : 0 ≤ p) (hpq : p ≤ q) (hq : q ≤ t.length) :
    t.slice p q = (t.drop p.toNat).take (q.toNat - p.toNat) := by
  rw [slice, sliceEnd_eq h₀ (by omega), sliceEnd_eq (by omega) hq]

theorem length_slice (h₀ : 0 ≤ p) (hpq : p ≤ q) (hq : q ≤ t.length) :
    ((t.slice p q).length : Int) = q - p := by
  rw [slice_eq h₀ hpq hq, List.length_take, List.length_drop]
  omega

/-- A slice of the middle one of three texts is a slice of them. -/
theorem slice_append_middle (u v : Text) (h₀ : 0 ≤ p) (hpq : p ≤ q) (hq : q ≤ t.length) :
    (u ++ t ++ v).slice (u.length + p) (u.length + q) = t.slice p q := by
  have hp : ((u.length : Int) + p).toNat = u.length + p.toNat := by omega
  have hq' : ((u.length : Int) + q).toNat = u.length + q.toNat := by omega
  rw [slice_eq (by omega) (by omega) (by simp only [List.length_append]; omega),
    slice_eq h₀ hpq hq, hp, hq', List.append_assoc, List.drop_length_add_append,
    List.drop_append_of_le_length (by omega),
    List.take_append_of_le_length (by rw [List.length_drop]; omega), Nat.add_sub_add_left]

/-- A text is the slice of it from end to end. -/
theorem slice_all (t : Text) : t.slice 0 t.length = t := by
  rw [slice_eq (by omega) (by omega) (by omega), Int.toNat_zero, List.drop_zero, Int.toNat_natCast,
    Nat.sub_zero, List.take_length]

/-- The middle one of three texts is a slice of them. -/
theorem slice_append (u v w : Text) :
    (u ++ v ++ w).slice u.length (u.length + v.length) = v := by
  have h := slice_append_middle (t := v) u w (Int.le_refl 0) (Int.natCast_nonneg _) (Int.le_refl _)
  rwa [Int.add_zero, slice_all] at h

/-- The first one of three texts is a slice of them. -/
theorem slice_append_before (u v w : Text) : (u ++ v ++ w).slice 0 u.length = u := by
  have h := slice_append [] u (v ++ w)
  rwa [List.length_nil, Int.natCast_zero, Int.zero_add, List.nil_append, ← List.append_assoc] at h

/-- The last one of three texts is a slice of them. -/
theorem slice_append_behind (u v w : Text) : (u ++ v ++ w).slice (u.length + v.length)
    (u.length + v.length + w.length) = w := by
  have h := slice_append (u ++ v) w []
  rwa [List.append_nil, List.length_append, Int.natCast_add] at h

@[simp] theorem slice_self (t : Text) (p : Int) : t.slice p p = [] := by
  simp [slice]

/-- Two slices that meet are one slice. -/
theorem slice_concat {r : Int} (h₀ : 0 ≤ p) (hpq : p ≤ q) (hqr : q ≤ r) (hr : r ≤ t.length) :
    t.slice p q ++ t.slice q r = t.slice p r := by
  have hdrop : t.drop q.toNat = (t.drop p.toNat).drop (q.toNat - p.toNat) := by
    rw [List.drop_drop]
    congr 1
    omega
  have hlen : r.toNat - p.toNat = (q.toNat - p.toNat) + (r.toNat - q.toNat) := by omega
  rw [slice_eq h₀ hpq (by omega), slice_eq (by omega) hqr hr, slice_eq h₀ (by omega) hr, hdrop,
    hlen, List.take_add]

/-! ### Slices of an edited text -/

/-- The text with `u` in the place of the stretch from `i` to `j`. -/
def edit (t : Text) (i j : Int) (u : Text) : Text := t.take i.toNat ++ u ++ t.drop j.toNat

theorem length_edit (h₀ : 0 ≤ i) (hij : i ≤ j) (hj : j ≤ t.length) :
    ((t.edit i j u).length : Int) = t.length - (j - i) + u.length := by
  simp only [edit, List.length_append, List.length_take, List.length_drop]
  omega

/-- Outside the stretch the text is as it was. -/
theorem edit_eq_slices (h₀ : 0 ≤ i) (hij : i ≤ j) (hj : j ≤ t.length) :
    t.edit i j u = t.slice 0 i ++ u ++ t.slice j t.length := by
  have hlen : (t.drop j.toNat).length ≤ t.length - j.toNat := Nat.le_of_eq List.length_drop
  rw [edit, slice_eq (Int.le_refl 0) h₀ (by omega), slice_eq (by omega) hj (Int.le_refl _),
    Int.toNat_zero, List.drop_zero, Nat.sub_zero, Int.toNat_natCast, List.take_of_length_le hlen]

/-- What stands in its place is the new text. -/
theorem slice_edit (h₀ : 0 ≤ i) (hij : i ≤ j) (hj : j ≤ t.length) :
    (t.edit i j u).slice i (i + u.length) = u := by
  have hlen : ((t.take i.toNat).length : Int) = i := by
    rw [List.length_take]
    omega
  have hmiddle := slice_append (t.take i.toNat) u (t.drop j.toNat)
  rwa [hlen] at hmiddle

/-- A stretch ends at the later one of two positions. An edit that always ends at the second one is
an edit of the stretch if they are in order or nothing is behind the second one, and in no other
case. -/
theorem edit_min_eq_iff (h₀ : 0 ≤ min i j) (hj : j ≤ t.length) :
    t.edit (min i j) j u = t.edit (min i j) (max i j) u ↔ i ≤ j ∨ j = t.length := by
  constructor
  · intro heq
    by_contra hnot
    -- what was to be replaced is still there and makes the text longer
    have hlen := congrArg List.length heq
    simp only [edit, List.length_append, List.length_take, List.length_drop] at hlen
    omega
  · rintro (hle | hend)
    · rw [Int.max_eq_right hle]
    · have hlast : t.length ≤ j.toNat := by omega
      have hlast' : t.length ≤ (max i j).toNat := by omega
      rw [edit, edit, List.drop_eq_nil_of_le hlast, List.drop_eq_nil_of_le hlast']

/-- An edit in the middle one of three texts leaves the other two. -/
theorem edit_append (u v : Text) (h₀ : 0 ≤ i) (hij : i ≤ j) (hj : j ≤ t.length) :
    (u ++ t ++ v).edit (u.length + i) (u.length + j) w = u ++ t.edit i j w ++ v := by
  have hi : ((u.length : Int) + i).toNat = u.length + i.toNat := by omega
  have hj' : ((u.length : Int) + j).toNat = u.length + j.toNat := by omega
  rw [edit, edit, hi, hj', List.append_assoc u t v, List.take_length_add_append,
    List.drop_length_add_append, List.take_append_of_le_length (by omega),
    List.drop_append_of_le_length (by omega)]
  simp only [List.append_assoc]

/-- **A slice before the edited stretch stays.** -/
theorem slice_edit_before (h₀ : 0 ≤ p) (hpq : p ≤ q) (hq : q ≤ i) (hij : i ≤ j)
    (hj : j ≤ t.length) : (t.edit i j u).slice p q = t.slice p q := by
  have hlen := length_edit (u := u) (by omega : 0 ≤ i) hij hj
  rw [slice_eq h₀ hpq (by omega), slice_eq h₀ hpq (by omega), edit, List.append_assoc,
    List.drop_append_of_le_length (by rw [List.length_take]; omega),
    List.take_append_of_le_length (by rw [List.length_drop, List.length_take]; omega),
    List.drop_take, List.take_take]
  congr 1
  omega

/-- **A slice behind the edited stretch moves** by what the edit makes the text longer. -/
theorem slice_edit_behind (h₀ : 0 ≤ i) (hij : i ≤ j) (hp : j ≤ p) (hpq : p ≤ q)
    (hq : q ≤ t.length) :
    (t.edit i j u).slice (p - (j - i) + u.length) (q - (j - i) + u.length) = t.slice p q := by
  have hlen := length_edit (u := u) h₀ hij (by omega : j ≤ t.length)
  have hfront : (t.take i.toNat ++ u).length = i.toNat + u.length := by
    rw [List.length_append, List.length_take]
    omega
  have hdrop : (p - (j - i) + u.length).toNat
      = (t.take i.toNat ++ u).length + (p.toNat - j.toNat) := by
    rw [hfront]
    omega
  have hrest : (t.take i.toNat ++ u ++ t.drop j.toNat).drop
      ((t.take i.toNat ++ u).length + (p.toNat - j.toNat)) = t.drop p.toNat := by
    rw [← List.drop_drop, List.drop_left, List.drop_drop]
    congr 1
    omega
  rw [slice_eq (by omega) (by omega) (by omega), slice_eq (by omega) hpq hq, edit, hdrop, hrest]
  congr 1
  omega

end Text

end LiterateEdit
