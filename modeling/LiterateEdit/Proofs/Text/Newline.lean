import LiterateEdit.Text.Lines

/-!
# Line ends that are read as line feeds

A text is read with a line feed for each carriage return, and for a carriage return and a line feed
together (`unixNewlines`). What is read holds no carriage return, so reading it again changes
nothing (`unixNewlines_of_not_mem`, `not_mem_unixNewlines`).

Each character that is read comes from a stretch of the text, so where what is read is cut, the text
can be cut too (`exists_of_unixNewlines_eq_append`).
-/

namespace LiterateEdit.Text

variable {t u v : Text}

/-- The first character is read by itself unless it is a carriage return. -/
theorem unixNewlines_cons {c : Char} (hc : c ≠ '\r') (t : Text) :
    unixNewlines (c :: t) = c :: unixNewlines t := by
  rw [unixNewlines, if_neg hc]
  intro _ hcr
  exact absurd hcr hc

/-- What stands before the first carriage return is read as it is. -/
theorem unixNewlines_append (hu : '\r' ∉ u) (t : Text) :
    unixNewlines (u ++ t) = u ++ unixNewlines t := by
  induction u with
  | nil => rfl
  | cons c u ih =>
    obtain ⟨hc, hu⟩ := not_or.1 (mt List.mem_cons.2 hu)
    rw [List.cons_append, unixNewlines_cons (Ne.symm hc), ih hu]
    rfl

theorem unixNewlines_of_not_mem (ht : '\r' ∉ t) : unixNewlines t = t := by
  have happend := unixNewlines_append ht []
  rwa [unixNewlines, List.append_nil] at happend

theorem not_mem_unixNewlines (t : Text) : '\r' ∉ unixNewlines t := by
  fun_induction unixNewlines t with
  | case1 => exact List.not_mem_nil
  | case2 t ih => exact fun hmem => (List.mem_cons.1 hmem).elim (by decide) ih
  | case3 c t _ ih =>
    refine fun hmem => (List.mem_cons.1 hmem).elim (fun hcr => ?_) ih
    split at hcr
    · exact absurd hcr (by decide)
    · next hc => exact hc hcr.symm

/-- **Where what is read is cut, the text can be cut.** -/
theorem exists_of_unixNewlines_eq_append (h : unixNewlines t = u ++ v) :
    ∃ t₁ t₂, t = t₁ ++ t₂ ∧ unixNewlines t₁ = u ∧ unixNewlines t₂ = v := by
  induction u generalizing t with
  | nil => exact ⟨[], t, rfl, rfl, h⟩
  | cons c u ih =>
    unfold unixNewlines at h
    split at h
    · cases h
    · -- a carriage return and a line feed are not cut apart
      next t =>
      obtain ⟨rfl, hrest⟩ := List.cons.inj h
      obtain ⟨t₁, t₂, rfl, rfl, hbehind⟩ := ih hrest
      exact ⟨'\r' :: '\n' :: t₁, t₂, rfl, rfl, hbehind⟩
    · next d t hpair =>
      obtain ⟨rfl, hrest⟩ := List.cons.inj h
      obtain ⟨t₁, t₂, rfl, rfl, hbehind⟩ := ih hrest
      refine ⟨d :: t₁, t₂, rfl, ?_, hbehind⟩
      rw [unixNewlines]
      rintro t' rfl ht'
      exact hpair (t' ++ t₂) rfl (by rw [ht', List.cons_append])

end LiterateEdit.Text
