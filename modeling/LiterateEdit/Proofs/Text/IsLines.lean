import LiterateEdit.Proofs.Text.Cut

/-!
# Lists of lines with any breaks

`Cut` describes the lines of a text that breaks at line feeds only. `IsLines` does the same for any
text: each line is ended by a break of whatever kind, and only the last one may have none. One
condition is needed that no single line shows. A carriage return that ends a line must not stand
before a line feed, since the two would be one break (`IsLines.cons`).

The description is exact: the lines of a text have this form (`isLines_lines`), and a list of this
form is cut as it is written down (`IsLines.lines_flatten`). So to see how a text that is put
together from lines is cut again, it is enough to look at the seams. Behind a line feed there is
nothing to look at (`IsLines.append`).
-/

namespace LiterateEdit.Text

variable {t u brk : Text} {ls ls' : List Text}

/-- **Lines as they come out of a text.** -/
inductive IsLines : List Text → Prop where
  | nil : IsLines []
  | last {l : Text} (hne : l ≠ []) (hl : Unbroken l) : IsLines [l]
  | cons {u brk : Text} {ls : List Text} (hu : Unbroken u) (hbrk : IsBreak brk)
      (hnext : brk = ['\r'] → ls.flatten.head? ≠ some '\n') (hls : IsLines ls) :
      IsLines ((u ++ brk) :: ls)

theorem isBreak_feed : IsBreak ['\n'] := .inr ⟨'\n', rfl, rfl⟩

/-- A break ends the first line. -/
theorem lines_break (hu : Unbroken u) (hbrk : IsBreak brk)
    (hnext : brk = ['\r'] → t.head? ≠ some '\n') :
    lines (u ++ (brk ++ t)) = (u ++ brk) :: lines t := by
  induction u with
  | nil =>
    rcases hbrk with rfl | ⟨c, hc, rfl⟩
    · rfl
    · change lines (c :: t) = [c] :: lines t
      rw [lines_cons fun hcr => hnext (by rw [hcr]), if_pos hc]
  | cons c u ih =>
    obtain ⟨hc, hu⟩ := hu.of_cons
    have hcr : c = '\r' → (u ++ (brk ++ t)).head? ≠ some '\n' := by
      rintro rfl
      exact absurd hc (by decide)
    rw [List.cons_append, lines_cons hcr, hc, ih hu]
    rfl

/-- **Lines are cut as they are written down.** -/
theorem IsLines.lines_flatten (h : IsLines ls) : lines ls.flatten = ls := by
  induction h with
  | nil => rfl
  | last hne hl =>
    rw [List.flatten_cons, List.flatten_nil, List.append_nil]
    exact lines_unbroken hne hl
  | cons hu hbrk hnext hls ih =>
    rw [List.flatten_cons, List.append_assoc, lines_break hu hbrk hnext, ih]

private theorem isLines_consLine {c : Char} (hc : isLineBreak c = false) (h : IsLines ls) :
    IsLines (consLine c ls) := by
  have hcons : ∀ {l : Text}, Unbroken l → Unbroken (c :: l) := fun hl =>
    List.forall_mem_cons.2 ⟨hc, hl⟩
  cases h with
  | nil => exact .last (List.cons_ne_nil c []) (hcons fun d hd => absurd hd List.not_mem_nil)
  | last hne hl => exact .last (List.cons_ne_nil c _) (hcons hl)
  | cons hu hbrk hnext hls => exact .cons (hcons hu) hbrk hnext hls

/-- **The lines of a text** have the form of lines. -/
theorem isLines_lines (t : Text) : IsLines (lines t) := by
  have hnil : Unbroken [] := fun c hc => absurd hc List.not_mem_nil
  fun_induction lines t with
  | case1 => exact .nil
  | case2 t ih => exact .cons hnil (.inl rfl) (fun h => by cases h) ih
  | case3 c t hpair hc ih =>
    refine .cons (u := []) hnil (.inr ⟨c, hc, rfl⟩) (fun hcr hfeed => ?_) ih
    -- a line feed behind a carriage return would have been cut off with it
    rw [join_lines, List.head?_eq_some_iff] at hfeed
    obtain ⟨rest, rfl⟩ := hfeed
    exact hpair rest (List.cons.inj hcr).1 rfl
  | case4 c t _ hc ih => exact isLines_consLine (Bool.eq_false_iff.2 hc) ih

/-- Lines that are broken by line feeds are lines. -/
theorem Cut.isLines (h : Cut ls) : IsLines ls := by
  induction h with
  | nil => exact .nil
  | last hne hl => exact .last hne hl
  | cons hl hls ih => exact .cons hl isBreak_feed (fun h => absurd h (by decide)) ih

/-- Lines with their feeds may be put before others. -/
theorem IsLines.append_fed (h : ∀ l ∈ ls, IsFed l) (h' : IsLines ls') : IsLines (ls ++ ls') := by
  induction ls with
  | nil => exact h'
  | cons l ls ih =>
    obtain ⟨u, hu, rfl⟩ := h l List.mem_cons_self
    exact .cons hu isBreak_feed (fun h => absurd h (by decide))
      (ih fun l hl => h l (List.mem_cons_of_mem _ hl))

/-- **Other lines may follow a line feed.** -/
theorem IsLines.append (h : IsLines ls)
    (hlast : ls.flatten = [] ∨ ls.flatten.getLast? = some '\n') (h' : IsLines ls') :
    IsLines (ls ++ ls') := by
  induction h with
  | nil => exact h'
  | last hne hl =>
    rw [List.flatten_cons, List.flatten_nil, List.append_nil] at hlast
    rcases hlast with hnil | hlast
    · exact absurd hnil hne
    · exact absurd (hl '\n' (List.mem_of_getLast? hlast)) (by decide)
  | @cons u brk ls hu hbrk hnext hls ih =>
    have hbroken : u ++ brk ≠ [] := by
      rcases hbrk with rfl | ⟨c, -, rfl⟩ <;> simp
    rw [List.flatten_cons] at hlast
    have hend := hlast.resolve_left fun hnil => hbroken (List.append_eq_nil_iff.1 hnil).1
    rw [List.getLast?_append] at hend
    rw [List.cons_append]
    cases hrest : ls.flatten.getLast? with
    | none =>
      -- the line feed is the break of this line
      rw [hrest] at hend
      refine .cons hu hbrk (fun hcr => ?_) (ih (.inl (List.getLast?_eq_none_iff.1 hrest)))
      rw [hcr, List.getLast?_concat] at hend
      exact absurd hend (by decide)
    | some c =>
      rw [hrest] at hend
      refine .cons hu hbrk (fun hcr => ?_) (ih (.inr (hrest.trans hend)))
      -- the line behind this one begins as before
      cases hflat : ls.flatten with
      | nil =>
        rw [hflat] at hrest
        cases hrest
      | cons d rest =>
        rw [List.flatten_append, hflat]
        rw [hflat] at hnext
        exact hnext hcr

end LiterateEdit.Text
