import LiterateEdit.Proofs.Markdown.Line

/-!
# Taking an indentation off

What a line holds is read off its text: the gaps that lead it are the longest run of spaces and tabs
(`Line.body_ofText`), and an indentation of spaces that is put before a text is just what is taken
off again (`outdentText_spaces`). Nothing but gaps is ever taken off, so lines of text are still cut
alike afterwards (`cut_outdentText`).
-/

namespace LiterateEdit.Markdown

open LiterateEdit.Text

variable {k n : Nat} {t u l : Text} {ls : List Text}

/-! ### What leads a line -/

theorem lead_length (s w : Nat) (t : Text) : (lead s w t).1 = (t.takeWhile isGap).length := by
  induction t generalizing w with
  | nil => rfl
  | cons c t ih =>
    rw [lead, List.takeWhile_cons]
    cases isGap c with
    | false => rfl
    | true => exact congrArg (· + 1) (ih _)

theorem Line.body_ofText (k : Nat) (b : Bool) (t : Text) :
    (Line.ofText k b t).body = t.dropWhile isGap := by
  change t.drop (lead 0 0 t).1 = _
  rw [lead_length]
  calc t.drop (t.takeWhile isGap).length
      = (t.takeWhile isGap ++ t.dropWhile isGap).drop (t.takeWhile isGap).length := by
        rw [List.takeWhile_append_dropWhile]
    _ = t.dropWhile isGap := List.drop_left

theorem Line.isEmpty_ofText (k : Nat) (b : Bool) (t : Text) :
    (Line.ofText k b t).isEmpty = t.all isGap := by
  rw [Line.isEmpty, Line.body_ofText]
  induction t with
  | nil => rfl
  | cons c t ih =>
    rw [List.dropWhile_cons, List.all_cons]
    cases isGap c with
    | false => rfl
    | true => exact ih

/-- Spaces are as wide as they are many. -/
theorem lead_spaces (s w n : Nat) (t : Text) :
    lead s w (List.replicate n ' ' ++ t) = ((lead s (w + n) t).1 + n, (lead s (w + n) t).2) := by
  induction n generalizing w with
  | zero => rfl
  | succ n ih =>
    have hstep : lead s w (' ' :: (List.replicate n ' ' ++ t)) =
        ((lead s (w + 1) (List.replicate n ' ' ++ t)).1 + 1,
          (lead s (w + 1) (List.replicate n ' ' ++ t)).2) := rfl
    rw [List.replicate_succ, List.cons_append, hstep, ih, Nat.add_right_comm w 1 n]
    rfl

theorem lead_of_not_isGap {c : Char} (s w : Nat) (hc : isGap c = false) (t : Text) :
    lead s w (c :: t) = (0, w) := by
  rw [lead, hc]
  rfl

theorem le_lead_width (s w : Nat) (t : Text) : w ≤ (lead s w t).2 := by
  induction t generalizing w with
  | nil => exact Nat.le_refl w
  | cons c t ih =>
    rw [lead]
    split
    · refine Nat.le_trans ?_ (ih (advance s w c))
      unfold advance
      split <;> omega
    · exact Nat.le_refl w

/-! ### Taking an indentation off -/

theorem Line.dropColumns_of_le (column mask : Nat) {n w : Nat} (h : n ≤ w) (t : Text) :
    Line.dropColumns column n mask w t = List.replicate (w - n) ' ' ++ t := by
  cases t with
  | nil => rw [Line.dropColumns, List.append_nil]
  | cons c t => rw [Line.dropColumns, if_neg fun hlt => Nat.not_lt.2 h hlt.1]

/-- As many spaces as columns are to go are taken off, and nothing else. -/
theorem Line.dropColumns_spaces (column mask w n : Nat) (t : Text) :
    Line.dropColumns column (w + n) mask w (List.replicate n ' ' ++ t) = t := by
  induction n generalizing mask w with
  | zero =>
    rw [Line.dropColumns_of_le _ _ (Nat.le_of_eq (Nat.add_zero w)), Nat.add_zero, Nat.sub_self]
    rfl
  | succ n ih =>
    rw [List.replicate_succ, List.cons_append, Line.dropColumns,
      if_pos ⟨by omega, .inl rfl⟩, if_neg (by decide)]
    have hnext := ih (mask - 1) (w + 1)
    rwa [Nat.add_right_comm w 1 n] at hnext

/-- What is left of a text are spaces and the end of it. Behind the mask only gaps are taken off. -/
theorem Line.exists_dropColumns_suffix (column n mask w : Nat) (t : Text) :
    ∃ added rest, Line.dropColumns column n mask w t = List.replicate added ' ' ++ rest ∧
      rest <:+ t ∧
      ((∀ c, (t.drop mask).head? = some c → isGap c = false) → t.drop mask <:+ rest) := by
  induction t generalizing mask w with
  | nil =>
    refine ⟨w - n, [], ?_, List.suffix_rfl, fun _ => ?_⟩
    · rw [Line.dropColumns, List.append_nil]
    · simp only [List.drop_nil, List.suffix_rfl]
  | cons c t ih =>
    by_cases hstep : w < n ∧ (isGap c = true ∨ 0 < mask)
    · obtain ⟨added, rest, hdrop, hrest, hbehind⟩ :=
        ih (mask - 1) (if c = '\t' then advance column w c else w + 1)
      refine ⟨added, rest, ?_, hrest.trans (List.suffix_cons c t), fun hhead => ?_⟩
      · rw [Line.dropColumns, if_pos hstep, hdrop]
      · cases mask with
        | zero =>
          -- the first character is taken off and is a gap
          have hgap := hstep.2.resolve_right (Nat.lt_irrefl 0)
          rw [hhead c rfl] at hgap
          cases hgap
        | succ mask => exact hbehind hhead
    · refine ⟨w - n, c :: t, ?_, List.suffix_rfl, fun _ => List.drop_suffix mask _⟩
      rw [Line.dropColumns, if_neg hstep]

/-- **What is taken off is a gap** as long as the mask covers gaps only, and this stays so. -/
theorem isGap_of_masked {c : Char} {mask : Nat} (h : mask ≤ ((c :: t).takeWhile isGap).length)
    (hoff : isGap c = true ∨ 0 < mask) :
    isGap c = true ∧ mask - 1 ≤ (t.takeWhile isGap).length := by
  have hc : isGap c = true := by
    refine hoff.elim id fun hmask => ?_
    rw [List.takeWhile_cons] at h
    split at h
    · assumption
    · exact absurd (Nat.lt_of_lt_of_le hmask h) (Nat.lt_irrefl 0)
  rw [List.takeWhile_cons, if_pos hc, List.length_cons] at h
  exact ⟨hc, by omega⟩

/-- What is taken off a line are gaps that lead it, and spaces may come in for a tab: if only spaces
are taken off, there are not more of them than columns to go. -/
theorem Line.exists_dropColumns (column n : Nat) {mask : Nat} (w : Nat)
    (h : mask ≤ (t.takeWhile isGap).length) :
    ∃ gaps rest added, t = gaps ++ rest ∧ (∀ c ∈ gaps, isGap c = true) ∧
      Line.dropColumns column n mask w t = List.replicate added ' ' ++ rest ∧
      ((∀ c ∈ gaps, c = ' ') → added = w + gaps.length - n ∧ (gaps ≠ [] → w + gaps.length ≤ n)) ∧
      (gaps = [] → n ≤ w ∨ ∀ c u, t = c :: u → isGap c = false) := by
  induction t generalizing mask w with
  | nil =>
    refine ⟨[], [], w - n, rfl, fun c hc => absurd hc List.not_mem_nil, ?_,
      fun _ => ⟨rfl, fun h => absurd rfl h⟩, fun _ => .inr fun c u h => by cases h⟩
    rw [Line.dropColumns, List.append_nil]
  | cons c t ih =>
    by_cases hstep : w < n ∧ (isGap c = true ∨ 0 < mask)
    -- the character is taken off, and goes before the gaps of the rest
    · obtain ⟨hc, hmask⟩ := isGap_of_masked h hstep.2
      obtain ⟨gaps, rest, added, rfl, hgaps, hdrop, hadded, -⟩ :=
        ih (if c = '\t' then advance column w c else w + 1) hmask
      refine ⟨c :: gaps, rest, added, rfl, ?_, ?_, ?_, fun h => absurd h (List.cons_ne_nil c gaps)⟩
      · intro d hd
        rcases List.mem_cons.1 hd with rfl | hd
        · exact hc
        · exact hgaps d hd
      · rw [Line.dropColumns, if_pos hstep, hdrop]
      · -- a space is one column wide, so one column less is to go
        intro hspaces
        have hspace : c = ' ' := hspaces c List.mem_cons_self
        obtain ⟨hadd, hle⟩ := hadded fun d hd => hspaces d (List.mem_cons_of_mem c hd)
        rw [hspace, if_neg (by decide)] at hadd hle
        rw [List.length_cons]
        refine ⟨by omega, fun _ => ?_⟩
        cases gaps with
        | nil => exact hstep.1
        | cons d gaps =>
          have := hle (List.cons_ne_nil d gaps)
          omega
    -- nothing is taken off, because enough columns are gone or the character is no gap
    · refine ⟨[], c :: t, w - n, rfl, fun d hd => absurd hd List.not_mem_nil, ?_,
        fun _ => ⟨rfl, fun h => absurd rfl h⟩, fun _ => ?_⟩
      · rw [Line.dropColumns, if_neg hstep]
      · by_cases hw : w < n
        · right
          rintro d u ⟨⟩
          exact Bool.eq_false_iff.2 fun hc => hstep ⟨hw, .inl hc⟩
        · exact .inl (Nat.le_of_not_lt hw)

/-! ### The text of a line less an indentation -/

/-- The text of a line less an indentation of `n` columns. -/
def outdentText (n : Nat) (t : Text) : Text := (Line.ofCut 0 t).outdented n

theorem Line.outdented_ofCut (k n : Nat) (t : Text) :
    (Line.ofCut k t).outdented n = outdentText n t := by
  unfold outdentText Line.ofCut
  split <;> rfl

theorem outdentText_feed (n : Nat) (u : Text) :
    outdentText n (u ++ ['\n']) = Line.dropColumns 0 n (lead 0 0 u).1 0 u ++ ['\n'] := by
  rw [outdentText, Line.ofCut_feed]
  rfl

/-- An indentation of spaces is taken off as it was put before a text. -/
theorem outdentText_spaces (n : Nat) (u : Text) :
    outdentText n (List.replicate n ' ' ++ (u ++ ['\n'])) = u ++ ['\n'] := by
  have hdrop := Line.dropColumns_spaces 0 (lead 0 0 (List.replicate n ' ' ++ u)).1 0 n u
  rw [Nat.zero_add] at hdrop
  rw [← List.append_assoc, outdentText_feed, hdrop]

theorem outdentText_unbroken (n : Nat) (h : Unbroken l) :
    outdentText n l = Line.dropColumns 0 n (lead 0 0 l).1 0 l := by
  rw [outdentText, Line.ofCut_unbroken h]
  exact List.append_nil _

theorem exists_outdented (n : Nat) (t : Text) :
    ∃ gaps rest added, t = gaps ++ rest ∧ (∀ c ∈ gaps, isGap c = true) ∧
      Line.dropColumns 0 n (lead 0 0 t).1 0 t = List.replicate added ' ' ++ rest ∧
      ((∀ c ∈ gaps, c = ' ') → added = 0 + gaps.length - n ∧ (gaps ≠ [] → 0 + gaps.length ≤ n)) ∧
      (gaps = [] → n ≤ 0 ∨ ∀ c u, t = c :: u → isGap c = false) :=
  Line.exists_dropColumns 0 n 0 (Nat.le_of_eq (lead_length 0 0 t))

private theorem unbroken_dropColumns (n : Nat) (h : Unbroken t) :
    Unbroken (Line.dropColumns 0 n (lead 0 0 t).1 0 t) := by
  obtain ⟨gaps, rest, added, rfl, -, hdrop, -⟩ := exists_outdented n t
  rw [hdrop]
  intro c hc
  rcases List.mem_append.1 hc with hc | hc
  · rw [List.eq_of_mem_replicate hc]
    decide
  · exact h c (List.mem_append_right gaps hc)

theorem isFed_outdentText (n : Nat) (h : IsFed t) : IsFed (outdentText n t) := by
  obtain ⟨u, hu, rfl⟩ := h
  rw [outdentText_feed]
  exact ⟨_, unbroken_dropColumns n hu, rfl⟩

/-- Nothing but gaps is taken off. -/
private theorem dropColumns_ne_nil (n : Nat) (h : t.all isGap = false) :
    Line.dropColumns 0 n (lead 0 0 t).1 0 t ≠ [] := by
  intro hnil
  obtain ⟨gaps, rest, added, rfl, hgaps, hdrop, -⟩ := exists_outdented n t
  rw [hdrop] at hnil
  rw [(List.append_eq_nil_iff.1 hnil).2, List.append_nil, List.all_eq_true.2 hgaps] at h
  cases h

/-- Something is left of a line that has a line feed or holds anything but gaps. -/
theorem Line.outdented_ofText_ne_nil (k n : Nat) {b : Bool} (h : b = true ∨ t.all isGap = false) :
    (Line.ofText k b t).outdented n ≠ [] := by
  rcases h with rfl | h
  · exact List.append_ne_nil_of_right_ne_nil _ (List.cons_ne_nil _ _)
  · exact List.append_ne_nil_of_left_ne_nil (dropColumns_ne_nil n h) _

theorem outdentText_ne_nil (n : Nat) (h : t.all isGap = false) : outdentText n t ≠ [] := by
  unfold outdentText Line.ofCut
  split
  · exact Line.outdented_ofText_ne_nil 0 n (.inl rfl)
  · exact Line.outdented_ofText_ne_nil 0 n (.inr h)

/-- Lines of text are still cut alike when an indentation is taken off. -/
theorem cut_outdentText (n : Nat) (h : Cut ls) (hgap : ∀ l ∈ ls, l.all isGap = false) :
    Cut (ls.map (outdentText n)) := by
  induction h with
  | nil => exact .nil
  | @last l hne hl =>
    rw [List.map_cons, List.map_nil, outdentText_unbroken n hl]
    exact .last (dropColumns_ne_nil n (hgap l List.mem_cons_self)) (unbroken_dropColumns n hl)
  | cons hl _ ih =>
    rw [List.map_cons, outdentText_feed]
    exact .cons (unbroken_dropColumns n hl) (ih fun l hl => hgap l (List.mem_cons_of_mem _ hl))

theorem mem_outdentText {n : Nat} {c : Char} (h : c ∈ outdentText n t) : c = ' ' ∨ c ∈ t := by
  have hmem (u : Text) (hc : c ∈ Line.dropColumns 0 n (lead 0 0 u).1 0 u) : c = ' ' ∨ c ∈ u := by
    obtain ⟨gaps, rest, added, rfl, -, hdrop, -⟩ := exists_outdented n u
    rw [hdrop] at hc
    exact (List.mem_append.1 hc).imp List.eq_of_mem_replicate (List.mem_append_right gaps)
  by_cases hlast : t.getLast? = some '\n'
  · obtain ⟨u, rfl⟩ := List.getLast?_eq_some_iff.1 hlast
    rw [outdentText_feed] at h
    rcases List.mem_append.1 h with h | h
    · exact (hmem u h).imp_right (List.mem_append_left _)
    · exact .inr (List.mem_append_right _ h)
  · rw [outdentText, Line.ofCut, if_neg hlast] at h
    rcases List.mem_append.1 h with h | h
    · exact hmem t h
    · exact absurd h List.not_mem_nil

/-- To take an indentation off changes nothing only if there is none to take. -/
private theorem dropColumns_eq_self_iff (n : Nat) (t : Text) :
    Line.dropColumns 0 n (lead 0 0 t).1 0 t = t ↔ n = 0 ∨ ∀ c u, t = c :: u → isGap c = false := by
  constructor
  · intro heq
    obtain ⟨gaps, rest, added, ht, -, hdrop, hspaces, hnone⟩ := exists_outdented n t
    have hgaps : gaps = List.replicate added ' ' :=
      List.append_cancel_right (ht.symm.trans (heq.symm.trans hdrop))
    obtain ⟨hadded, hle⟩ := hspaces fun c hc => List.eq_of_mem_replicate (hgaps ▸ hc)
    by_cases hnil : gaps = []
    · exact (hnone hnil).imp_left Nat.le_zero.1
    · have hle := hle hnil
      -- as many spaces came in as were taken off, but none were left to come in
      have hlength := congrArg List.length hgaps
      rw [List.length_replicate] at hlength
      exact absurd (List.length_eq_zero_iff.1 (by omega)) hnil
  · rintro (rfl | hhead)
    · rw [Line.dropColumns_of_le _ _ (Nat.le_refl 0)]
      rfl
    · cases t with
      | nil =>
        rw [Line.dropColumns, Nat.zero_sub]
        rfl
      | cons c u =>
        have hc := hhead c u rfl
        rw [lead_of_not_isGap 0 0 hc, Line.dropColumns, hc, if_neg (by simp), Nat.zero_sub]
        rfl

/-- A line that is ended by a line feed stays as it is if no indentation is taken off. -/
theorem outdentText_eq_self_iff (n : Nat) (h : IsFed t) :
    outdentText n t = t ↔ n = 0 ∨ t.head?.all (!isGap ·) = true := by
  obtain ⟨u, -, rfl⟩ := h
  rw [outdentText_feed, List.append_left_inj, dropColumns_eq_self_iff]
  refine or_congr_right ?_
  cases u with
  | nil => exact iff_of_true (fun c v h => by cases h) rfl
  | cons d v =>
    constructor
    · intro h
      change (!isGap d) = true
      rw [h d v rfl]
      rfl
    · rintro h c u ⟨⟩
      exact Bool.not_eq_true' _ ▸ h

theorem outdentText_zero (u : Text) : outdentText 0 (u ++ ['\n']) = u ++ ['\n'] := by
  rw [outdentText_feed, Line.dropColumns_of_le _ _ (Nat.le_refl 0)]
  rfl

theorem map_outdented_numbered (k n : Nat) (hgap : ∀ l ∈ ls, l.all isGap = false) :
    (numbered k ls).map (Line.outdented n) = ls.map (outdentText n) := by
  induction ls generalizing k with
  | nil => rfl
  | cons l ls ih =>
    rw [numbered_cons k (hgap l List.mem_cons_self), List.map_cons, List.map_cons,
      Line.outdented_ofCut, ih (k + 1) fun l hl => hgap l (List.mem_cons_of_mem _ hl)]

/-- Lines without an indentation to take off are the text that they are written as. -/
theorem flatten_outdented_zero (k : Nat) (h : ∀ l ∈ ls, IsFed l) :
    ((numbered k ls).map (Line.outdented 0)).flatten = ls.flatten := by
  have hself : ls.map (outdentText 0) = ls.map id := by
    refine List.map_congr_left fun l hl => ?_
    obtain ⟨u, -, rfl⟩ := h l hl
    exact outdentText_zero u
  rw [map_outdented_numbered k 0 fun l hl => not_all_isGap_of_isFed (h l hl), hself, List.map_id]

/-- A line of spaces and then something else is as wide as the spaces are many. -/
theorem Line.ofCut_spaces (k n : Nat) {c : Char} {u : Text} (hc : isGap c = false)
    (hfeed : c ≠ '\n') :
    (Line.ofCut k (List.replicate n ' ' ++ c :: u)).indent = n ∧
      ∃ v, (Line.ofCut k (List.replicate n ' ' ++ c :: u)).body = c :: v ∧ ∀ d ∈ v, d ∈ u := by
  have hline (b : Bool) (v : Text) : (Line.ofText k b (List.replicate n ' ' ++ c :: v)).indent = n ∧
      (Line.ofText k b (List.replicate n ' ' ++ c :: v)).body = c :: v := by
    constructor
    · change ((lead 0 0 (List.replicate n ' ' ++ c :: v)).2 : Int) = n
      rw [lead_spaces, lead_of_not_isGap _ _ hc, Nat.zero_add]
    · rw [Line.body_ofText, List.dropWhile_append_of_pos, List.dropWhile_cons, hc]
      · rfl
      · intro d hd
        rw [List.eq_of_mem_replicate hd]
        rfl
  unfold Line.ofCut
  split
  · next hlast =>
    have hne : u ≠ [] := by
      rintro rfl
      rw [List.getLast?_append] at hlast
      exact hfeed (Option.some.inj hlast)
    have hdrop : (List.replicate n ' ' ++ c :: u).dropLast =
        List.replicate n ' ' ++ c :: u.dropLast := by
      rw [List.dropLast_append_of_ne_nil (List.cons_ne_nil c u), List.dropLast_cons_of_ne_nil hne]
    rw [hdrop]
    exact ⟨(hline true _).1, _, (hline true _).2, fun d hd => List.dropLast_subset _ hd⟩
  · exact ⟨(hline false _).1, _, (hline false _).2, fun d hd => hd⟩

end LiterateEdit.Markdown
