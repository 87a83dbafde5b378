import LiterateEdit.Diff.Match
import Mathlib.Data.List.Basic

/-!
# Shared stretches are shared

Matching two sequences of lines may miss stretches that both have, since lines that are too common
start none. What it finds is always there, though. `Same` says that a stretch of the old lines is
one of the new lines. The search for the longest stretch keeps it: of the rows, each entry of which
ends a shared stretch (`EndsStretches`), of the best stretch so far, and of the extension over
common lines at both ends (`within_longest`).

The search goes on before the stretch and behind it, so the stretches that are found follow each
other in both sequences (`Chain`), and nothing of this changes when neighbours are joined
(`chain_sharedStretches`). This is all that the edit script needs to know about matching.
-/

namespace LiterateEdit.Diff

variable {old new : List Text} {i j n k : Nat} {w : Window} {m : Match} {ms : List Match}

/-! ### Stretches -/

/-- `n` lines from line `i` of the old text on are those from line `j` of the new text on. -/
structure Same (old new : List Text) (i j n : Nat) : Prop where
  old_le : i + n ≤ old.length
  new_le : j + n ≤ new.length
  eq : ∀ t < n, old[i + t]? = new[j + t]?

theorem Same.zero (hi : i ≤ old.length) (hj : j ≤ new.length) : Same old new i j 0 :=
  ⟨hi, hj, fun _ ht => absurd ht (Nat.not_lt_zero _)⟩

theorem Same.single (hi : i < old.length) (hj : j < new.length) (h : old[i]? = new[j]?) :
    Same old new i j 1 := by
  refine ⟨hi, hj, fun t ht => ?_⟩
  obtain rfl : t = 0 := by omega
  exact h

/-- One stretch behind another. -/
theorem Same.append (h : Same old new i j n) (h' : Same old new (i + n) (j + n) k) :
    Same old new i j (n + k) := by
  refine ⟨by have := h'.old_le; omega, by have := h'.new_le; omega, fun t ht => ?_⟩
  by_cases hn : t < n
  · exact h.eq t hn
  · have hrest := h'.eq (t - n) (by omega)
    rwa [show i + n + (t - n) = i + t by omega, show j + n + (t - n) = j + t by omega] at hrest

/-- A part of a stretch. -/
theorem Same.part (h : Same old new i j n) {a b : Nat} (hab : a + b ≤ n) :
    Same old new (i + a) (j + a) b := by
  refine ⟨by have := h.old_le; omega, by have := h.new_le; omega, fun t ht => ?_⟩
  rw [Nat.add_assoc, Nat.add_assoc]
  exact h.eq (a + t) (by omega)

/-- The lines of a stretch. -/
theorem Same.lines_eq (h : Same old new i j n) : (old.drop i).take n = (new.drop j).take n := by
  apply List.ext_getElem?
  intro t
  by_cases ht : t < n
  · rw [List.getElem?_take_of_lt ht, List.getElem?_take_of_lt ht, List.getElem?_drop,
      List.getElem?_drop, h.eq t ht]
  · rw [List.getElem?_take, List.getElem?_take, if_neg ht, if_neg ht]

/-- A stretch that both texts have in a window. -/
structure Match.Within (old new : List Text) (w : Window) (m : Match) : Prop where
  old_low : w.oldLow ≤ m.old
  new_low : w.newLow ≤ m.new
  old_high : m.old + m.size ≤ w.oldHigh
  new_high : m.new + m.size ≤ w.newHigh
  same : Same old new m.old m.new m.size

/-- A window on two texts. -/
structure Window.On (old new : List Text) (w : Window) : Prop where
  old_le : w.oldLow ≤ w.oldHigh
  new_le : w.newLow ≤ w.newHigh
  old_high : w.oldHigh ≤ old.length
  new_high : w.newHigh ≤ new.length

/-! ### Rows -/

/-- Each entry of a row ends a stretch in the window, whose last line is the one before line `i` of
the old text. -/
def EndsStretches (old new : List Text) (w : Window) (i : Nat) (row : List (Nat × Nat)) : Prop :=
  ∀ e ∈ row, ∃ m : Match, m.Within old new w ∧ m.size = e.2 ∧ m.old + m.size = i ∧
    m.new + m.size = e.1 + 1

/-- The lines of the new text at these places are line `i` of the old text, and in the window. -/
structure Places (old new : List Text) (w : Window) (i : Nat) (js : List Nat) : Prop where
  old_low : w.oldLow ≤ i
  old_high : i < w.oldHigh
  new_low : ∀ j ∈ js, w.newLow ≤ j
  new_high : ∀ j ∈ js, j < w.newHigh
  eq : ∀ j ∈ js, old[i]? = new[j]?

/-- A stretch and the line behind it. -/
theorem Match.Within.snoc (hm : m.Within old new w) (hold : m.old + m.size = i)
    (hnew : m.new + m.size = j) (hi : i < w.oldHigh) (hj : j < w.newHigh)
    (hline : Same old new i j 1) : Match.Within old new w ⟨m.old, m.new, m.size + 1⟩ := by
  subst hold hnew
  exact ⟨hm.old_low, hm.new_low, hi, hj, hm.same.append hline⟩

/-- **The step.** A stretch is extended by a line, or a new one is started. -/
theorem EndsStretches.extendRow {row : List (Nat × Nat)} {js : List Nat} (hw : w.On old new)
    (hrow : EndsStretches old new w i row) (hjs : Places old new w i js) :
    EndsStretches old new w (i + 1) (extendRow row js) := by
  -- the row gets shorter on the way: entries that no later place can follow are dropped
  induction js generalizing row with
  | nil => exact fun e he => absurd he List.not_mem_nil
  | cons j js ih =>
    have hjs' : Places old new w i js :=
      ⟨hjs.old_low, hjs.old_high, fun j' h => hjs.new_low j' (List.mem_cons_of_mem j h),
        fun j' h => hjs.new_high j' (List.mem_cons_of_mem j h),
        fun j' h => hjs.eq j' (List.mem_cons_of_mem j h)⟩
    have hlow := hjs.new_low j List.mem_cons_self
    have hhigh := hjs.new_high j List.mem_cons_self
    have hline : Same old new i j 1 :=
      Same.single (Nat.lt_of_lt_of_le hjs.old_high hw.old_high)
        (Nat.lt_of_lt_of_le hhigh hw.new_high) (hjs.eq j List.mem_cons_self)
    have hnew : (⟨i, j, 1⟩ : Match).Within old new w :=
      ⟨hjs.old_low, hlow, hjs.old_high, hhigh, hline⟩
    have hrow' : EndsStretches old new w i (row.dropWhile fun e => e.1 + 1 < j) :=
      fun e he => hrow e ((List.dropWhile_sublist _).subset he)
    unfold Diff.extendRow
    intro e he
    rcases List.mem_cons.1 he with rfl | he
    · -- the entry of `j` itself
      split
      · exact ⟨_, hnew, rfl, rfl, rfl⟩
      · next p k rest hhead =>
        split
        · next hp =>
          -- the stretch that ends one line before is there, and made longer
          obtain ⟨m, hm, rfl, hold, hnext⟩ := hrow' (p, k) (hhead ▸ List.mem_cons_self)
          have hnext : m.new + m.size = j := hnext.trans hp
          refine ⟨_, hm.snoc hold hnext hjs.old_high hhigh hline, rfl, ?_, ?_⟩
          · rw [← hold, Nat.add_assoc]
          · rw [← hnext, Nat.add_assoc]
        · exact ⟨_, hnew, rfl, rfl, rfl⟩
    · exact ih hrow' hjs' e he

theorem within_betterOf {row : List (Nat × Nat)} (hm : m.Within old new w)
    (hrow : EndsStretches old new w (i + 1) row) : (betterOf i m row).Within old new w := by
  induction row generalizing m with
  | nil => exact hm
  | cons e row ih =>
    refine ih ?_ fun e' he' => hrow e' (List.mem_cons_of_mem e he')
    show Match.Within old new w
      (if m.size < e.2 then ⟨i + 1 - e.2, e.1 + 1 - e.2, e.2⟩ else m)
    split
    · -- the entry says where its stretch ends and how long it is, and so where it starts
      obtain ⟨m', hm', hsize, hold, hnext⟩ := hrow e List.mem_cons_self
      rw [← hsize, show i + 1 - m'.size = m'.old by omega,
        show e.1 + 1 - m'.size = m'.new by omega]
      exact hm'
    · exact hm

/-- **The run.** The best stretch is shared. -/
theorem within_bestFrom {row : List (Nat × Nat)} {rows : List (List Nat)} (hw : w.On old new)
    (hm : m.Within old new w) (hrow : EndsStretches old new w i row)
    (hrows : ∀ t js, rows[t]? = some js → Places old new w (i + t) js) :
    (bestFrom i m row rows).Within old new w := by
  induction rows generalizing i m row with
  | nil => exact hm
  | cons js rows ih =>
    have hrow' := hrow.extendRow hw (hrows 0 js rfl)
    refine ih (within_betterOf hm hrow') hrow' fun t js' h => ?_
    rw [Nat.add_assoc, Nat.add_comm 1]
    exact hrows (t + 1) js' h

/-! ### The longest stretch -/

/-- Lines that are not too common are looked for at all their places. -/
theorem anchors_eq (new : List Text) (line : Text) :
    anchors new line = [] ∨
      anchors new line = (new.zipIdx.filter fun p => p.1 = line).map (·.2) := by
  unfold anchors
  simp only
  split
  · exact .inl rfl
  · exact .inr rfl

theorem getElem?_of_mem_anchors {line : Text} (h : j ∈ anchors new line) : new[j]? = some line := by
  rcases anchors_eq new line with hnil | hall
  · rw [hnil] at h
    exact absurd h List.not_mem_nil
  · rw [hall] at h
    obtain ⟨p, hp, rfl⟩ := List.mem_map.1 h
    obtain ⟨hmem, hline⟩ := List.mem_filter.1 hp
    rw [← of_decide_eq_true hline]
    exact List.mem_zipIdx_iff_getElem?.1 hmem

/-- The rows that the search goes through. -/
def rowsIn (places : List (List Nat)) (w : Window) : List (List Nat) :=
  ((places.drop w.oldLow).take (w.oldHigh - w.oldLow)).map fun js =>
    js.filter fun j => w.newLow ≤ j && j < w.newHigh

theorem places_rowsIn {t : Nat} {js : List Nat}
    (h : (rowsIn (old.map (anchors new)) w)[t]? = some js) :
    Places old new w (w.oldLow + t) js := by
  unfold rowsIn at h
  rw [List.getElem?_map, Option.map_eq_some_iff] at h
  obtain ⟨all, hall, rfl⟩ := h
  rw [List.getElem?_take] at hall
  split at hall
  · next ht =>
    rw [List.getElem?_drop, List.getElem?_map, Option.map_eq_some_iff] at hall
    obtain ⟨line, hline, rfl⟩ := hall
    refine ⟨Nat.le_add_right _ _, by omega, fun j hj => ?_, fun j hj => ?_, fun j hj => ?_⟩
    all_goals
      obtain ⟨hmem, hin⟩ := List.mem_filter.1 hj
      simp only [Bool.and_eq_true, decide_eq_true_eq] at hin
    · exact hin.1
    · exact hin.2
    · rw [hline, getElem?_of_mem_anchors hmem]
  · cases hall

/-- The lines that are counted before two places are there, and the same. -/
theorem sameBefore_spec (old new : List Text) (i j limit : Nat) (hi : i ≤ old.length)
    (hj : j ≤ new.length) :
    ∃ a b, sameBefore old new i j limit ≤ limit ∧ i = a + sameBefore old new i j limit ∧
      j = b + sameBefore old new i j limit ∧ Same old new a b (sameBefore old new i j limit) := by
  induction limit generalizing i j with
  | zero => exact ⟨i, j, Nat.le_refl 0, rfl, rfl, .zero hi hj⟩
  | succ limit ih =>
    unfold sameBefore
    split
    · next h =>
      obtain ⟨hi₀, hj₀, hline⟩ := h
      obtain ⟨a, b, hle, ha, hb, hsame⟩ := ih (i - 1) (j - 1) (by omega) (by omega)
      refine ⟨a, b, Nat.succ_le_succ hle, by omega, by omega, hsame.append ?_⟩
      rw [← ha, ← hb]
      exact .single (by omega) (by omega) hline
    · exact ⟨i, j, Nat.zero_le _, rfl, rfl, .zero hi hj⟩

/-- The lines that are counted from two places on are there, and the same. -/
theorem sameFrom_spec (old new : List Text) (i j limit : Nat) (hi : i + limit ≤ old.length)
    (hj : j + limit ≤ new.length) :
    sameFrom old new i j limit ≤ limit ∧ Same old new i j (sameFrom old new i j limit) := by
  induction limit generalizing i j with
  | zero => exact ⟨Nat.le_refl 0, .zero hi hj⟩
  | succ limit ih =>
    unfold sameFrom
    split
    · next hline =>
      obtain ⟨hle, hsame⟩ := ih (i + 1) (j + 1) (by omega) (by omega)
      refine ⟨Nat.succ_le_succ hle, ?_⟩
      rw [Nat.add_comm]
      exact (Same.single (by omega) (by omega) hline).append hsame
    · exact ⟨Nat.zero_le _, .zero (by omega) (by omega)⟩

/-- A stretch with the lines around it that are the same. -/
def widened (old new : List Text) (w : Window) (m : Match) : Match :=
  let before := sameBefore old new m.old m.new (min (m.old - w.oldLow) (m.new - w.newLow))
  let i := m.old + m.size
  let j := m.new + m.size
  let behind := sameFrom old new i j (min (w.oldHigh - i) (w.newHigh - j))
  ⟨m.old - before, m.new - before, before + m.size + behind⟩

/-- The longest stretch is the best one, made longer at its ends. -/
theorem longest_eq (old new : List Text) (places : List (List Nat)) (w : Window) :
    longest old new places w =
      widened old new w (bestFrom w.oldLow ⟨w.oldLow, w.newLow, 0⟩ [] (rowsIn places w)) := rfl

/-- A shared stretch stays one when it is made longer. -/
theorem Match.Within.widened (hw : w.On old new) (hm : m.Within old new w) :
    (widened old new w m).Within old new w := by
  have hold := hw.old_high
  have hnew := hw.new_high
  have hlow := hm.old_low
  have hlow' := hm.new_low
  have hhigh := hm.old_high
  have hhigh' := hm.new_high
  obtain ⟨a, b, hbefore, ha, hb, hfront⟩ := sameBefore_spec old new m.old m.new
    (min (m.old - w.oldLow) (m.new - w.newLow)) (by omega) (by omega)
  obtain ⟨hbehind, hback⟩ := sameFrom_spec old new (m.old + m.size) (m.new + m.size)
    (min (w.oldHigh - (m.old + m.size)) (w.newHigh - (m.new + m.size))) (by omega) (by omega)
  unfold Diff.widened
  simp only
  generalize sameBefore old new m.old m.new _ = before at *
  generalize sameFrom old new _ _ _ = behind at *
  -- the three parts of the longer stretch meet
  have hfront' : Same old new a b (before + m.size) := by
    apply hfront.append
    rw [← ha, ← hb]
    exact hm.same
  have hall : Same old new a b (before + m.size + behind) := by
    apply hfront'.append
    rwa [← Nat.add_assoc, ← Nat.add_assoc, ← ha, ← hb]
  obtain rfl : a = m.old - before := by omega
  obtain rfl : b = m.new - before := by omega
  exact ⟨by show w.oldLow ≤ m.old - before; omega, by show w.newLow ≤ m.new - before; omega,
    by show m.old - before + (before + m.size + behind) ≤ w.oldHigh; omega,
    by show m.new - before + (before + m.size + behind) ≤ w.newHigh; omega, hall⟩

/-- The best stretch of a window is shared. -/
theorem within_best (hw : w.On old new) :
    (bestFrom w.oldLow ⟨w.oldLow, w.newLow, 0⟩ [] (rowsIn (old.map (anchors new)) w)).Within
      old new w := by
  refine within_bestFrom hw ?_ (fun e he => absurd he List.not_mem_nil) fun t js => places_rowsIn
  exact ⟨Nat.le_refl _, Nat.le_refl _, hw.old_le, hw.new_le,
    .zero (Nat.le_trans hw.old_le hw.old_high) (Nat.le_trans hw.new_le hw.new_high)⟩

/-- **The longest stretch is shared.** -/
theorem within_longest (hw : w.On old new) :
    (longest old new (old.map (anchors new)) w).Within old new w := by
  rw [longest_eq]
  exact (within_best hw).widened hw

/-! ### Chains of stretches -/

/-- Shared stretches that follow each other in both parts of a window. -/
inductive Chain (old new : List Text) (i' j' : Nat) : Nat → Nat → List Match → Prop where
  | nil {i j : Nat} (hi : i ≤ i') (hj : j ≤ j') : Chain old new i' j' i j []
  | cons {i j : Nat} {m : Match} {ms : List Match} (hi : i ≤ m.old) (hj : j ≤ m.new)
      (hpos : 0 < m.size) (hm : Same old new m.old m.new m.size)
      (hms : Chain old new i' j' (m.old + m.size) (m.new + m.size) ms) :
      Chain old new i' j' i j (m :: ms)

/-- Stretches behind a chain that ends where they start or before. -/
theorem Chain.append {i' j' i'' j'' : Nat} {ms' : List Match} (h : Chain old new i' j' i j ms)
    (h' : Chain old new i'' j'' i' j' ms') : Chain old new i'' j'' i j (ms ++ ms') := by
  induction h with
  | nil hi hj =>
    cases h' with
    | nil hi' hj' => exact .nil (Nat.le_trans hi hi') (Nat.le_trans hj hj')
    | cons hi' hj' hpos hm hms =>
      exact .cons (Nat.le_trans hi hi') (Nat.le_trans hj hj') hpos hm hms
  | cons hi hj hpos hm hms ih => exact .cons hi hj hpos hm ih

/-- The stretches in a window follow each other in it. -/
theorem chain_matchesIn (fuel : Nat) (hw : w.On old new) :
    Chain old new w.oldHigh w.newHigh w.oldLow w.newLow
      (matchesIn old new (old.map (anchors new)) fuel w) := by
  -- a search that stops early finds less, but still a chain
  induction fuel generalizing w with
  | zero => exact .nil hw.old_le hw.new_le
  | succ fuel ih =>
    unfold matchesIn
    split
    · have hm := within_longest hw
      simp only
      generalize longest old new (old.map (anchors new)) w = m at hm ⊢
      split
      · exact .nil hw.old_le hw.new_le
      · next hne =>
        have hold := Nat.le_trans (Nat.le_add_right m.old m.size) hm.old_high
        have hnew := Nat.le_trans (Nat.le_add_right m.new m.size) hm.new_high
        -- the windows before the stretch and behind it
        have hfront := ih (w := ⟨w.oldLow, m.old, w.newLow, m.new⟩)
          ⟨hm.old_low, hm.new_low, Nat.le_trans hold hw.old_high, Nat.le_trans hnew hw.new_high⟩
        have hback := ih (w := ⟨m.old + m.size, w.oldHigh, m.new + m.size, w.newHigh⟩)
          ⟨hm.old_high, hm.new_high, hw.old_high, hw.new_high⟩
        rw [List.append_assoc]
        exact hfront.append
          (.cons (Nat.le_refl _) (Nat.le_refl _) (Nat.pos_of_ne_zero hne) hm.same hback)
    · exact .nil hw.old_le hw.new_le

theorem joinMatches_nil : joinMatches [] = [] := by simp [joinMatches]

theorem joinMatches_singleton (m : Match) : joinMatches [m] = [m] := by simp [joinMatches]

/-- Neighbours may be made one stretch. -/
theorem Chain.joinMatches {i' j' : Nat} (h : Chain old new i' j' i j ms) :
    Chain old new i' j' i j (joinMatches ms) := by
  fun_induction Diff.joinMatches ms generalizing i j with
  | case1 m n rest hmeet ih =>
    cases h with
    | cons hi hj hpos hm hms =>
      cases hms with
      | cons _ _ hpos' hm' hrest =>
        -- the two meet in both texts, so they are one stretch
        refine ih (.cons hi hj (Nat.add_pos_left hpos _) ?_ ?_)
        · apply hm.append
          rwa [hmeet.1, hmeet.2]
        · show Chain old new i' j' (m.old + (m.size + n.size)) (m.new + (m.size + n.size)) rest
          rwa [← Nat.add_assoc, ← Nat.add_assoc, hmeet.1, hmeet.2]
  | case2 m n rest hmeet ih =>
    cases h with
    | cons hi hj hpos hm hms => exact .cons hi hj hpos hm (ih hms)
  | case3 ms => exact h

/-- All of both texts. -/
def whole (old new : List Text) : Window := ⟨0, old.length, 0, new.length⟩

theorem whole_on (old new : List Text) : (whole old new).On old new :=
  ⟨Nat.zero_le _, Nat.zero_le _, Nat.le_refl _, Nat.le_refl _⟩

/-- **The stretches that two texts share are shared** and follow each other in both. -/
theorem chain_sharedStretches (old new : List Text) :
    Chain old new old.length new.length 0 0 (sharedStretches old new) := by
  apply Chain.joinMatches
  exact chain_matchesIn (old.length + 1) (whole_on old new)

end LiterateEdit.Diff
