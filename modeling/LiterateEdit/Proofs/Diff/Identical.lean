import LiterateEdit.Proofs.Diff.Script
import Mathlib.Data.List.Basic

/-!
# A text has no changes to itself

The diff of a text and itself is empty. This is no matter of course. Matching may miss stretches,
and a stretch that starts at one place of the old text and at another one of the new text would
leave lines that go and lines that come.

The lines that are not too common stand in runs (`run`). A stretch of them that ends at two places
is no longer than the run up to either place (`Bounded`), and the stretch from the start of a run to
its end is found at the same place of both texts. So of two stretches of the same length the one
that counts is at the same place (`OnDiagonal`): a stretch that ends at an earlier place of the new
text is no longer than the run up to there, which was found before, and one that ends at a later
place comes behind it in the same row. Made longer at its ends, the best stretch is the whole text
(`longest_self`), and the text is left as it is (`groups_self`).
-/

namespace LiterateEdit.Diff

variable {rows : List (List Nat)} {row : List (Nat × Nat)} {js : List Nat} {i j n : Nat}
  {lines : List Text} {m : Match} {e : Nat × Nat}

/-! ### The lengths of the stretches in a row -/

/-- The length of the stretch in a row that ends before a place of the new text. -/
def sizeAt (row : List (Nat × Nat)) (j : Nat) : Nat :=
  ((row.find? fun e => e.1 + 1 = j).map (·.2)).getD 0

theorem sizeAt_cons (e : Nat × Nat) (row : List (Nat × Nat)) (j : Nat) :
    sizeAt (e :: row) j = if e.1 + 1 = j then e.2 else sizeAt row j := by
  unfold sizeAt
  rw [List.find?_cons]
  by_cases h : e.1 + 1 = j <;> simp [h]

theorem sizeAt_le (h : ∀ e ∈ row, e.1 + 1 = j → e.2 ≤ n) : sizeAt row j ≤ n := by
  induction row with
  | nil => exact Nat.zero_le n
  | cons e row ih =>
    rw [sizeAt_cons]
    split
    · next hj => exact h e List.mem_cons_self hj
    · exact ih fun e' he' => h e' (List.mem_cons_of_mem e he')

/-- The entries of a row are for places one behind another. -/
abbrev Ascending (row : List (Nat × Nat)) : Prop := row.Pairwise fun e e' => e.1 < e'.1

theorem sizeAt_of_mem (hrow : Ascending row) (he : e ∈ row) : sizeAt row (e.1 + 1) = e.2 := by
  induction row with
  | nil => exact absurd he List.not_mem_nil
  | cons d row ih =>
    obtain ⟨hd, hrow⟩ := List.pairwise_cons.1 hrow
    rw [sizeAt_cons]
    rcases List.mem_cons.1 he with rfl | he
    · exact if_pos rfl
    · have hlt := hd e he
      rw [if_neg (by omega)]
      exact ih hrow he

/-- What is dropped from a row is not asked for again. -/
theorem sizeAt_dropWhile {j' : Nat} (h : j ≤ j') (row : List (Nat × Nat)) :
    sizeAt (row.dropWhile fun e => e.1 + 1 < j) j' = sizeAt row j' := by
  induction row with
  | nil => rfl
  | cons e row ih =>
    rw [List.dropWhile_cons]
    split
    · next he =>
      have hne : e.1 + 1 ≠ j' := by
        have := of_decide_eq_true he
        omega
      rw [ih, sizeAt_cons, if_neg hne]
    · rfl

/-- **What the next row is.** The stretch that ends at a place of the next line is one longer than
the one that ends before it. -/
theorem extendRow_eq (hrow : Ascending row) (hjs : js.Pairwise (· < ·)) :
    extendRow row js = js.map fun j => (j, sizeAt row j + 1) := by
  induction js generalizing row with
  | nil => rfl
  | cons j js ih =>
    obtain ⟨hj, hjs⟩ := List.pairwise_cons.1 hjs
    have hrow' : Ascending (row.dropWhile fun e => e.1 + 1 < j) :=
      hrow.sublist (List.dropWhile_sublist _)
    have htail : js.map (fun j' => (j', sizeAt (row.dropWhile fun e => e.1 + 1 < j) j' + 1)) =
        js.map fun j' => (j', sizeAt row j' + 1) := by
      refine List.map_congr_left fun j' hj' => ?_
      rw [sizeAt_dropWhile (Nat.le_of_lt (hj j' hj'))]
    unfold extendRow
    simp only
    rw [ih hrow' hjs, htail, List.map_cons, ← sizeAt_dropWhile (Nat.le_refl j) row]
    congr 2
    -- only the first entry that is left may be for the place before
    cases hdrop : row.dropWhile fun e => e.1 + 1 < j with
    | nil => rfl
    | cons e rest =>
      obtain ⟨p, k⟩ := e
      have hhead : ¬p + 1 < j := by
        have hnot := List.head?_dropWhile_not (fun e : Nat × Nat => decide (e.1 + 1 < j)) row
        rw [hdrop] at hnot
        exact of_decide_eq_false hnot
      rw [hdrop] at hrow'
      have hrest : sizeAt rest j ≤ 0 := sizeAt_le fun e he hej => by
        have hlt : p < e.1 := (List.pairwise_cons.1 hrow').1 e he
        omega
      rw [sizeAt_cons]
      show (if p + 1 = j then k + 1 else 1) = (if p + 1 = j then k else sizeAt rest j) + 1
      split
      · rfl
      · rw [Nat.le_zero.1 hrest]

/-! ### Runs -/

/-- How many lines in a row, up to the one before a place, are not too common: these are the lines
that have places. -/
def run (rows : List (List Nat)) : Nat → Nat
  | 0 => 0
  | i + 1 => if rows[i]?.getD [] = [] then 0 else run rows i + 1

/-- The places of the lines of a text in the text itself. -/
structure OwnPlaces (rows : List (List Nat)) : Prop where
  /-- They are in order. -/
  ascending : ∀ {i : Nat} {js : List Nat}, rows[i]? = some js → js.Pairwise (· < ·)
  /-- The same line has the same places. -/
  same : ∀ {i : Nat} {js : List Nat}, rows[i]? = some js → ∀ j ∈ js, rows[j]? = some js
  /-- A line that has places is at its own one. -/
  own : ∀ {i : Nat} {js : List Nat}, rows[i]? = some js → js ≠ [] → i ∈ js

theorem run_succ (h : rows[i]? = some js) (hne : js ≠ []) : run rows (i + 1) = run rows i + 1 := by
  rw [run, h]
  exact if_neg hne

/-- **What holds of each row.** No stretch is longer than the run up to the place where it ends, in
either text, and one of them is the run itself. -/
structure Bounded (rows : List (List Nat)) (i : Nat) (row : List (Nat × Nat)) : Prop where
  ascending : Ascending row
  old_le : ∀ e ∈ row, e.2 ≤ run rows i
  new_le : ∀ e ∈ row, e.2 ≤ run rows (e.1 + 1)
  own : run rows i ≠ 0 → ∃ p, p + 1 = i ∧ (p, run rows i) ∈ row

/-- **The step.** It holds of the next row. -/
theorem Bounded.extendRow (hplaces : OwnPlaces rows) (hrow : Bounded rows i row)
    (hjs : rows[i]? = some js) : Bounded rows (i + 1) (extendRow row js) := by
  have hascending := hplaces.ascending hjs
  have hsize : ∀ j, sizeAt row j ≤ run rows i := fun j =>
    sizeAt_le fun e he _ => hrow.old_le e he
  have hsize' : ∀ j, sizeAt row j ≤ run rows j := fun j =>
    sizeAt_le fun e he hej => hej ▸ hrow.new_le e he
  rw [extendRow_eq hrow.ascending hascending]
  refine ⟨?_, fun e he => ?_, fun e he => ?_, fun hrun => ?_⟩
  · exact List.pairwise_map.2 hascending
  · -- the line is one more in the run of the old text, and the same line in that of the new one
    obtain ⟨j, hj, rfl⟩ := List.mem_map.1 he
    rw [run_succ hjs (List.ne_nil_of_mem hj)]
    exact Nat.succ_le_succ (hsize j)
  · obtain ⟨j, hj, rfl⟩ := List.mem_map.1 he
    show _ ≤ run rows (j + 1)
    rw [run_succ (hplaces.same hjs j hj) (List.ne_nil_of_mem hj)]
    exact Nat.succ_le_succ (hsize' j)
  · have hne : js ≠ [] := by
      rintro rfl
      rw [run, hjs] at hrun
      exact hrun (if_pos rfl)
    refine ⟨i, rfl, List.mem_map.2 ⟨i, hplaces.own hjs hne, ?_⟩⟩
    -- the run up to the line before is the longest stretch that ends there
    have hlast : sizeAt row i = run rows i := by
      by_cases hzero : run rows i = 0
      · exact Nat.le_antisymm (hsize i) (by omega)
      · obtain ⟨p, rfl, hp⟩ := hrow.own hzero
        exact sizeAt_of_mem hrow.ascending hp
    rw [run_succ hjs hne, hlast]

/-- **What holds of the best stretch.** It is at the same place of both texts, and no run up to now
is longer. -/
structure OnDiagonal (rows : List (List Nat)) (i : Nat) (m : Match) : Prop where
  places : m.old = m.new
  le_size : ∀ t ≤ i, run rows t ≤ m.size

/-- Stretches that are no longer than the best one do not count. -/
theorem betterOf_of_le (h : ∀ e ∈ row, e.2 ≤ m.size) : betterOf i m row = m := by
  induction row with
  | nil => rfl
  | cons e row ih =>
    have hle := h e List.mem_cons_self
    show betterOf i (if m.size < e.2 then _ else m) row = m
    rw [if_neg (Nat.not_lt.2 hle)]
    exact ih fun e' he' => h e' (List.mem_cons_of_mem e he')

/-- It holds of a longer stretch as well, one row further on. -/
theorem OnDiagonal.next {m' : Match} (hm : OnDiagonal rows i m) (hplaces : m'.old = m'.new)
    (hsize : m.size ≤ m'.size) (hrun : run rows (i + 1) ≤ m'.size) :
    OnDiagonal rows (i + 1) m' := by
  refine ⟨hplaces, fun t ht => ?_⟩
  rcases Nat.le_succ_iff.1 ht with ht | rfl
  · exact Nat.le_trans (hm.le_size t ht) hsize
  · exact hrun

/-- **The step.** It holds of the best stretch behind the next row. -/
theorem OnDiagonal.betterOf (hrow : Bounded rows (i + 1) row) (hm : OnDiagonal rows i m) :
    OnDiagonal rows (i + 1) (betterOf i m row) := by
  -- either the run up to this line beats the best stretch, or nothing in the row does
  by_cases hlonger : m.size < run rows (i + 1)
  · obtain ⟨p, hp, hmem⟩ := hrow.own (Nat.ne_of_gt (Nat.zero_lt_of_lt hlonger))
    obtain rfl : p = i := Nat.succ.inj hp
    obtain ⟨before, behind, rfl⟩ := List.append_of_mem hmem
    -- before the run are stretches that end earlier in the new text, where a run was found already
    have hbefore : ∀ e ∈ before, e.2 ≤ m.size := fun e he => by
      have hlt : e.1 < p := (List.pairwise_append.1 hrow.ascending).2.2 e he _ List.mem_cons_self
      have hle := hrow.new_le e (List.mem_append_left _ he)
      exact Nat.le_trans hle (hm.le_size (e.1 + 1) hlt)
    -- behind it are stretches that end at this line, too, and are no longer
    have hbehind : ∀ e ∈ behind, e.2 ≤ run rows (p + 1) := fun e he =>
      hrow.old_le e (List.mem_append_right _ (List.mem_cons_of_mem _ he))
    let best : Match :=
      ⟨p + 1 - run rows (p + 1), p + 1 - run rows (p + 1), run rows (p + 1)⟩
    have hbest : Diff.betterOf p m (before ++ (p, run rows (p + 1)) :: behind) = best :=
      calc Diff.betterOf p m (before ++ (p, run rows (p + 1)) :: behind)
          = Diff.betterOf p (Diff.betterOf p m before) ((p, run rows (p + 1)) :: behind) :=
            List.foldl_append
        _ = Diff.betterOf p m ((p, run rows (p + 1)) :: behind) := by rw [betterOf_of_le hbefore]
        _ = Diff.betterOf p best behind :=
            congrArg (Diff.betterOf p · behind) (if_pos hlonger)
        _ = best := betterOf_of_le hbehind
    rw [hbest]
    exact hm.next rfl (Nat.le_of_lt hlonger) (Nat.le_refl _)
  · have hshorter := Nat.not_lt.1 hlonger
    rw [betterOf_of_le fun e he => Nat.le_trans (hrow.old_le e he) hshorter]
    exact hm.next hm.places (Nat.le_refl _) hshorter

/-- **The run.** The best stretch is at the same place of both texts. -/
theorem places_bestFrom {rest : List (List Nat)} (hplaces : OwnPlaces rows)
    (hrest : rows.drop i = rest) (hrow : Bounded rows i row) (hm : OnDiagonal rows i m) :
    (bestFrom i m row rest).old = (bestFrom i m row rest).new := by
  induction rest generalizing i row m with
  | nil => exact hm.places
  | cons js rest ih =>
    have hjs : rows[i]? = some js := by
      rw [← Nat.add_zero i, ← List.getElem?_drop, hrest]
      rfl
    have hrest' : rows.drop (i + 1) = rest := by
      rw [← List.drop_drop, hrest]
      rfl
    have hrow' := hrow.extendRow hplaces hjs
    exact ih hrest' hrow' (hm.betterOf hrow')

/-! ### The whole text -/

/-- The lines of a text have their places in it. -/
theorem ownPlaces_anchors (lines : List Text) : OwnPlaces (lines.map (anchors lines)) := by
  have hline : ∀ {i : Nat} {js : List Nat}, (lines.map (anchors lines))[i]? = some js →
      ∃ l, lines[i]? = some l ∧ anchors lines l = js := fun h => by
    rwa [List.getElem?_map, Option.map_eq_some_iff] at h
  refine ⟨fun h => ?_, fun h j hj => ?_, fun {i} _ h hne => ?_⟩
  · obtain ⟨l, -, rfl⟩ := hline h
    -- the places of a line are some of those of all lines
    rcases anchors_eq lines l with hnil | hall
    · rw [hnil]
      exact .nil
    · rw [hall]
      have hplaces : lines.zipIdx.map (·.2) = List.range' 0 lines.length :=
        List.zipIdx_map_snd 0 lines
      have hascending : (lines.zipIdx.map (·.2)).Pairwise (· < ·) := by
        rw [hplaces]
        exact List.pairwise_lt_range'
      exact hascending.sublist (List.filter_sublist.map _)
  · obtain ⟨l, -, rfl⟩ := hline h
    rw [List.getElem?_map, getElem?_of_mem_anchors hj]
    rfl
  · obtain ⟨l, hl, rfl⟩ := hline h
    rw [(anchors_eq lines l).resolve_left hne]
    refine List.mem_map.2 ⟨(l, i), List.mem_filter.2 ⟨?_, decide_eq_true rfl⟩, rfl⟩
    exact List.mem_zipIdx_iff_getElem?.2 hl

/-- All lines before a place are the same. -/
theorem sameBefore_self (lines : List Text) (h : n ≤ i) : sameBefore lines lines i i n = n := by
  induction n generalizing i with
  | zero => rfl
  | succ n ih =>
    rw [sameBefore, if_pos ⟨by omega, by omega, rfl⟩, ih (by omega)]

/-- All lines from a place on are the same. -/
theorem sameFrom_self (lines : List Text) (i n : Nat) : sameFrom lines lines i i n = n := by
  induction n generalizing i with
  | zero => rfl
  | succ n ih => rw [sameFrom, if_pos rfl, ih]

/-- A stretch at the same place of both texts is the whole text when it is made longer. -/
theorem widened_self (hhigh : m.old + m.size ≤ lines.length) (hplaces : m.old = m.new) :
    widened lines lines (whole lines lines) m = ⟨0, 0, lines.length⟩ := by
  obtain ⟨i, j, n⟩ := m
  obtain rfl : i = j := hplaces
  unfold widened whole
  simp only [Nat.sub_zero, Nat.min_self, sameBefore_self lines (Nat.le_refl i), sameFrom_self,
    Nat.sub_self]
  have hsize : i + n + (lines.length - (i + n)) = lines.length := Nat.add_sub_cancel' hhigh
  rw [hsize]

/-- Every line may be searched. -/
theorem rowsIn_whole (lines : List Text) :
    rowsIn (lines.map (anchors lines)) (whole lines lines) = lines.map (anchors lines) := by
  have hinside : ∀ js ∈ lines.map (anchors lines),
      js.filter (fun j => 0 ≤ j && j < lines.length) = js := fun js hjs => by
    obtain ⟨l, -, rfl⟩ := List.mem_map.1 hjs
    refine List.filter_eq_self.2 fun j hj => ?_
    obtain ⟨hlt, -⟩ := List.getElem?_eq_some_iff.1 (getElem?_of_mem_anchors hj)
    rw [decide_eq_true (Nat.zero_le j), decide_eq_true hlt]
    rfl
  show (((lines.map (anchors lines)).drop 0).take (lines.length - 0)).map
    (fun js => js.filter fun j => 0 ≤ j && j < lines.length) = lines.map (anchors lines)
  rw [List.drop_zero, Nat.sub_zero, List.take_of_length_le (Nat.le_of_eq (List.length_map _))]
  exact (List.map_congr_left hinside).trans (List.map_id' _)

/-- **The longest stretch that a text shares with itself is the text.** -/
theorem longest_self (lines : List Text) :
    longest lines lines (lines.map (anchors lines)) (whole lines lines) = ⟨0, 0, lines.length⟩ := by
  have hplaces : (bestFrom 0 ⟨0, 0, 0⟩ [] (lines.map (anchors lines))).old =
      (bestFrom 0 ⟨0, 0, 0⟩ [] (lines.map (anchors lines))).new :=
    places_bestFrom (ownPlaces_anchors lines) rfl
      ⟨.nil, fun e he => absurd he List.not_mem_nil, fun e he => absurd he List.not_mem_nil,
        fun hrun => absurd rfl hrun⟩
      ⟨rfl, fun t ht => by rw [Nat.le_zero.1 ht]; exact Nat.le_refl _⟩
  have hwithin := within_best (whole_on lines lines)
  rw [longest_eq]
  rw [rowsIn_whole] at hwithin ⊢
  change Match.Within lines lines (whole lines lines)
    (bestFrom 0 ⟨0, 0, 0⟩ [] (lines.map (anchors lines))) at hwithin
  change widened lines lines (whole lines lines)
    (bestFrom 0 ⟨0, 0, 0⟩ [] (lines.map (anchors lines))) = _
  generalize bestFrom 0 ⟨0, 0, 0⟩ [] (lines.map (anchors lines)) = m at hplaces hwithin ⊢
  exact widened_self hwithin.old_high hplaces

/-- The search goes on before the text and behind it, where nothing is left. -/
theorem matchesIn_self (hne : lines ≠ []) (fuel : Nat) :
    matchesIn lines lines (lines.map (anchors lines)) (fuel + 1) (whole lines lines) =
      [⟨0, 0, lines.length⟩] := by
  have hpos : 0 < lines.length := List.length_pos_iff.2 hne
  have hnothing : ∀ i,
      matchesIn lines lines (lines.map (anchors lines)) fuel ⟨i, i, i, i⟩ = [] := fun i => by
    cases fuel with
    | zero => rfl
    | succ fuel => exact if_neg fun h => Nat.lt_irrefl i h.1
  rw [matchesIn, if_pos ⟨hpos, hpos⟩, longest_self]
  simp only [if_neg (Nat.ne_of_gt hpos), Nat.zero_add]
  show matchesIn _ _ _ fuel ⟨0, 0, 0, 0⟩ ++ _ ++
    matchesIn _ _ _ fuel ⟨lines.length, lines.length, lines.length, lines.length⟩ = _
  rw [hnothing, hnothing]
  rfl

/-- No change but lines that stay. -/
theorem changes_self (hne : lines ≠ []) :
    changes lines lines = [⟨.equal, 0, lines.length, 0, lines.length⟩] := by
  have hshared : sharedStretches lines lines = [⟨0, 0, lines.length⟩] := by
    show joinMatches (matchesIn _ _ _ (lines.length + 1) (whole lines lines)) = _
    rw [matchesIn_self hne, joinMatches_singleton]
  rw [changes, hshared]
  show gap 0 0 0 0 ++ [⟨.equal, (0 : Nat), (0 : Nat) + lines.length, (0 : Nat),
    (0 : Nat) + lines.length⟩] ++ gap (0 + lines.length) (0 + lines.length) _ _ = _
  rw [Nat.zero_add, gap_self, gap_self, Int.natCast_zero, Int.zero_add]
  rfl

theorem changes_nil : changes [] [] = [] := by
  have hshared : sharedStretches [] [] = [] := joinMatches_nil
  rw [changes, hshared]
  rfl

/-- **A text has no groups of changes to itself.** -/
theorem groups_self {context : Int} (h : 0 ≤ context) (lines : List Text) :
    groups context lines lines = [] := by
  rw [groups_eq h]
  by_cases hne : lines = []
  · rw [hne, changes_nil]
    rfl
  · rw [changes_self hne]
    exact groupsFrom_trimEnds_singleton h rfl

end LiterateEdit.Diff
