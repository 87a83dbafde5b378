import LiterateEdit.Proofs.Buffer.Edit

/-!
# Laws of cutting

Two laws say how cuts get along with what was done before them:

* what has been put into a stretch goes with the stretch: cutting it afterwards, with what was put
  in, is cutting it before (`cut_insertText`). This holds of everything that has a place in the
  text, whether it advances or stays, because a cut brings all of the stretch to one place;
* two stretches that do not overlap may be cut in either order (`cut_cut`).

Both need spans that cover some characters. An empty span in the stretch is dropped by a cut unless
the stretch is empty, too, in which case the cut does nothing at all.

Markers are names in a table that only grows. `Buffer.upTo` forgets those from a name on, and every
edit does to the others what it would do without them.
-/

namespace LiterateEdit

variable {i i' j k n p x : Int} {advances : Bool}

/-! ### Positions -/

/-- What an insertion in a stretch does to a position is not seen behind a cut of the stretch. -/
theorem afterDelete_afterInsert (hi : i ≤ x) (hj : x ≤ j) (hn : 0 ≤ n) :
    afterDelete i (j + n) (afterInsert x n advances p) = afterDelete i j p := by
  unfold afterInsert
  by_cases hp : x < p ∨ p = x ∧ advances = true
  · have hx : x ≤ p := hp.elim Int.le_of_lt fun h => Int.le_of_eq h.1.symm
    rw [if_pos hp]
    unfold afterDelete
    split <;> split <;> omega
  · -- a position that stays is before the end of the stretch, or at it
    have hx : p ≤ x := by
      by_contra hlt
      exact hp (.inl (Int.not_le.1 hlt))
    rw [if_neg hp]
    unfold afterDelete
    split <;> split <;> omega

theorem afterDelete_afterDelete (hj : i' ≤ j) (hjk : j ≤ k) :
    afterDelete i i' (afterDelete j k p)
      = afterDelete (j - (i' - i)) (k - (i' - i)) (afterDelete i i' p) := by
  by_cases hk : k ≤ p
  · rw [afterDelete_of_ge hk, afterDelete_of_ge (p := p) (by omega), afterDelete_of_ge (by omega),
      afterDelete_of_ge (by omega)]
    omega
  by_cases hp : j ≤ p
  · rw [afterDelete_of_mem hp (by omega), afterDelete_of_ge hj,
      afterDelete_of_ge (p := p) (by omega), afterDelete_of_mem (by omega) (by omega)]
  · -- a position before both ends of the later stretch
    have hle : afterDelete i i' p ≤ j - (i' - i) := by
      unfold afterDelete
      split <;> omega
    rw [afterDelete_of_le (p := p) (by omega) hjk, afterDelete_of_le hle (by omega)]

/-- A cut keeps positions in order. -/
theorem afterDelete_mono {q : Int} (h : p ≤ q) :
    afterDelete i j p ≤ afterDelete i j q := by
  unfold afterDelete
  split <;> split <;> omega

/-! ### Spans and markers -/

theorem Span.deleted_inserted {s : Span} (hs : s.start ≤ s.stop) (hi : i ≤ x) (hj : x ≤ j)
    (hn : 0 ≤ n) : (s.inserted x n).deleted i (j + n) = s.deleted i j := by
  -- each end moves like a position, though not both ends alike
  have hends : ∃ a a', s.inserted x n
      = ⟨afterInsert x n a s.start, afterInsert x n a' s.stop, s.props⟩ := by
    unfold inserted
    by_cases hstart : x ≤ s.start
    · refine ⟨true, true, ?_⟩
      rw [if_pos hstart, afterInsert_of_ge hstart, afterInsert_of_ge (by omega)]
    by_cases hstop : x < s.stop
    · refine ⟨false, true, ?_⟩
      rw [if_neg hstart, if_pos hstop, afterInsert_of_le (by omega), afterInsert_of_ge (by omega)]
    · refine ⟨false, false, ?_⟩
      rw [if_neg hstart, if_neg hstop, afterInsert_of_le (by omega), afterInsert_of_le (by omega)]
  obtain ⟨a, a', heq⟩ := hends
  rw [heq, deleted, deleted]
  simp only [afterDelete_afterInsert hi hj hn]

theorem Span.deleted_deleted (s : Span) (hj : i' ≤ j) (hjk : j ≤ k) :
    (s.deleted j k).deleted i i'
      = (s.deleted i i').deleted (j - (i' - i)) (k - (i' - i)) := by
  simp only [deleted, afterDelete_afterDelete hj hjk]

/-- What a cut leaves of a span was not empty before the cut. -/
theorem Span.start_lt_stop_of_deleted {s : Span}
    (h : (s.deleted i j).start < (s.deleted i j).stop) : s.start < s.stop := by
  by_contra hle
  exact absurd (afterDelete_mono (Int.not_lt.1 hle)) (Int.not_le.2 h)

theorem Marker.deleted_inserted (m : Marker) (hi : i ≤ x) (hj : x ≤ j) (hn : 0 ≤ n) :
    (m.inserted x n).deleted i (j + n) = m.deleted i j := by
  have hpos : afterDelete i (j + n) ∘ afterInsert x n m.advances = afterDelete i j :=
    funext fun p => afterDelete_afterInsert hi hj hn
  simp only [inserted, deleted, Option.map_map, hpos]

theorem Marker.deleted_deleted (m : Marker) (hj : i' ≤ j) (hjk : j ≤ k) :
    (m.deleted j k).deleted i i'
      = (m.deleted i i').deleted (j - (i' - i)) (k - (i' - i)) := by
  have hpos : afterDelete i i' ∘ afterDelete j k
      = afterDelete (j - (i' - i)) (k - (i' - i)) ∘ afterDelete i i' :=
    funext fun p => afterDelete_afterDelete hj hjk
  simp only [deleted, Option.map_map, hpos]

/-- Dropping empty spans between two cuts makes no difference: no cut fills them again. -/
theorem filter_deleted_filter (ss : List Span) (i i' j k : Int) :
    (((ss.map (Span.deleted j k)).filter fun s => s.start < s.stop).map
        (Span.deleted i i')).filter (fun s => s.start < s.stop)
      = (ss.map fun s => (s.deleted j k).deleted i i').filter fun s => s.start < s.stop := by
  have hkept : ∀ s : Span, (decide ((s.deleted i i').start < (s.deleted i i').stop)
      && decide (s.start < s.stop)) = decide ((s.deleted i i').start < (s.deleted i i').stop) := by
    intro s
    rw [← Bool.decide_and, decide_eq_decide, and_iff_left_iff_imp]
    exact Span.start_lt_stop_of_deleted
  have htwice : (ss.map fun s => (s.deleted j k).deleted i i')
      = (ss.map (Span.deleted j k)).map (Span.deleted i i') := by
    rw [List.map_map]
    rfl
  rw [htwice]
  generalize ss.map (Span.deleted j k) = ss'
  rw [List.filter_map, List.filter_filter, List.filter_map]
  exact congrArg _ (List.filter_congr fun s _ => hkept s)

namespace Buffer

variable {b : Buffer} {t : Text} {ss : List Span}

/-- All spans cover some characters. -/
def SpansNonempty (b : Buffer) : Prop := ∀ s ∈ b.spans, s.start < s.stop

theorem SpansNonempty.insertText (h : b.SpansNonempty) (x : Int) (t : Text) :
    (b.insertText x t).SpansNonempty := by
  intro s' hs'
  obtain ⟨s, hs, rfl⟩ := List.mem_map.1 hs'
  have hlt := h s hs
  -- a span moves, is made longer by what is put into it, or stays
  unfold Span.inserted
  split
  · exact Int.add_lt_add_right hlt _
  split
  · change s.start < s.stop + t.length
    omega
  · exact hlt

theorem SpansNonempty.addSpans (h : b.SpansNonempty) (hss : ∀ s ∈ ss, s.start < s.stop) :
    (b.addSpans ss).SpansNonempty := fun s hs => (List.mem_append.1 hs).elim (h s) (hss s)

/-- A cut is a deletion, also where there is nothing to delete. -/
theorem cut_eq_deleteText (hne : b.SpansNonempty) (i j : Int) : b.cut i j = b.deleteText i j := by
  unfold cut
  split
  · next heq =>
    subst heq
    have hmarkers : b.markers.map (Marker.deleted i i) = b.markers :=
      List.map_id'' (Marker.deleted_self i) _
    have hspans : b.spans.map (Span.deleted i i) = b.spans := List.map_id'' (Span.deleted_self i) _
    have hkept : b.spans.filter (fun s => s.start < s.stop) = b.spans :=
      List.filter_eq_self.2 fun s hs => decide_eq_true (hne s hs)
    have hview : (b.view.map fun v => (v.1, v.2)) = b.view := Option.map_id'
    simp only [deleteText, List.take_append_drop, afterDelete_self, hmarkers, hspans, hkept, hview]
  · rfl

theorem SpansNonempty.cut (h : b.SpansNonempty) (i j : Int) : (b.cut i j).SpansNonempty := by
  rw [cut_eq_deleteText h]
  exact fun s hs => of_decide_eq_true (List.mem_filter.1 hs).2

/-- **What is put into a stretch goes with it**: a text, with spans that cover it. -/
theorem cut_insertText (hne : b.SpansNonempty) (h₀ : 0 ≤ i) (hi : i ≤ x) (hj : x ≤ j)
    (hx : x ≤ b.size)
    (hss : ∀ s ∈ ss, x ≤ s.start ∧ s.start < s.stop ∧ s.stop ≤ x + t.length) :
    ((b.insertText x t).addSpans ss).cut i (j + t.length) = b.cut i j := by
  have hlen : (0 : Int) ≤ t.length := Int.natCast_nonneg _
  have hne' : ((b.insertText x t).addSpans ss).SpansNonempty :=
    (hne.insertText x t).addSpans fun s hs => (hss s hs).2.1
  rw [cut_eq_deleteText hne', cut_eq_deleteText hne]
  apply Buffer.ext
  case text =>
    change (b.text.take x.toNat ++ t ++ b.text.drop x.toNat).take i.toNat
      ++ (b.text.take x.toNat ++ t ++ b.text.drop x.toNat).drop (j + t.length).toNat
      = b.text.take i.toNat ++ b.text.drop j.toNat
    have hfront : (b.text.take x.toNat).length = x.toNat := by
      rw [List.length_take]
      simp only [size] at hx
      omega
    -- the tail is counted from behind what was put in
    have htail : (j + t.length).toNat
        = (b.text.take x.toNat ++ t).length + (j.toNat - x.toNat) := by
      rw [List.length_append, hfront]
      omega
    have hdrop : x.toNat + (j.toNat - x.toNat) = j.toNat := by omega
    rw [htail, List.drop_length_add_append, List.drop_drop, hdrop, List.append_assoc,
      List.take_append_of_le_length (by omega), List.take_take, Nat.min_eq_left (by omega)]
  case point =>
    -- the point advances like a marker that does
    have hpoint : (b.insertText x t).point = afterInsert x t.length true b.point := by
      simp [insertText, afterInsert, Int.le_iff_lt_or_eq, eq_comm]
    change afterDelete i (j + t.length) (b.insertText x t).point = afterDelete i j b.point
    rw [hpoint, afterDelete_afterInsert hi hj hlen]
  case markers =>
    change (b.markers.map _).map _ = b.markers.map _
    rw [List.map_map]
    exact List.map_congr_left fun m _ => m.deleted_inserted hi hj hlen
  case spans =>
    change ((b.spans.map _ ++ ss).map _).filter _ = (b.spans.map _).filter _
    have hold : (b.spans.map (Span.inserted x t.length)).map (Span.deleted i (j + t.length))
        = b.spans.map (Span.deleted i j) := by
      rw [List.map_map]
      exact List.map_congr_left fun s hs =>
        Span.deleted_inserted (Int.le_of_lt (hne s hs)) hi hj hlen
    -- the new spans lie in the stretch and are emptied
    have hnew : (ss.map (Span.deleted i (j + t.length))).filter (fun s => s.start < s.stop)
        = [] := by
      refine List.filter_eq_nil_iff.2 fun s' hs' => ?_
      obtain ⟨s, hs, rfl⟩ := List.mem_map.1 hs'
      obtain ⟨hstart, hlt, hstop⟩ := hss s hs
      rw [decide_eq_true_iff, Span.deleted, afterDelete_of_mem (p := s.start) (by omega) (by omega),
        afterDelete_of_mem (by omega) (by omega)]
      exact Int.lt_irrefl i
    rw [List.map_append, List.filter_append, hold, hnew, List.append_nil]
  case view =>
    change (b.view.map _).map _ = b.view.map _
    rw [Option.map_map]
    refine Option.map_congr fun v _ => Prod.ext ?_ ?_
    · exact afterDelete_afterInsert hi hj hlen
    · exact afterDelete_afterInsert hi hj hlen
  case unlocked => rfl
  case file => rfl

/-- **Two stretches one behind the other** may be cut in either order. -/
theorem cut_cut (hne : b.SpansNonempty) (h₀ : 0 ≤ i) (hi : i ≤ i') (hj : i' ≤ j) (hjk : j ≤ k)
    (hk : k ≤ b.size) :
    (b.cut j k).cut i i' = (b.cut i i').cut (j - (i' - i)) (k - (i' - i)) := by
  rw [cut_eq_deleteText (hne.cut j k), cut_eq_deleteText (hne.cut i i'), cut_eq_deleteText hne,
    cut_eq_deleteText hne]
  apply Buffer.ext
  case text =>
    change (b.text.take j.toNat ++ b.text.drop k.toNat).take i.toNat
      ++ (b.text.take j.toNat ++ b.text.drop k.toNat).drop i'.toNat
      = (b.text.take i.toNat ++ b.text.drop i'.toNat).take (j - (i' - i)).toNat
      ++ (b.text.take i.toNat ++ b.text.drop i'.toNat).drop (k - (i' - i)).toNat
    have hsize : k.toNat ≤ b.text.length := by
      simp only [size] at hk
      omega
    have hfront : (b.text.take i.toNat).length = i.toNat := by
      rw [List.length_take]
      omega
    -- behind the first cut both ends of the other stretch are counted from its seam
    have hj' : (j - (i' - i)).toNat = (b.text.take i.toNat).length + (j.toNat - i'.toNat) := by
      omega
    have hk' : (k - (i' - i)).toNat = (b.text.take i.toNat).length + (k.toNat - i'.toNat) := by
      omega
    have hbehind : i'.toNat + (k.toNat - i'.toNat) = k.toNat := by omega
    have hlen : (b.text.take j.toNat).length = j.toNat := by
      rw [List.length_take]
      omega
    rw [hj', hk', List.take_length_add_append, List.drop_length_add_append, List.drop_drop, hbehind,
      List.take_append_of_le_length (by omega), List.drop_append_of_le_length (by omega),
      List.take_take, Nat.min_eq_left (by omega), List.drop_take, List.append_assoc]
  case point => exact afterDelete_afterDelete hj hjk
  case markers =>
    change (b.markers.map _).map _ = (b.markers.map _).map _
    rw [List.map_map, List.map_map]
    exact List.map_congr_left fun m _ => m.deleted_deleted hj hjk
  case spans =>
    change (List.map _ (List.filter _ (b.spans.map _))).filter _
      = (List.map _ (List.filter _ (b.spans.map _))).filter _
    -- what either first cut drops would not have survived the second one
    rw [filter_deleted_filter, filter_deleted_filter]
    simp only [Span.deleted_deleted _ hj hjk]
  case view =>
    change (b.view.map _).map _ = (b.view.map _).map _
    rw [Option.map_map, Option.map_map]
    refine Option.map_congr fun v _ => Prod.ext ?_ ?_
    · exact afterDelete_afterDelete hj hjk
    · exact afterDelete_afterDelete hj hjk
  case unlocked => rfl
  case file => rfl

end Buffer

end LiterateEdit
