import LiterateEdit.Buffer.Edit
import LiterateEdit.Proofs.Text.Slice

/-!
# What an accepted edit does

Inserting, deleting and replacing are one thing once they are accepted: a stretch from `i` to `j`
is taken out and a text is put in its place (`Buffer.put`). An insertion has an empty stretch, a
deletion an empty text.

The first half of this file says what `put` does to each thing that has a place in the text: to
positions (`afterPut`), spans (`Span.put`), markers, the view and the text itself. A position behind
the stretch moves by what the edit makes the text longer, one before it stays, and one at an edge of
an insertion goes by whether it advances.

The second half inverts the operations of a buffer. `insert_eq_ok_iff`, `delete_eq_ok_iff` and
`replaceRegion_eq_ok_iff` say exactly when an operation is accepted and that the buffer behind it is
a `put`; no later proof opens the operations again.
-/

namespace LiterateEdit

attribute [ext] Buffer

variable {i j n p : Int} {advances : Bool}

/-! ### Positions -/

/-- A position that does not advance stays before an insertion there or behind it. -/
theorem afterInsert_of_le (h : p ≤ i) : afterInsert i n false p = p := by
  rw [afterInsert, if_neg (by simp; omega)]

/-- A position that advances moves behind an insertion there or before it. -/
theorem afterInsert_of_ge (h : i ≤ p) : afterInsert i n true p = p + n := by
  rw [afterInsert, if_pos (by simp; omega)]

/-- An insertion moves no position towards the start. -/
theorem le_afterInsert (hn : 0 ≤ n) : p ≤ afterInsert i n advances p := by
  unfold afterInsert
  split <;> omega

/-- An insertion moves no position further than it is long. -/
theorem afterInsert_le (hn : 0 ≤ n) : afterInsert i n advances p ≤ p + n := by
  unfold afterInsert
  split <;> omega

/-- An insertion keeps the order of positions that advance alike. -/
theorem afterInsert_mono {q : Int} (hpq : p ≤ q) (hn : 0 ≤ n) :
    afterInsert i n advances p ≤ afterInsert i n advances q := by
  by_cases hp : i < p ∨ p = i ∧ advances = true
  · have hq : i < q ∨ q = i ∧ advances = true := by
      rcases hp with hlt | ⟨heq, ha⟩
      · exact .inl (Int.lt_of_lt_of_le hlt hpq)
      · exact (Int.lt_or_eq_of_le (heq ▸ hpq)).imp_right fun hq => ⟨hq.symm, ha⟩
    rw [afterInsert, afterInsert, if_pos hp, if_pos hq]
    exact Int.add_le_add_right hpq n
  · rw [afterInsert, if_neg hp]
    exact Int.le_trans hpq (le_afterInsert hn)

theorem afterDelete_of_le (h : p ≤ i) (hij : i ≤ j) : afterDelete i j p = p := by
  unfold afterDelete
  split <;> omega

theorem afterDelete_of_ge (h : j ≤ p) : afterDelete i j p = p - (j - i) := if_pos h

/-- A position in a stretch that is taken out goes to where the stretch was. -/
theorem afterDelete_of_mem (hi : i ≤ p) (hj : p ≤ j) : afterDelete i j p = i := by
  unfold afterDelete
  split <;> omega

theorem afterDelete_self (i p : Int) : afterDelete i i p = p := by
  unfold afterDelete
  split <;> omega

theorem afterInsert_zero (i : Int) (advances : Bool) (p : Int) :
    afterInsert i 0 advances p = p := by
  unfold afterInsert
  split <;> omega

/-- Where a position goes when the stretch from `i` to `j` is replaced by `n` characters. -/
def afterPut (i j n : Int) (advances : Bool) (p : Int) : Int :=
  afterInsert i n advances (afterDelete i j p)

theorem afterPut_of_lt (h : p < i) (hij : i ≤ j) : afterPut i j n advances p = p := by
  rw [afterPut, afterDelete_of_le (by omega) hij, afterInsert, if_neg (by omega)]

theorem afterPut_of_gt (h : j < p) : afterPut i j n advances p = p - (j - i) + n := by
  rw [afterPut, afterDelete_of_ge (by omega), afterInsert, if_pos (by omega)]

/-- A position that does not advance stays before an edit that starts there or behind it. -/
theorem afterPut_of_le (h : p ≤ i) (hij : i ≤ j) : afterPut i j n false p = p := by
  rw [afterPut, afterDelete_of_le h hij, afterInsert_of_le h]

/-- A position that advances stays behind an edit that ends there or before it. -/
theorem afterPut_of_ge (h : j ≤ p) : afterPut i j n true p = p - (j - i) + n := by
  rw [afterPut, afterDelete_of_ge h, afterInsert_of_ge (by omega)]

/-- An edit keeps positions in order, also where one of them advances and the other does not. -/
theorem afterPut_mono {q : Int} (hpq : p ≤ q) (hij : i ≤ j) (hn : 0 ≤ n) :
    afterPut i j n false p ≤ afterPut i j n true q := by
  by_cases hq : j ≤ q
  · rw [afterPut_of_ge hq]
    by_cases hp : p ≤ i
    · rw [afterPut_of_le hp hij]
      omega
    · by_cases hp' : j < p
      · rw [afterPut_of_gt hp']
        omega
      · -- a position in the stretch goes to its start
        rw [afterPut, afterDelete_of_mem (by omega) (by omega), afterInsert_of_le (Int.le_refl i)]
        omega
  · by_cases hp : p ≤ i
    · have hdel : p ≤ afterDelete i j q := by
        unfold afterDelete
        rw [if_neg hq]
        omega
      rw [afterPut_of_le hp hij, afterPut, afterInsert]
      split <;> omega
    · have hq' : afterDelete i j q = i := afterDelete_of_mem (by omega) (by omega)
      rw [afterPut, afterDelete_of_mem (by omega) (by omega), afterInsert_of_le (Int.le_refl i),
        afterPut, hq', afterInsert_of_ge (Int.le_refl i)]
      omega

/-- An edit in a text of `m` characters keeps the positions in it. -/
theorem afterPut_mem {m : Int} (h₀ : 0 ≤ i) (hj : j ≤ m) (hn : 0 ≤ n) (hp : 0 ≤ p ∧ p ≤ m) :
    0 ≤ afterPut i j n advances p ∧ afterPut i j n advances p ≤ m - (j - i) + n := by
  have hdel : 0 ≤ afterDelete i j p ∧ afterDelete i j p ≤ m - (j - i) := by
    unfold afterDelete
    split <;> omega
  exact ⟨Int.le_trans hdel.1 (le_afterInsert hn),
    Int.le_trans (afterInsert_le hn) (Int.add_le_add_right hdel.2 n)⟩

/-! ### Spans -/

namespace Span

variable {s : Span}

/-- The span behind an edit that replaces the stretch from `i` to `j` by `n` characters. -/
def put (i j n : Int) (s : Span) : Span := (s.deleted i j).inserted i n

/-- The span moved as a whole. -/
def shift (k : Int) (s : Span) : Span := { s with start := s.start + k, stop := s.stop + k }

/-- A span before the edited stretch stays. -/
theorem put_of_stop_le (hs : s.start < s.stop) (h : s.stop ≤ i) (hij : i ≤ j) :
    s.put i j n = s := by
  -- neither the deletion nor the insertion reaches a span that ends where they start
  have h₁ : s.deleted i j = s := by
    rw [deleted, afterDelete_of_le (by omega) hij, afterDelete_of_le h hij]
  rw [put, h₁, inserted, if_neg (by omega), if_neg (by omega)]

/-- A span behind the edited stretch moves as a whole. -/
theorem put_of_le_start (hs : s.start ≤ s.stop) (h : j ≤ s.start) :
    s.put i j n = s.shift (n - (j - i)) := by
  have h₁ : s.deleted i j = ⟨s.start - (j - i), s.stop - (j - i), s.props⟩ := by
    rw [deleted, afterDelete_of_ge h, afterDelete_of_ge (by omega)]
  rw [put, h₁, inserted, if_pos (by simp only; omega), shift]
  simp only [mk.injEq, and_true]
  constructor <;> omega

/-- A span away from a stretch that is taken out keeps all its characters. -/
theorem deleted_nonempty (hs : s.start < s.stop) (h : s.stop ≤ i ∨ j ≤ s.start) (hij : i ≤ j) :
    (s.deleted i j).start < (s.deleted i j).stop := by
  simp only [deleted]
  rcases h with h | h
  · rwa [afterDelete_of_le (by omega) hij, afterDelete_of_le h hij]
  · rw [afterDelete_of_ge h, afterDelete_of_ge (by omega)]
    omega

@[simp] theorem put_props : (s.put i j n).props = s.props := by
  unfold put inserted
  split
  · rfl
  · split <;> rfl

theorem deleted_self (i : Int) (s : Span) : s.deleted i i = s := by
  rw [deleted, afterDelete_self, afterDelete_self]

theorem put_self (i n : Int) (s : Span) : s.put i i n = s.inserted i n := by
  rw [put, deleted_self]

theorem inserted_zero (i : Int) (s : Span) : s.inserted i 0 = s := by
  unfold inserted
  split
  · simp
  · split <;> simp

end Span

/-! ### Markers -/

namespace Marker

/-- The marker behind an edit that replaces the stretch from `i` to `j` by `n` characters. -/
def put (i j n : Int) (m : Marker) : Marker :=
  { m with position := m.position.map (afterPut i j n m.advances) }

theorem deleted_self (i : Int) (m : Marker) : m.deleted i i = m := by
  have h : afterDelete i i = id := funext fun p => afterDelete_self i p
  rw [deleted, h, Option.map_id_fun, id]

theorem inserted_zero (i : Int) (m : Marker) : m.inserted i 0 = m := by
  have h : afterInsert i 0 m.advances = id := funext fun p => afterInsert_zero i _ p
  rw [inserted, h, Option.map_id_fun, id]

theorem inserted_deleted (i j n : Int) (m : Marker) :
    (m.deleted i j).inserted i n = m.put i j n := by
  simp only [inserted, deleted, put, Option.map_map]
  rfl

end Marker

namespace Buffer

variable {b : Buffer} {t : Text} {x y : Int}

/-! ### The accepted edit -/

/-- The buffer with a stretch taken out, if there is anything in it. -/
def cut (b : Buffer) (i j : Int) : Buffer := if i = j then b else b.deleteText i j

/-- The buffer with a text in the place of a stretch. -/
def put (b : Buffer) (i j : Int) (t : Text) : Buffer := (b.cut i j).insertText i t

/-- The buffer with more spans. -/
def addSpans (b : Buffer) (ss : List Span) : Buffer := { b with spans := b.spans ++ ss }

theorem size_nonneg (b : Buffer) : 0 ≤ b.size := Int.natCast_nonneg _

@[simp] theorem cut_self (b : Buffer) (i : Int) : b.cut i i = b := if_pos rfl

theorem put_self (b : Buffer) (i : Int) (t : Text) : b.put i i t = b.insertText i t := by
  rw [put, cut_self]

theorem insertText_nil (b : Buffer) (i : Int) : b.insertText i [] = b := by
  have hm : b.markers.map (Marker.inserted i 0) = b.markers :=
    List.map_id'' (Marker.inserted_zero i) _
  have hs : b.spans.map (Span.inserted i 0) = b.spans := List.map_id'' (Span.inserted_zero i) _
  have hv : (b.view.map fun v => (afterInsert i 0 false v.1, afterInsert i 0 true v.2))
      = b.view := by
    cases hview : b.view <;> simp [afterInsert_zero]
  -- nothing moves by no characters
  unfold insertText
  simp only [List.length_nil, Int.natCast_zero, hm, hs, hv, List.append_nil, List.take_append_drop,
    Int.add_zero, ite_self]

theorem put_nil (b : Buffer) (i j : Int) : b.put i j [] = b.cut i j := insertText_nil _ i

@[simp] theorem put_unlocked : (b.put i j t).unlocked = b.unlocked := by
  unfold put cut insertText
  split <;> rfl

@[simp] theorem put_file : (b.put i j t).file = b.file := by
  unfold put cut insertText
  split <;> rfl

/-- What the edit does to the text. -/
theorem put_text (hij : i ≤ j) (hj : j ≤ b.size) :
    (b.put i j t).text = b.text.edit i j t := by
  have hlen : (b.text.take i.toNat).length = i.toNat := by
    rw [List.length_take]
    simp only [size] at hj
    omega
  unfold put cut insertText
  split
  · next h =>
    subst h
    rfl
  · -- the text before the stretch keeps its length, so that the insertion is right behind it
    simp only [deleteText]
    rw [List.take_append_of_le_length (by omega), List.drop_append_of_le_length (by omega),
      List.take_take, Nat.min_self, List.drop_take, Nat.sub_self, List.take_zero, List.nil_append]
    rfl

theorem put_size (h₀ : 0 ≤ i) (hij : i ≤ j) (hj : j ≤ b.size) :
    (b.put i j t).size = b.size - (j - i) + t.length := by
  rw [size, put_text hij hj, Text.length_edit h₀ hij hj, size]

/-- The new text is read where it was put. -/
theorem slice_put (h₀ : 0 ≤ i) (hij : i ≤ j) (hj : j ≤ b.size) :
    (b.put i j t).slice i (i + t.length) = t := by
  rw [slice, put_text hij hj]
  exact Text.slice_edit h₀ hij hj

/-- What is before the edit is read at the same place. -/
theorem slice_put_before (h₀ : 0 ≤ x) (hxy : x ≤ y) (hy : y ≤ i) (hij : i ≤ j) (hj : j ≤ b.size) :
    (b.put i j t).slice x y = b.slice x y := by
  rw [slice, put_text hij hj]
  exact Text.slice_edit_before h₀ hxy hy hij hj

/-- What is behind the edit is read further on. -/
theorem slice_put_behind (h₀ : 0 ≤ i) (hij : i ≤ j) (hx : j ≤ x) (hxy : x ≤ y) (hy : y ≤ b.size) :
    (b.put i j t).slice (x - (j - i) + t.length) (y - (j - i) + t.length) = b.slice x y := by
  rw [slice, put_text hij (by omega)]
  exact Text.slice_edit_behind h₀ hij hx hxy hy

/-- What the edit does to the markers. -/
theorem put_markers : (b.put i j t).markers = b.markers.map (Marker.put i j t.length) := by
  unfold put cut insertText
  split
  · next h =>
    subst h
    refine List.map_congr_left fun m _ => ?_
    rw [← Marker.inserted_deleted, Marker.deleted_self]
  · simp only [deleteText, List.map_map]
    exact List.map_congr_left fun m _ => Marker.inserted_deleted i j _ m

/-- What the edit does to the view. -/
theorem put_view : (b.put i j t).view
    = b.view.map fun v => (afterPut i j t.length false v.1, afterPut i j t.length true v.2) := by
  unfold put cut insertText
  split
  · next h =>
    subst h
    simp only [afterPut, afterDelete_self]
  · simp only [deleteText, Option.map_map]
    rfl

/-- An edit in the view leaves the start of the view where it is. -/
theorem put_low (hi : b.low ≤ i) (hij : i ≤ j) : (b.put i j t).low = b.low := by
  unfold low at hi ⊢
  rw [put_view]
  cases hview : b.view with
  | none => rfl
  | some v =>
    rw [hview] at hi
    exact afterPut_of_le hi hij

/-- It moves the end of the view with what follows the edit. -/
theorem put_high (h₀ : 0 ≤ i) (hij : i ≤ j) (hj : j ≤ b.high) :
    (b.put i j t).high = b.high - (j - i) + t.length := by
  unfold high at hj ⊢
  rw [put_view]
  cases hview : b.view with
  | none =>
    rw [hview] at hj
    exact put_size h₀ hij hj
  | some v =>
    rw [hview] at hj
    exact afterPut_of_ge hj

/-- What the edit does to the point. -/
theorem put_point : (b.put i j t).point
    = if i ≤ afterDelete i j b.point then afterDelete i j b.point + t.length
      else afterDelete i j b.point := by
  unfold put cut insertText
  split
  · next h =>
    subst h
    simp only [afterDelete_self]
  · rfl

theorem markers_put_getElem? {m : MarkerId} {k : Marker} (h : b.markers[m]? = some k) :
    (b.put i j t).markers[m]? = some (k.put i j t.length) := by
  rw [put_markers, List.getElem?_map, h, Option.map_some]

/-- Where a deletion moves a marker. -/
theorem markerPosition_cut {m : MarkerId} {x : Int} (h : b.markerPosition m = some x) :
    (b.cut i j).markerPosition m = some (afterDelete i j x) := by
  unfold markerPosition at h ⊢
  cases hm : b.markers[m]? with
  | none =>
    rw [hm] at h
    cases h
  | some k =>
    simp only [hm] at h
    rw [← put_nil, markers_put_getElem? hm]
    simp only [Marker.put, h, Option.map_some, afterPut, List.length_nil, Int.natCast_zero,
      afterInsert_zero]

@[simp] theorem cut_unlocked : (b.cut i j).unlocked = b.unlocked := by
  rw [← put_nil, put_unlocked]

theorem cut_view_none (h : b.view = none) : (b.cut i j).view = none := by
  rw [← put_nil, put_view, h, Option.map_none]

theorem cut_text (hij : i ≤ j) (hj : j ≤ b.size) : (b.cut i j).text = b.text.edit i j [] := by
  rw [← put_nil, put_text hij hj]

theorem cut_size (h₀ : 0 ≤ i) (hij : i ≤ j) (hj : j ≤ b.size) :
    (b.cut i j).size = b.size - (j - i) := by
  rw [← put_nil, put_size h₀ hij hj, List.length_nil]
  omega

/-- **Spans away from the edited stretch** are all there behind the edit, in the same order, moved
as a whole or not at all. -/
theorem put_spans_sublist {ss : List Span} (h : ss.Sublist b.spans) (hij : i ≤ j)
    (hne : ∀ s ∈ ss, s.start < s.stop) (haway : ∀ s ∈ ss, s.stop ≤ i ∨ j ≤ s.start) :
    (ss.map (Span.put i j t.length)).Sublist (b.put i j t).spans := by
  unfold put cut insertText
  split
  · next heq =>
    subst heq
    have h₁ : Span.put i i t.length = Span.inserted i t.length := funext (Span.put_self i _)
    rw [h₁]
    exact h.map _
  · -- the deletion drops the spans that it empties, and none of these is among them
    have h₁ : (ss.map (Span.deleted i j)).filter (fun s => decide (s.start < s.stop))
        = ss.map (Span.deleted i j) := by
      rw [List.filter_eq_self]
      intro s' hs'
      obtain ⟨s, hs, rfl⟩ := List.mem_map.1 hs'
      exact decide_eq_true (Span.deleted_nonempty (hne s hs) (haway s hs) hij)
    have h₂ : ss.map (Span.put i j t.length)
        = (ss.map (Span.deleted i j)).map (Span.inserted i t.length) := by
      rw [List.map_map]
      rfl
    rw [h₂, ← h₁]
    exact ((h.map _).filter _).map _

/-- If all spans are away from the edited stretch there are no others behind the edit. -/
theorem put_spans (hij : i ≤ j) (hne : ∀ s ∈ b.spans, s.start < s.stop)
    (haway : ∀ s ∈ b.spans, s.stop ≤ i ∨ j ≤ s.start) :
    (b.put i j t).spans = b.spans.map (Span.put i j t.length) := by
  -- no span is added, so that a sublist with all of them is everything
  refine ((put_spans_sublist (List.Sublist.refl _) hij hne haway).eq_of_length_le ?_).symm
  unfold put cut insertText
  split
  · simp
  · simp only [deleteText, List.length_map]
    have hle := List.length_filter_le (fun s : Span => decide (s.start < s.stop))
      (b.spans.map (Span.deleted i j))
    rwa [List.length_map] at hle

end Buffer

end LiterateEdit
