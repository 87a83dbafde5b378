import LiterateEdit.Proofs.Script.Change

/-!
# What a buffer displays

The display cuts the view at the ends of spans and shows each piece in the face that its first
character has. That this is the face of all its characters is not checked anywhere. It holds because
a span that starts or stops between two characters of a piece would have cut the piece there
(`Buffer.firstFace_congr`), and this asks nothing of the spans: they may overlap, cover nothing, end
before they start, or lie outside the text.

`Buffer.Displays` says what a display is. Pieces stand one behind the other, none of them is empty,
and each has the face of all its positions. The cuts ascend from one end of the view to the other
and have all ends of spans in between (`Buffer.CutsFrom`), and `Buffer.CutsFrom.displays` goes along
them. The rest is read off `Displays`.

The view has to be a stretch of the text, which it is in every reachable state.
-/

namespace LiterateEdit

/-- Does the span have a face? An empty one does not count. -/
def Span.hasFace (s : Span) : Bool := s.props.face.any fun f => !f.isEmpty

/-- Between two positions a span neither starts nor stops, so that it covers both or none. -/
theorem Span.covers_congr {s : Span} {p x : Int} (hpx : p ≤ x)
    (hstart : ¬(p < s.start ∧ s.start ≤ x)) (hstop : ¬(p < s.stop ∧ s.stop ≤ x)) :
    s.covers x = s.covers p := by
  unfold covers
  rw [← Bool.decide_and, ← Bool.decide_and, decide_eq_decide]
  omega

namespace Buffer

variable {b : Buffer} {p q r x : Int} {ps rest : List Int} {ss : List (Text × Option Text)}

/-! ### Faces -/

/-- The face of the first span, in their order, that covers a position and has a face. -/
def firstFace (b : Buffer) (p : Int) : Option Text :=
  (b.spans.find? fun s => s.covers p && s.hasFace).bind fun s => s.props.face

theorem faceAt_eq_firstFace (b : Buffer) (p : Int) : b.faceAt p = b.firstFace p := by
  rw [faceAt, spansAt, List.find?_filterMap, List.find?_filter, firstFace]
  simp only [Bool.decide_and, Bool.decide_eq_true]
  rfl

/-- A position and one behind it have one face if no span starts or stops on the way. -/
theorem firstFace_congr (hpx : p ≤ x)
    (h : ∀ s ∈ b.spans, ¬(p < s.start ∧ s.start ≤ x) ∧ ¬(p < s.stop ∧ s.stop ≤ x)) :
    b.firstFace x = b.firstFace p := by
  have hcovers : ∀ s ∈ b.spans, s.covers x = s.covers p := fun s hs =>
    Span.covers_congr hpx (h s hs).1 (h s hs).2
  -- the search asks of a span nothing but this and whether it has a face
  unfold firstFace
  congr 1
  generalize b.spans = ss at hcovers
  induction ss with
  | nil => rfl
  | cons s rest ih =>
    rw [List.find?_cons, List.find?_cons, hcovers s List.mem_cons_self,
      ih fun s hs => hcovers s (List.mem_cons_of_mem _ hs)]

/-! ### Cuts -/

theorem mem_insertSorted : q ∈ insertSorted p ps ↔ q = p ∨ q ∈ ps := by
  induction ps with
  | nil => simp [insertSorted]
  | cons a ps ih =>
    unfold insertSorted
    split
    · exact List.mem_cons
    split
    · next heq =>
      subst heq
      simp
    · rw [List.mem_cons, ih, List.mem_cons]
      exact or_left_comm

theorem pairwise_insertSorted (h : ps.Pairwise (· < ·)) : (insertSorted p ps).Pairwise (· < ·) := by
  induction ps with
  | nil => exact List.pairwise_singleton _ p
  | cons a ps ih =>
    obtain ⟨hhead, htail⟩ := List.pairwise_cons.1 h
    unfold insertSorted
    split
    · next hlt =>
      refine List.pairwise_cons.2 ⟨fun q hq => ?_, h⟩
      rcases List.mem_cons.1 hq with rfl | hq
      · exact hlt
      · exact Int.lt_trans hlt (hhead q hq)
    split
    · exact h
    · next hnot hne =>
      refine List.pairwise_cons.2 ⟨fun q hq => ?_, ih htail⟩
      rcases mem_insertSorted.1 hq with rfl | hq
      · omega
      · exact hhead q hq

/-- Putting numbers into an ascending list one after another. -/
theorem foldl_insertSorted (xs : List Int) (h : ps.Pairwise (· < ·)) :
    (xs.foldl (fun ps p => insertSorted p ps) ps).Pairwise (· < ·) ∧
      ∀ q, q ∈ xs.foldl (fun ps p => insertSorted p ps) ps ↔ q ∈ xs ∨ q ∈ ps := by
  induction xs generalizing ps with
  | nil => exact ⟨h, fun q => by simp⟩
  | cons a xs ih =>
    obtain ⟨hsorted, hmem⟩ := ih (pairwise_insertSorted (p := a) h)
    refine ⟨hsorted, fun q => ?_⟩
    rw [List.foldl_cons, hmem, mem_insertSorted, List.mem_cons]
    exact or_left_comm.trans or_assoc.symm

theorem pairwise_cuts (b : Buffer) : b.cuts.Pairwise (· < ·) :=
  (foldl_insertSorted _ List.Pairwise.nil).1

theorem mem_cuts : q ∈ b.cuts ↔ q = b.low ∨ q = b.high ∨ q ∈ b.innerEnds := by
  rw [cuts, (foldl_insertSorted _ List.Pairwise.nil).2]
  simp

theorem mem_innerEnds :
    q ∈ b.innerEnds ↔ (∃ s ∈ b.spans, q = s.start ∨ q = s.stop) ∧ b.low < q ∧ q < b.high := by
  simp [innerEnds]

theorem mem_cuts_bounds (hle : b.low ≤ b.high) (hq : q ∈ b.cuts) : b.low ≤ q ∧ q ≤ b.high := by
  rcases mem_cuts.1 hq with rfl | rfl | hq
  · exact ⟨Int.le_refl _, hle⟩
  · exact ⟨hle, Int.le_refl _⟩
  · have hinner := (mem_innerEnds.1 hq).2
    exact ⟨Int.le_of_lt hinner.1, Int.le_of_lt hinner.2⟩

/-- **The cuts from `p` on**: they ascend up to the end of the view, and no end of a span between
`p` and there is missing. -/
structure CutsFrom (b : Buffer) (p : Int) (rest : List Int) : Prop where
  sorted : (p :: rest).Pairwise (· < ·)
  low_le : b.low ≤ p
  le_high : ∀ q ∈ p :: rest, q ≤ b.high
  high_mem : b.high ∈ p :: rest
  ends_mem : ∀ e ∈ b.innerEnds, p < e → e ∈ rest

/-- The cuts of a view start where it does. -/
theorem exists_cuts_eq (hle : b.low ≤ b.high) :
    ∃ rest, b.cuts = b.low :: rest ∧ b.CutsFrom b.low rest := by
  have hlow : b.low ∈ b.cuts := mem_cuts.2 (.inl rfl)
  cases hcuts : b.cuts with
  | nil =>
    rw [hcuts] at hlow
    cases hlow
  | cons p rest =>
    have hmem : ∀ q, q ∈ p :: rest ↔ q ∈ b.cuts := fun q => by rw [hcuts]
    have hsorted : (p :: rest).Pairwise (· < ·) := hcuts ▸ b.pairwise_cuts
    -- no cut is before the start of the view, which is one
    obtain rfl : b.low = p := by
      rcases List.mem_cons.1 ((hmem b.low).2 hlow) with heq | hlow
      · exact heq
      · have hlt := (List.pairwise_cons.1 hsorted).1 b.low hlow
        have hp := (mem_cuts_bounds hle ((hmem p).1 List.mem_cons_self)).1
        omega
    refine ⟨rest, rfl, hsorted, Int.le_refl _, fun q hq => ?_, ?_, fun e he hlt => ?_⟩
    · exact (mem_cuts_bounds hle ((hmem q).1 hq)).2
    · exact (hmem b.high).2 (mem_cuts.2 (.inr (.inl rfl)))
    · have hcut := (hmem e).2 (mem_cuts.2 (.inr (.inr he)))
      exact (List.mem_cons.1 hcut).resolve_left (Int.ne_of_gt hlt)

namespace CutsFrom

theorem lt (h : b.CutsFrom p (q :: rest)) : p < q :=
  (List.pairwise_cons.1 h.sorted).1 q List.mem_cons_self

theorem tail (h : b.CutsFrom p (q :: rest)) : b.CutsFrom q rest where
  sorted := (List.pairwise_cons.1 h.sorted).2
  low_le := Int.le_trans h.low_le (Int.le_of_lt h.lt)
  le_high e he := h.le_high e (List.mem_cons_of_mem p he)
  high_mem := by
    have hlt := h.lt
    have hq := h.le_high q (List.mem_cons_of_mem p List.mem_cons_self)
    rcases List.mem_cons.1 h.high_mem with heq | hmem
    · omega
    · exact hmem
  ends_mem e he hqe := by
    rcases List.mem_cons.1 (h.ends_mem e he (Int.lt_trans h.lt hqe)) with rfl | hmem
    · exact absurd hqe (Int.lt_irrefl _)
    · exact hmem

/-- No end of a span is before the next cut. -/
theorem le_end (h : b.CutsFrom p (q :: rest)) {e : Int} (he : e ∈ b.innerEnds) (hpe : p < e) :
    q ≤ e := by
  rcases List.mem_cons.1 (h.ends_mem e he hpe) with rfl | hmem
  · exact Int.le_refl _
  · exact Int.le_of_lt ((List.pairwise_cons.1 h.tail.sorted).1 e hmem)

/-- **Up to the next cut the face does not change.** -/
theorem firstFace_eq (h : b.CutsFrom p (q :: rest)) (hpx : p ≤ x) (hxq : x < q) :
    b.firstFace x = b.firstFace p := by
  have hlow := h.low_le
  have hhigh := h.le_high q (List.mem_cons_of_mem p List.mem_cons_self)
  -- an end of a span on the way would be a cut
  have hnone : ∀ s ∈ b.spans, ∀ e, e = s.start ∨ e = s.stop → ¬(p < e ∧ e ≤ x) := by
    rintro s hs e he ⟨hpe, hex⟩
    have hinner : e ∈ b.innerEnds := mem_innerEnds.2 ⟨⟨s, hs, he⟩, by omega, by omega⟩
    have hqe : q ≤ e := h.le_end hinner hpe
    omega
  exact firstFace_congr hpx fun s hs =>
    ⟨hnone s hs s.start (.inl rfl), hnone s hs s.stop (.inr rfl)⟩

end CutsFrom

/-! ### The display of a stretch -/

/-- **The display of the stretch from `p` to `r`**: pieces of the text one behind the other, none of
them empty, each in the face that all its positions have. -/
inductive Displays (b : Buffer) : Int → List (Text × Option Text) → Int → Prop
  /-- Nothing is displayed of an empty stretch. -/
  | nil (p : Int) : Displays b p [] p
  /-- A piece from `p` to `q` stands before the display of the rest. -/
  | cons {p q r : Int} {rest : List (Text × Option Text)} (hpq : p < q) {face : Option Text}
      (hface : ∀ x, p ≤ x → x < q → b.firstFace x = face) (h : Displays b q rest r) :
      Displays b p ((b.slice p q, face) :: rest) r

/-- **The pieces between cuts are a display**, by induction along the cuts. -/
theorem CutsFrom.displays (h : b.CutsFrom p rest) :
    b.Displays p (b.segmentsBetween (p :: rest)) b.high := by
  induction rest generalizing p with
  | nil =>
    rw [List.mem_singleton.1 h.high_mem]
    exact .nil p
  | cons q rest ih =>
    rw [segmentsBetween, faceAt_eq_firstFace]
    exact .cons h.lt (fun x => h.firstFace_eq) (ih h.tail)

/-- **What a buffer displays is a display of its view.** -/
theorem displays_segments (hle : b.low ≤ b.high) : b.Displays b.low b.segments b.high := by
  obtain ⟨rest, heq, hcuts⟩ := exists_cuts_eq hle
  rw [segments, heq]
  exact hcuts.displays

namespace Displays

theorem le (h : b.Displays p ss r) : p ≤ r := by
  induction h with
  | nil p => exact Int.le_refl p
  | cons hpq _ _ ih => exact Int.le_trans (Int.le_of_lt hpq) ih

/-- No piece is empty. -/
theorem ne_nil (h : b.Displays p ss r) (hp : 0 ≤ p) (hr : r ≤ b.size) : ∀ s ∈ ss, s.1 ≠ [] := by
  induction h with
  | nil p => exact nofun
  | @cons p q r rest hpq face hface hrest ih =>
    have hqr := hrest.le
    intro s hs
    rcases List.mem_cons.1 hs with rfl | hs
    · have hlen : ((b.slice p q).length : Int) = q - p :=
        Text.length_slice hp (Int.le_of_lt hpq) (Int.le_trans hqr hr)
      refine List.ne_nil_of_length_pos ?_
      show 0 < (b.slice p q).length
      omega
    · exact ih (by omega) hr s hs

/-- The pieces one behind the other are the text of the stretch. -/
theorem flatten (h : b.Displays p ss r) (hp : 0 ≤ p) (hr : r ≤ b.size) :
    (ss.map Prod.fst).flatten = b.slice p r := by
  induction h with
  | nil p => exact (Text.slice_self b.text p).symm
  | @cons p q r rest hpq face hface hrest ih =>
    rw [List.map_cons, List.flatten_cons, ih (by omega) hr]
    exact Text.slice_concat hp (Int.le_of_lt hpq) hrest.le hr

/-- **Each position is in a piece that has its face.** By induction along the pieces: a position
that the first one does not reach is in the display of the rest. -/
theorem exists_piece (h : b.Displays p ss r) (hp : 0 ≤ p) (hr : r ≤ b.size) (hpx : p ≤ x)
    (hxr : x < r) :
    ∃ before t after, ss = before ++ (t, b.firstFace x) :: after ∧
      p + (before.map Prod.fst).flatten.length ≤ x ∧
      x < p + (before.map Prod.fst).flatten.length + t.length := by
  induction h with
  | nil p => exact absurd hxr (Int.not_lt.2 hpx)
  | @cons p q r rest hpq face hface hrest ih =>
    have hlen : ((b.slice p q).length : Int) = q - p :=
      Text.length_slice hp (Int.le_of_lt hpq) (Int.le_trans hrest.le hr)
    by_cases hxq : x < q
    · -- the position is in the first piece
      refine ⟨[], b.slice p q, rest, by rw [List.nil_append, hface x hpx hxq], ?_, ?_⟩
      · simpa using hpx
      · simp only [List.map_nil, List.flatten_nil, List.length_nil]
        omega
    · obtain ⟨before, t, after, heq, hfrom, hto⟩ := ih (by omega) hr (Int.not_lt.1 hxq) hxr
      refine ⟨(b.slice p q, face) :: before, t, after, by rw [heq, List.cons_append], ?_, ?_⟩ <;>
        rw [List.map_cons, List.flatten_cons, List.length_append, Int.natCast_add, hlen] <;>
        omega

end Displays

end Buffer

namespace Desk

open Buffer

variable {d : Desk}

/-- **What is displayed covers the view.** In every state that scripts reach, whatever its spans
are, the pieces are not empty and are the visible text one behind the other, and each visible
position is in a piece that has the face of the first span that covers the position and has one, or
no face if there is no such span. -/
theorem segments_cover_view (hd : d.Reachable) :
    let b := d.buffer
    (∀ s ∈ b.segments, s.1 ≠ []) ∧
      (b.segments.map Prod.fst).flatten = b.visible ∧
      ∀ x, b.low ≤ x → x < b.high →
        ∃ before t after, b.segments = before ++ (t, b.firstFace x) :: after ∧
          b.low + (before.map Prod.fst).flatten.length ≤ x ∧
          x < b.low + (before.map Prod.fst).flatten.length + t.length := by
  intro b
  have hv : b.ViewInText := hd.viewInText
  have hshown : b.Displays b.low b.segments b.high := displays_segments hv.low_le_high
  exact ⟨hshown.ne_nil hv.low_nonneg hv.high_le_size,
    hshown.flatten hv.low_nonneg hv.high_le_size,
    fun x => hshown.exists_piece hv.low_nonneg hv.high_le_size⟩

/-- A view with spans that reach over its ends, lie in each other, cover nothing, end before they
start, are behind the text, and have an empty face. -/
theorem segments_cover_view_narrowed :
    let d := ((fresh (Text.lit "abcdefgh")).runAll false [
      .addSpan (.at 0) (.at 3) ⟨false, false, some (Text.lit "")⟩,
      .addSpan (.at 0) (.at 4) ⟨false, false, some (Text.lit "bold")⟩,
      .addSpan (.at 2) (.at 6) ⟨false, false, some (Text.lit "dim")⟩,
      .addSpan (.at 5) (.at 5) ⟨false, false, some (Text.lit "red")⟩,
      .addSpan (.at 6) (.at 3) ⟨false, false, some (Text.lit "red")⟩,
      .addSpan (.at 8) (.at 20) ⟨false, false, some (Text.lit "red")⟩,
      .narrow (.at 1) (.at 7)]).1
    let b := d.buffer
    (b.low = 1 ∧ b.high = 7) ∧
      b.segments = [(Text.lit "b", some (Text.lit "bold")), (Text.lit "c", some (Text.lit "bold")),
        (Text.lit "d", some (Text.lit "bold")), (Text.lit "e", some (Text.lit "dim")),
        (Text.lit "f", some (Text.lit "dim")), (Text.lit "g", none)] ∧
      (∀ s ∈ b.segments, s.1 ≠ []) ∧
      (b.segments.map Prod.fst).flatten = Text.lit "bcdefg" ∧
      ∃ before t after, b.segments = before ++ (t, some (Text.lit "dim")) :: after ∧
        (1 : Int) + (before.map Prod.fst).flatten.length ≤ 5 ∧
        (5 : Int) < 1 + (before.map Prod.fst).flatten.length + t.length := by
  intro d b
  have hd : d.Reachable := reachable_runAll _ false _ _
  have hlow : b.low = 1 := by decide +kernel
  have hhigh : b.high = 7 := by decide +kernel
  have hvisible : b.visible = Text.lit "bcdefg" := by decide +kernel
  have hface : b.firstFace 5 = some (Text.lit "dim") := by decide +kernel
  obtain ⟨hne, hflatten, hpiece⟩ := segments_cover_view hd
  have hfive := hpiece 5 (by decide +kernel) (by decide +kernel)
  rw [hface, hlow] at hfive
  exact ⟨⟨hlow, hhigh⟩, by decide +kernel, hne, hflatten.trans hvisible, hfive⟩

end Desk

end LiterateEdit
