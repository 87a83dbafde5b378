import LiterateEdit.Proofs.Buffer.Change

/-!
# Well-formed buffers

A buffer is well formed if everything that has a place in its text has it there: the view is a
stretch of the text, the point is in the view, the markers that are attached are in the text, and
every span covers some characters of it (`Buffer.WellFormed`).

Every operation keeps this, whatever it is asked for and whether it is refused or not, with one
exception: a host may give properties to any two numbers, so that `addSpan` keeps it only for a
stretch of the text. There is one lemma for each kind of change, and one for each operation on top
of them. An edit is the case that matters (`WellFormed.put`). It moves the ends of the view, the
point and the markers by different rules, and what keeps the point between the ends of the view is
that the start of the view does not advance and its end does.

That the markers are in the text asks for nothing but the view (`Leads.markersInText`), so that it
also holds of a buffer in which a host has given properties to whatever it liked.
-/

namespace LiterateEdit

/-! ### Spans in the text -/

/-- The span covers some characters of a text of `n` characters. -/
structure Span.InText (n : Int) (s : Span) : Prop where
  start_nonneg : 0 ≤ s.start
  start_lt_stop : s.start < s.stop
  stop_le : s.stop ≤ n

namespace Span.InText

variable {s : Span} {i j k n : Int}

/-- A deletion in the text leaves what it does not empty in the text. -/
theorem deleted (h : s.InText n) (h₀ : 0 ≤ i) (hj : j ≤ n)
    (hne : (s.deleted i j).start < (s.deleted i j).stop) :
    (s.deleted i j).InText (n - (j - i)) := by
  have hstart : 0 ≤ afterDelete i j s.start := by
    have hpos := h.start_nonneg
    unfold afterDelete
    split <;> omega
  have hstop : afterDelete i j s.stop ≤ n - (j - i) := by
    have hle := h.stop_le
    unfold afterDelete
    split <;> omega
  exact ⟨hstart, hne, hstop⟩

/-- An insertion moves the span as a whole, makes it longer, or leaves it. -/
theorem inserted (h : s.InText n) (hk : 0 ≤ k) : (s.inserted i k).InText (n + k) := by
  obtain ⟨hpos, hlt, hle⟩ := h
  unfold Span.inserted
  by_cases hstart : i ≤ s.start
  · rw [if_pos hstart]
    constructor <;> simp only <;> omega
  rw [if_neg hstart]
  by_cases hstop : i < s.stop
  · rw [if_pos hstop]
    constructor <;> simp only <;> omega
  · rw [if_neg hstop]
    constructor <;> omega

end Span.InText

/-! ### Markers in the text -/

/-- The marker is in a text of `n` characters, if it is attached. -/
def Marker.InText (n : Int) (k : Marker) : Prop := ∀ x, k.position = some x → 0 ≤ x ∧ x ≤ n

theorem Marker.inText_of_detached (n : Int) {k : Marker} (h : k.position = none) : k.InText n := by
  intro x hx
  rw [h] at hx
  cases hx

/-- An edit in the text moves the marker in the text. -/
theorem Marker.InText.put {m i j n : Int} {k : Marker} (h : k.InText m) (h₀ : 0 ≤ i) (hj : j ≤ m)
    (hn : 0 ≤ n) : (k.put i j n).InText (m - (j - i) + n) := by
  intro x hx
  obtain ⟨y, hy, rfl⟩ := Option.map_eq_some_iff.1 hx
  exact afterPut_mem h₀ hj hn (h y hy)

/-! ### Well-formed buffers -/

namespace Buffer

variable {b b' : Buffer} {i j x y : Int} {p q : Pos} {t : Text} {s : Span} {ss : List Span}

/-- All spans cover characters of the text. -/
def SpansInText (b : Buffer) : Prop := ∀ s ∈ b.spans, s.InText b.size

/-- **An edit in the text** leaves spans that cover characters. -/
theorem SpansInText.put (h : b.SpansInText) (h₀ : 0 ≤ i) (hij : i ≤ j) (hj : j ≤ b.size) :
    (b.put i j t).SpansInText := by
  intro s hs
  have hcut : ∀ s ∈ (b.cut i j).spans, s.InText (b.size - (j - i)) := by
    intro s hs
    unfold cut at hs
    split at hs
    · next heq =>
      have hsize : b.size - (j - i) = b.size := by omega
      rw [hsize]
      exact h s hs
    · obtain ⟨hs, hne⟩ := List.mem_filter.1 hs
      obtain ⟨s', hs', rfl⟩ := List.mem_map.1 hs
      exact (h s' hs').deleted h₀ hj (of_decide_eq_true hne)
  obtain ⟨s', hs', rfl⟩ := List.mem_map.1 (show s ∈ (b.cut i j).spans.map _ from hs)
  rw [put_size h₀ hij hj]
  exact (hcut s' hs').inserted (Int.natCast_nonneg _)

theorem SpansInText.addSpans (h : b.SpansInText) (hss : ∀ s ∈ ss, s.InText b.size) :
    (b.addSpans ss).SpansInText := by
  intro s hs
  rcases List.mem_append.1 hs with hs | hs
  · exact h s hs
  · exact hss s hs

/-- All attached markers are in the text. -/
def MarkersInText (b : Buffer) : Prop := ∀ k ∈ b.markers, k.InText b.size

namespace MarkersInText

/-- An edit in the text moves the markers in the text. -/
theorem put (h : b.MarkersInText) (h₀ : 0 ≤ i) (hij : i ≤ j) (hj : j ≤ b.size) :
    (b.put i j t).MarkersInText := by
  intro k' hk'
  rw [put_markers] at hk'
  obtain ⟨k, hk, rfl⟩ := List.mem_map.1 hk'
  rw [put_size h₀ hij hj]
  exact (h k hk).put h₀ hj (Int.natCast_nonneg _)

/-- A new marker is in the text if it is made there. -/
theorem push (h : b.MarkersInText) {k : Marker} (hk : k.InText b.size) :
    ({ b with markers := b.markers ++ [k] } : Buffer).MarkersInText := by
  intro k' hk'
  rcases List.mem_append.1 hk' with hk' | hk'
  · exact h k' hk'
  · rw [List.mem_singleton.1 hk']
    exact hk

theorem modifyMarker (h : b.MarkersInText) (m : MarkerId) {f : Marker → Marker}
    (hf : ∀ k : Marker, k.InText b.size → (f k).InText b.size) :
    (b.modifyMarker m f).MarkersInText := by
  intro k hk
  obtain ⟨m', hm'⟩ := List.mem_iff_getElem?.1 hk
  rw [show (b.modifyMarker m f).markers = b.markers.modify m f from rfl, List.getElem?_modify,
    Option.map_eq_map, Option.map_eq_some_iff] at hm'
  obtain ⟨old, hold, rfl⟩ := hm'
  have hin := h old (List.mem_of_getElem? hold)
  by_cases hm : m = m'
  · rw [if_pos hm]
    exact hf old hin
  · rw [if_neg hm]
    exact hin

/-- In a buffer that is taken back, markers that are not set back are detached. -/
theorem restoredAfter (h : b.MarkersInText) (b' : Buffer) :
    (b.restoredAfter b').MarkersInText := by
  intro k hk
  obtain ⟨m, hm, rfl⟩ := List.mem_mapIdx.1 hk
  change (b.reattached m b'.markers[m]).InText b.size
  unfold reattached
  split
  · exact Marker.inText_of_detached _ rfl
  · next old hold =>
    by_cases hplace : old.position.isSome
    · rw [if_pos hplace]
      exact h old (List.mem_of_getElem? hold)
    · rw [if_neg hplace]
      exact Marker.inText_of_detached _ rfl

end MarkersInText

/-- A change keeps the markers in the text while the view is a stretch of it. -/
theorem Change.markersInText {n : Nat} (h : Change n b b') (hv : b.ViewInText)
    (hb : b.MarkersInText) : b'.MarkersInText := by
  cases h with
  | edit t hi hij hj =>
    exact hb.put (Int.le_trans hv.low_nonneg hi) hij (Int.le_trans hj hv.high_le_size)
  | mark advances h₀ hx =>
    refine hb.push fun y hy => ?_
    cases hy
    exact ⟨h₀, hx⟩
  | detach m => exact hb.modifyMarker m fun _ _ => Marker.inText_of_detached _ rfl
  | turn hm advances => exact hb.modifyMarker _ fun _ hk => hk
  | cover ss => exact hb
  | move x => exact hb
  | confine h₀ hxy hy => exact hb
  | release => exact hb

theorem Leads.markersInText {n : Nat} (h : Leads n b b') (hv : b.ViewInText)
    (hb : b.MarkersInText) : b'.MarkersInText := by
  induction h with
  | refl => exact hb
  | tail hfirst hlast ih => exact hlast.markersInText (Leads.viewInText hfirst hv) ih

/-- **Everything that has a place in the text has it there.** -/
structure WellFormed (b : Buffer) : Prop where
  view : b.ViewInText
  low_le_point : b.low ≤ b.point
  point_le_high : b.point ≤ b.high
  markers : ∀ k ∈ b.markers, k.InText b.size
  spans : b.SpansInText

namespace WellFormed

theorem ofText (t : Text) : (Buffer.ofText t).WellFormed where
  view := viewInText_of_none rfl
  low_le_point := Int.le_refl 0
  point_le_high := size_nonneg _
  markers _ hk := absurd hk List.not_mem_nil
  spans _ hs := absurd hs List.not_mem_nil

theorem markerPosition {m : MarkerId} (h : b.WellFormed) (hx : b.markerPosition m = some x) :
    0 ≤ x ∧ x ≤ b.size := by
  unfold Buffer.markerPosition at hx
  cases hk : b.markers[m]? with
  | none =>
    rw [hk] at hx
    cases hx
  | some k =>
    simp only [hk] at hx
    exact h.markers k (List.mem_of_getElem? hk) x hx

/-! #### Changes -/

/-- The protection does not matter. -/
theorem setUnlocked (h : b.WellFormed) (on : Bool) :
    ({ b with unlocked := on } : Buffer).WellFormed where
  view := h.view.congr rfl rfl
  low_le_point := h.low_le_point
  point_le_high := h.point_le_high
  markers := h.markers
  spans := h.spans

/-- Nor does the file. -/
theorem setFile (h : b.WellFormed) (file : Option Path) :
    ({ b with file := file } : Buffer).WellFormed where
  view := h.view.congr rfl rfl
  low_le_point := h.low_le_point
  point_le_high := h.point_le_high
  markers := h.markers
  spans := h.spans

/-- **An edit in the view.** -/
theorem put (h : b.WellFormed) (hi : b.low ≤ i) (hij : i ≤ j) (hj : j ≤ b.high) :
    (b.put i j t).WellFormed := by
  have h₀ : 0 ≤ i := Int.le_trans h.view.low_nonneg hi
  have hend : j ≤ b.size := Int.le_trans hj h.view.high_le_size
  have hlen : (0 : Int) ≤ t.length := Int.natCast_nonneg _
  have hlow : (b.put i j t).low = b.low := put_low hi hij
  have hhigh : (b.put i j t).high = b.high - (j - i) + t.length := put_high h₀ hij hj
  have hpoint := h.low_le_point
  have hpoint' := h.point_le_high
  constructor
  case view => exact h.view.put hi hij hj
  case low_le_point =>
    rw [hlow, put_point]
    unfold afterDelete
    split <;> split <;> omega
  case point_le_high =>
    rw [hhigh, put_point]
    unfold afterDelete
    split <;> split <;> omega
  case markers => exact MarkersInText.put h.markers h₀ hij hend
  case spans => exact h.spans.put h₀ hij hend

theorem addSpans (h : b.WellFormed) (hss : ∀ s ∈ ss, s.InText b.size) :
    (b.addSpans ss).WellFormed where
  view := h.view.congr rfl rfl
  low_le_point := h.low_le_point
  point_le_high := h.point_le_high
  markers := h.markers
  spans := h.spans.addSpans hss

/-- Other markers that are in the text. -/
theorem setMarkers (h : b.WellFormed) {ms : List Marker} (hms : ∀ k ∈ ms, k.InText b.size) :
    ({ b with markers := ms } : Buffer).WellFormed where
  view := h.view.congr rfl rfl
  low_le_point := h.low_le_point
  point_le_high := h.point_le_high
  markers := hms
  spans := h.spans

theorem modifyMarker (h : b.WellFormed) (m : MarkerId) {f : Marker → Marker}
    (hf : ∀ k : Marker, k.InText b.size → (f k).InText b.size) :
    (b.modifyMarker m f).WellFormed :=
  h.setMarkers (MarkersInText.modifyMarker h.markers m hf)

/-- The point moves into the view. -/
theorem clamp (h : b.WellFormed) (x : Int) :
    ({ b with point := b.clamp x } : Buffer).WellFormed := by
  have hle := h.view.low_le_high
  constructor
  case view => exact h.view.congr rfl rfl
  case low_le_point =>
    change b.low ≤ min (max x b.low) b.high
    omega
  case point_le_high =>
    change min (max x b.low) b.high ≤ b.high
    omega
  case markers => exact h.markers
  case spans => exact h.spans

theorem widen (h : b.WellFormed) : b.widen.WellFormed where
  view := viewInText_of_none rfl
  low_le_point := Int.le_trans h.view.low_nonneg h.low_le_point
  point_le_high := Int.le_trans h.point_le_high h.view.high_le_size
  markers := h.markers
  spans := h.spans

/-- The user is confined to a stretch of the text, and the point goes along. -/
theorem confine (h : b.WellFormed) (h₀ : 0 ≤ x) (hxy : x ≤ y) (hy : y ≤ b.size) :
    ({ b with view := some (x, y), point := min (max b.point x) y } : Buffer).WellFormed where
  view := ⟨h₀, hxy, hy⟩
  low_le_point := by
    change x ≤ min (max b.point x) y
    omega
  point_le_high := by
    change min (max b.point x) y ≤ y
    omega
  markers := h.markers
  spans := h.spans

theorem restoredAfter (h : b.WellFormed) (b' : Buffer) : (b.restoredAfter b').WellFormed where
  view := h.view.restoredAfter b'
  low_le_point := h.low_le_point
  point_le_high := h.point_le_high
  markers := MarkersInText.restoredAfter h.markers b'
  spans := h.spans

/-! #### Operations -/

theorem insert {props : Option Props} {r : Buffer × Option Span} (h : b.WellFormed)
    (hins : b.insert p t props = .ok r) : r.1.WellFormed := by
  obtain ⟨i, -, ⟨hlow, hhigh⟩, -, rfl⟩ := insert_eq_ok_iff.1 hins
  refine (h.put hlow (Int.le_refl i) hhigh).addSpans fun s hs => ?_
  -- the text that the new span covers is not empty, and it is in the text now
  obtain ⟨ht, hstart, hstop⟩ := of_mem_newSpan hs
  have h₀ : 0 ≤ i := Int.le_trans h.view.low_nonneg hlow
  have hsize : i ≤ b.size := Int.le_trans hhigh h.view.high_le_size
  have hpos : 0 < t.length := List.length_pos_iff.2 ht
  have hput := put_size (t := t) h₀ (Int.le_refl i) hsize
  exact ⟨by omega, by omega, by omega⟩

theorem delete {r : Buffer × Text} (h : b.WellFormed) (hdel : b.delete p q = .ok r) :
    r.1.WellFormed := by
  obtain ⟨x, y, -, -, ⟨hlow, hhigh⟩, -, rfl⟩ := delete_eq_ok_iff.1 hdel
  rw [← put_nil]
  exact h.put hlow (by omega) hhigh

theorem addSpan {props : Props} {r : Buffer × Span} (h : b.WellFormed)
    (hspan : b.addSpan p q props = .ok r)
    (hpq : ∀ x y, b.locate p = .ok x → b.locate q = .ok y → 0 ≤ x ∧ x < y ∧ y ≤ b.size) :
    r.1.WellFormed := by
  obtain ⟨x, hx, hspan⟩ := bind_eq_ok.1 hspan
  obtain ⟨y, hy, hspan⟩ := bind_eq_ok.1 hspan
  cases hspan
  obtain ⟨h₀, hlt, hle⟩ := hpq x y hx hy
  have hnew : ∀ s ∈ [(⟨x, y, props⟩ : Span)], s.InText b.size := by
    intro s hs
    rw [List.mem_singleton.1 hs]
    exact ⟨h₀, hlt, hle⟩
  exact h.addSpans hnew

theorem makeMarker {advances : Bool} {r : Buffer × MarkerId} (h : b.WellFormed)
    (hmake : b.makeMarker p advances = .ok r) : r.1.WellFormed := by
  obtain ⟨x, -, hx, rfl⟩ := makeMarker_eq_ok_iff.1 hmake
  refine h.setMarkers (MarkersInText.push h.markers fun y hy => ?_)
  cases hy
  exact hx

theorem deleteMarker (h : b.WellFormed) (m : MarkerId) : (b.deleteMarker m).WellFormed :=
  h.modifyMarker m fun _ _ => Marker.inText_of_detached _ rfl

theorem setAdvances (h : b.WellFormed) (m : MarkerId) (advances : Bool) :
    (b.setAdvances m advances).WellFormed := h.modifyMarker m fun _ hk => hk

theorem goto (h : b.WellFormed) (hgoto : b.goto p = .ok b') : b'.WellFormed := by
  obtain ⟨x, -, hx⟩ := bind_eq_ok.1 hgoto
  cases hx
  exact h.clamp x

theorem halfNarrowed (h : b.WellFormed) (x : Int) : (b.halfNarrowed x).WellFormed := by
  by_cases hx : 0 ≤ x ∧ x ≤ b.size
  · rw [halfNarrowed_in hx]
    exact h.widen.makeMarker (makeMarker_in (b := b.widen) hx false)
  · rw [halfNarrowed_outside hx]
    exact h.widen

theorem narrow (h : b.WellFormed) (p q : Pos) : (b.narrow p q).2.WellFormed := by
  rcases b.narrow_cases p q with ⟨-, e, heq⟩ | ⟨x, y, -, -, ⟨h₀, hle, heq⟩ | ⟨-, z, -, -, heq⟩⟩
  · rw [heq]
    exact h
  · rw [heq]
    exact h.confine h₀ (by omega) hle
  · rw [heq]
    exact h.halfNarrowed _

end WellFormed

end Buffer

end LiterateEdit
