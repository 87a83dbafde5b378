import LiterateEdit.Proofs.Buffer.Cut
import LiterateEdit.Proofs.Buffer.WellFormed
import LiterateEdit.Proofs.Context.Strip

/-!
# What the region keeps

Unsplicing cuts off what lies behind the region and then what lies before it. Each cut moves, brings
together and drops what has a place in the text, and the second one does so to what the first one
has left. This file says what comes of both together, for a region that lies in the text in any way
whatever, empty or at an edge:

* a position goes to the place nearest to it in the region (`afterDelete_afterDelete_eq`);
* a span keeps what it has in common with the region, and is dropped if that is nothing
  (`spans_stripped`). It may reach over either end of the region, or over both;
* a marker goes with its position, and stays detached if it was (`markers_stripped`).

Places are counted from the start of the region in the end.
-/

namespace LiterateEdit

variable {lo hi n p : Int}

/-! ### Places in the region -/

/-- The place in the region nearest to a position, counted from the start of the region. -/
def clip (lo hi p : Int) : Int := max lo (min p hi) - lo

/-- The marker at the place in the region nearest to it. -/
def Marker.clip (lo hi : Int) (k : Marker) : Marker :=
  { k with position := k.position.map (LiterateEdit.clip lo hi) }

/-- What a span has in common with the region. If that is nothing, it does not start before it
stops. -/
def Span.clip (lo hi : Int) (s : Span) : Span :=
  ⟨max lo s.start - lo, min s.stop hi - lo, s.props⟩

/-- **Both cuts bring a position** to the nearest place in the region. -/
theorem afterDelete_afterDelete_eq (hle : lo ≤ hi) (hhi : hi ≤ n) (hp : 0 ≤ p) (hpn : p ≤ n) :
    afterDelete 0 lo (afterDelete hi n p) = clip lo hi p := by
  have htail : afterDelete hi n p = min p hi := by
    unfold afterDelete
    split <;> omega
  rw [htail, clip]
  -- the head is cut off in front of what is left
  unfold afterDelete
  split <;> omega

/-! ### Spans -/

namespace Span

variable {s : Span}

/-- What a span has in common with the region is what both cuts leave of it, or both are empty. -/
theorem clip_eq (hs : s.InText n) (hle : lo ≤ hi) (hhi : hi ≤ n) :
    ((((s.deleted hi n).deleted 0 lo).start < ((s.deleted hi n).deleted 0 lo).stop) ↔
        (s.clip lo hi).start < (s.clip lo hi).stop) ∧
      ((s.clip lo hi).start < (s.clip lo hi).stop →
        (s.deleted hi n).deleted 0 lo = s.clip lo hi) := by
  obtain ⟨hpos, hlt, hstop⟩ := hs
  have hboth : (s.deleted hi n).deleted 0 lo
      = ⟨LiterateEdit.clip lo hi s.start, LiterateEdit.clip lo hi s.stop, s.props⟩ := by
    rw [deleted, deleted, afterDelete_afterDelete_eq hle hhi hpos (by omega),
      afterDelete_afterDelete_eq hle hhi (by omega) hstop]
  rw [hboth]
  simp only [clip, LiterateEdit.clip, mk.injEq, and_true]
  constructor <;> omega

end Span

namespace Engine

open Buffer

variable {b : Buffer}

/-- **The spans that are left**, in their order. -/
theorem spans_stripped (hspans : b.SpansInText) (hle : lo ≤ hi) (hhi : hi ≤ b.size) :
    (stripped b lo hi).spans
      = (b.spans.map (Span.clip lo hi)).filter fun s => s.start < s.stop := by
  have hne : b.widen.SpansNonempty := fun s hs => (hspans s hs).start_lt_stop
  let left : Span → Span := fun s => (s.deleted hi b.size).deleted 0 lo
  have hcuts : (stripped b lo hi).spans = (b.spans.map left).filter fun s => s.start < s.stop := by
    change ((b.widen.cut hi b.size).cut 0 lo).spans = _
    rw [cut_eq_deleteText (hne.cut hi b.size), cut_eq_deleteText hne]
    exact filter_deleted_filter b.spans 0 lo hi b.size
  -- the spans of which something is left are the same, and what is left of them is
  have hsame : b.spans.filter ((fun s => decide (s.start < s.stop)) ∘ left)
      = b.spans.filter ((fun s => decide (s.start < s.stop)) ∘ Span.clip lo hi) :=
    List.filter_congr fun s hs => decide_eq_decide.2 (Span.clip_eq (hspans s hs) hle hhi).1
  rw [hcuts, List.filter_map, List.filter_map, hsame]
  refine List.map_congr_left fun s hs => ?_
  obtain ⟨hs, hlt⟩ := List.mem_filter.1 hs
  exact (Span.clip_eq (hspans s hs) hle hhi).2 (of_decide_eq_true hlt)

/-! ### Markers -/

/-- **The markers that are left** are all that there were. -/
theorem markers_stripped (hmarkers : b.MarkersInText) (hle : lo ≤ hi) (hhi : hi ≤ b.size) :
    (stripped b lo hi).markers = b.markers.map (Marker.clip lo hi) := by
  change ((b.widen.cut hi b.size).cut 0 lo).markers = _
  rw [← put_nil, put_markers, ← put_nil, put_markers, List.map_map]
  refine List.map_congr_left fun k hk => ?_
  change ((k.put hi b.size 0).put 0 lo 0) = k.clip lo hi
  rw [Marker.put, Marker.put, Marker.clip]
  congr 1
  rw [Option.map_map]
  refine Option.map_congr fun x hx => ?_
  obtain ⟨hpos, hxn⟩ := hmarkers k hk x hx
  simp only [Function.comp_apply, afterPut, afterInsert_zero]
  exact afterDelete_afterDelete_eq hle hhi hpos hxn

end Engine

end LiterateEdit
