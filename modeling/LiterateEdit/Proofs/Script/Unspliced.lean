import LiterateEdit.Proofs.Context.Clip
import LiterateEdit.Proofs.Context.Undone
import LiterateEdit.Proofs.Script.Fault
import LiterateEdit.Proofs.Script.WellFormed

/-!
# What unsplicing leaves behind any script

Whatever a script has done to a desk, unsplicing then does one of two things and does not fail. If
the two markers of the engine are attached and in order in the text (`Desk.HasRegion`), the text
between them is all that is left, and everything that has a place is left at the nearest place in it
(`Desk.LeavesRegion`). Otherwise nothing is taken away, and the engine only forgets about the
context (`Desk.LeavesAll`). `Desk.unsplice_keeps_region` says both.

What the cuts do to a position needs the position to be in the text, so that the markers have to be
there. They are in every state of a script, also in the middle of groups that are taken back later
(`Reachable.markersInText`).

In the end the engine gives up its markers. That no marker of the script goes with them is because
the engine only holds markers that splicing has made and that the script has never got a name for
(`Desk.Apart`). Neither can come to hold a marker of the other later, since no name is given out
twice.
-/

namespace LiterateEdit

theorem Buffer.Becomes.markersInText {b b' : Buffer} (h : b.Becomes b') (hv : b.ViewInText)
    (hb : b.MarkersInText) : b'.MarkersInText := by
  cases h with
  | done h => exact h.markersInText hv hb
  | undone _ => exact hb.restoredAfter _

namespace Engine

open Buffer

variable {e : Engine} {b c : Buffer} {m : MarkerId} {p : Partition} {narrow : Bool}
  {fault : Option Nat}

/-! ### The markers of the engine -/

/-- The markers that the engine holds. -/
def markers : Engine → List MarkerId
  | .unspliced => []
  | .spliced start stop => [start, stop]

/-- The buffer with the markers of the engine given up. -/
def release (e : Engine) (b : Buffer) : Buffer := e.markers.foldl deleteMarker b

/-- A marker that the engine does not hold stays. -/
theorem markers_release (hm : m ∉ e.markers) : (e.release b).markers[m]? = b.markers[m]? := by
  cases e with
  | unspliced => rfl
  | spliced start stop =>
    obtain ⟨hstart, hstop⟩ := not_or.1 (mt List.mem_pair.2 hm)
    change ((b.markers.modify start _).modify stop _)[m]? = _
    rw [List.getElem?_modify_ne _ _ (Ne.symm hstop), List.getElem?_modify_ne _ _ (Ne.symm hstart)]

/-- One that it holds points nowhere afterwards. -/
theorem markerPosition_release (hm : m ∈ e.markers) : (e.release b).markerPosition m = none := by
  cases e with
  | unspliced => cases hm
  | spliced start stop =>
    refine markerPosition_deleteMarker fun hstop => markerPosition_deleteMarker fun hstart => ?_
    exact absurd hm (mt List.mem_pair.1 (not_or.2 ⟨hstart, hstop⟩))

/-- Nothing else changes. -/
theorem release_eq (e : Engine) (b : Buffer) :
    ∃ ms, e.release b = { b with markers := ms } := by
  cases e with
  | unspliced => exact ⟨b.markers, rfl⟩
  | spliced start stop => exact ⟨_, rfl⟩

/-- Splicing makes both markers of the region itself. -/
theorem le_of_spliceText {m : MarkerId × MarkerId}
    (h : spliceText fault p narrow b = (.ok m, c)) :
    b.markers.length ≤ m.1 ∧ b.markers.length ≤ m.2 := by
  rw [spliceText_eq] at h
  -- the answer of the whole row is that of the attempt that makes the markers
  obtain ⟨m', b₁, hopen, h⟩ := andThen_eq_ok.1 h
  obtain ⟨k, b₂, -, h⟩ := andThen_eq_ok.1 h
  obtain ⟨u, b₃, -, h⟩ := andThen_eq_ok.1 h
  obtain ⟨u', b₄, -, h⟩ := andThen_eq_ok.1 h
  cases h
  exact le_of_openRegion hopen

/-- With a region, what lies outside is cut off. -/
theorem unsplice_of_region {lo hi : Int} (h : e.region? b = some (lo, hi)) :
    ∃ notices, e.unsplice b none
      = ⟨.ok true, e.release (stripped b lo hi), .unspliced, notices⟩ := by
  cases e with
  | unspliced => cases h
  | spliced start stop => exact unsplice_eq h

/-- Without a region nothing is taken away. -/
theorem unsplice_of_no_region (h : e.region? b = none) :
    ∃ notices, e.unsplice b fault = ⟨.ok false, e.release b, .unspliced, notices⟩ := by
  cases e with
  | unspliced => exact ⟨_, rfl⟩
  | spliced start stop =>
    unfold unsplice
    simp only [h]
    exact ⟨_, rfl⟩

end Engine

namespace Desk

open Buffer

variable {d : Desk} {s : Step} {m : MarkerId} {lo hi : Int}

/-! ### Markers are in the text -/

theorem preserves_markersInText :
    Preserves (fun d => d.buffer.ViewInText ∧ d.buffer.MarkersInText) fun _ => True where
  take d s _ h := by
    have hbecomes := d.take_becomes s
    exact ⟨hbecomes.viewInText h.1, hbecomes.markersInText h.1 h.2⟩
  unlocked _ _ _ := ⟨fun _ _ => trivial, fun _ _ h => ⟨h.1.congr rfl rfl, h.2⟩⟩
  atomic _ _ _ _ :=
    ⟨fun _ _ => trivial, fun _ _ h _ => ⟨h.1.restoredAfter _, h.2.restoredAfter _⟩⟩

/-- **In a reachable desk the markers are in the text**, whatever spans there are. -/
theorem Reachable.markersInText (h : d.Reachable) : d.buffer.MarkersInText :=
  (h.of_preserves preserves_markersInText
    fun _ _ => ⟨viewInText_of_none rfl, fun _ hk => absurd hk List.not_mem_nil⟩).2

/-! ### The markers of the engine and of the script -/

/-- **The engine and the script hold different markers**, all of which have been made. -/
structure Apart (d : Desk) : Prop where
  view : d.buffer.ViewInText
  named : d.Named
  made : ∀ m ∈ d.engine.markers, m < d.buffer.markers.length
  apart : ∀ m ∈ d.engine.markers, m ∉ d.markers

/-- Splicing and unsplicing leave the engine markers that it had or new ones. -/
theorem markers_of_resplice (hv : d.buffer.ViewInText) (hs : s.isResplice = true)
    (hm : m ∈ (d.take s).desk.engine.markers) :
    m ∈ d.engine.markers ∨
      d.buffer.markers.length ≤ m ∧ m < (d.take s).desk.buffer.markers.length := by
  cases s with
  | splice p narrow fault =>
    change m ∈ (d.engine.splice d.buffer p narrow fault).engine.markers at hm
    change _ ∨ _ ∧ m < (d.engine.splice d.buffer p narrow fault).buffer.markers.length
    rcases d.engine.splice_cases d.buffer p narrow fault with
      ⟨notices, h⟩ | ⟨q, err, c, hrun, h⟩ | ⟨q, r, c, notices, hrun, h⟩
    · rw [h] at hm
      exact .inl hm
    · rw [h] at hm
      exact .inl hm
    · -- the engine takes note of two markers that enclose the region
      have hv' : ({ d.buffer with unlocked := true } : Buffer).ViewInText := hv.congr rfl rfl
      obtain ⟨hstart, hstop⟩ := Engine.le_of_spliceText hrun
      obtain ⟨hstart', hstop'⟩ := (Engine.encloses_of_spliceText hv' rfl hrun).lt_length
      rw [h] at hm ⊢
      rcases List.mem_pair.1 hm with rfl | rfl
      · exact .inr ⟨hstart, hstart'⟩
      · exact .inr ⟨hstop, hstop'⟩
  | unsplice fault =>
    change m ∈ (d.engine.unsplice d.buffer fault).engine.markers at hm
    left
    rcases d.engine.unsplice_cases d.buffer fault with
      ⟨he, h⟩ | ⟨start, stop, he, ⟨notices, -, h⟩ | ⟨err, c, -, h⟩ | ⟨c, notices, -, h⟩⟩ <;>
      rw [h] at hm
    · exact hm
    · cases hm
    · exact hm
    · cases hm
  | _ => cases hs

/-- A step that splices or unsplices gives the script no marker. -/
theorem take_markers_of_resplice (hs : s.isResplice = true) :
    (d.take s).desk.markers = d.markers := by
  cases s with
  | splice p narrow fault => rfl
  | unsplice fault => rfl
  | _ => cases hs

theorem Apart.take (h : d.Apart) (s : Step) : (d.take s).desk.Apart := by
  have hlen : d.buffer.markers.length ≤ (d.take s).desk.buffer.markers.length :=
    (d.take_becomes s).tracks.length_le
  have hview := (d.take_becomes s).viewInText h.view
  have hnamed : (d.take s).desk.Named := preserves_named.take d s trivial h.named
  cases hs : s.isResplice with
  | true =>
    have hmarkers := take_markers_of_resplice (d := d) hs
    refine ⟨hview, hnamed, fun m hm => ?_, fun m hm hscript => ?_⟩
    · rcases markers_of_resplice h.view hs hm with hold | ⟨-, hnew⟩
      · exact Nat.lt_of_lt_of_le (h.made m hold) hlen
      · exact hnew
    · rw [hmarkers] at hscript
      rcases markers_of_resplice h.view hs hm with hold | ⟨hnew, -⟩
      · exact h.apart m hold hscript
      · -- a new marker is none that the script has got a name for
        exact Nat.not_lt.2 hnew (h.named m hscript)
  | false =>
    obtain ⟨made, hmade, hnew⟩ := d.take_made s
    refine ⟨hview, hnamed, ?_, ?_⟩ <;> rw [take_engine hs]
    · exact fun m hm => Nat.lt_of_lt_of_le (h.made m hm) hlen
    · intro m hm hscript
      rw [hmade] at hscript
      rcases List.mem_append.1 hscript with hold | hscript
      · exact h.apart m hm hold
      · exact Nat.not_lt.2 (hnew m hscript).1 (h.made m hm)

theorem preserves_apart : Preserves Apart fun _ => True where
  take _ s _ h := h.take s
  unlocked _ _ _ :=
    ⟨fun _ _ => trivial, fun _ _ h => ⟨h.view.congr rfl rfl, h.named, h.made, h.apart⟩⟩
  atomic _ _ _ _ := by
    refine ⟨fun _ _ => trivial, fun d d' h h' => ?_⟩
    -- the names that were given out in the group stay given out
    have hlen : (d.restoredAfter d').buffer.markers.length = d'.buffer.markers.length :=
      List.length_mapIdx
    exact ⟨h.view.restoredAfter _, fun m hm => hlen ▸ h'.named m hm,
      fun m hm => hlen ▸ h'.made m hm, h'.apart⟩

/-- **In a reachable desk the engine's markers are its own.** -/
theorem Reachable.apart (h : d.Reachable) : d.Apart :=
  h.of_preserves preserves_apart fun _ _ =>
    ⟨viewInText_of_none rfl, fun _ hm => absurd hm List.not_mem_nil,
      fun _ hm => absurd hm List.not_mem_nil, fun _ hm => absurd hm List.not_mem_nil⟩

/-! ### What is left -/

/-- The markers of the engine are attached, at `lo` and `hi`, and in order in the text. -/
structure HasRegion (d : Desk) (lo hi : Int) : Prop where
  start : d.place .regionStart = .ok lo
  stop : d.place .regionStop = .ok hi
  nonneg : 0 ≤ lo
  le : lo ≤ hi
  le_size : hi ≤ d.buffer.size

theorem hasRegion_iff : d.HasRegion lo hi ↔ d.engine.region? d.buffer = some (lo, hi) := by
  obtain ⟨buffer, engine, markers⟩ := d
  cases engine with
  | unspliced =>
    constructor
    · intro h
      cases h.start
    · intro h
      cases h
  | spliced m m' =>
    rw [Engine.region?_eq_some_iff]
    constructor
    · intro h
      exact ⟨locate_marker_eq_ok.1 h.start, locate_marker_eq_ok.1 h.stop, h.nonneg, h.le, h.le_size⟩
    · rintro ⟨hstart, hstop, h₀, hle, hsize⟩
      exact ⟨locate_marker hstart, locate_marker hstop, h₀, hle, hsize⟩

/-- **Only the region from `lo` to `hi` is left** of the desk `d`, with what has a place in it. -/
structure LeavesRegion (d : Desk) (lo hi : Int) (r : StepRecord) : Prop where
  outcome : r.outcome = .ok (.truth true)
  text : r.desk.buffer.text = d.engine.editable d.buffer
  /-- Of a span, what it has in common with the region is left, if that is anything. -/
  spans : r.desk.buffer.spans
    = (d.buffer.spans.map (Span.clip lo hi)).filter fun s => s.start < s.stop
  /-- The script has the markers that it had, at the nearest places in the region. -/
  markers : r.desk.markers = d.markers
  placed : ∀ m ∈ d.markers,
    r.desk.buffer.markers[m]? = (d.buffer.markers[m]?).map (Marker.clip lo hi)
  view : r.desk.buffer.view = none
  point : r.desk.buffer.point = 0
  engine : r.desk.engine = .unspliced
  released : ∀ m ∈ d.engine.markers, r.desk.buffer.markerPosition m = none
  unlocked : r.desk.buffer.unlocked = d.buffer.unlocked
  file : r.desk.buffer.file = d.buffer.file

/-- **Nothing is taken away** from the desk `d`, and the engine knows of no context any more. -/
structure LeavesAll (d : Desk) (r : StepRecord) : Prop where
  outcome : r.outcome = .ok (.truth false)
  text : r.desk.buffer.text = d.buffer.text
  spans : r.desk.buffer.spans = d.buffer.spans
  markers : r.desk.markers = d.markers
  placed : ∀ m ∈ d.markers, r.desk.buffer.markers[m]? = d.buffer.markers[m]?
  view : r.desk.buffer.view = d.buffer.view
  point : r.desk.buffer.point = d.buffer.point
  engine : r.desk.engine = .unspliced
  released : ∀ m ∈ d.engine.markers, r.desk.buffer.markerPosition m = none
  unlocked : r.desk.buffer.unlocked = d.buffer.unlocked
  file : r.desk.buffer.file = d.buffer.file

theorem leavesRegion (ha : d.Apart) (hmarkers : d.buffer.MarkersInText)
    (hspans : d.buffer.SpansInText) (h : d.HasRegion lo hi) :
    d.LeavesRegion lo hi (d.take (.unsplice none)) := by
  have hregion := hasRegion_iff.1 h
  obtain ⟨notices, hun⟩ := Engine.unsplice_of_region hregion
  have htake : d.take (.unsplice none) = ⟨.ok (.truth true), { d with
      buffer := d.engine.release (Engine.stripped d.buffer lo hi), engine := .unspliced },
      notices⟩ := by
    simp only [Desk.take, respliced, hun]
    rfl
  -- what is left to do, giving up the engine's markers, is about markers only
  obtain ⟨ms, hrelease⟩ := Engine.release_eq d.engine (Engine.stripped d.buffer lo hi)
  rw [htake]
  constructor
  case text =>
    rw [Engine.editable_eq hregion]
    change (d.engine.release _).text = _
    rw [hrelease]
    exact Engine.stripped_text h.nonneg h.le h.le_size
  case spans =>
    change (d.engine.release _).spans = _
    rw [hrelease]
    exact Engine.spans_stripped hspans h.le h.le_size
  case placed =>
    intro m hm
    change (d.engine.release _).markers[m]? = _
    rw [Engine.markers_release fun hengine => ha.apart m hengine hm,
      Engine.markers_stripped hmarkers h.le h.le_size, List.getElem?_map]
  case view =>
    change (d.engine.release _).view = none
    rw [hrelease]
    exact Engine.stripped_view d.buffer lo hi
  case point =>
    change (d.engine.release _).point = 0
    rw [hrelease]
    rfl
  case released => exact fun m hm => Engine.markerPosition_release hm
  case unlocked =>
    change (d.engine.release _).unlocked = _
    rw [hrelease]
    exact Engine.stripped_unlocked d.buffer lo hi
  case file =>
    change (d.engine.release _).file = _
    rw [hrelease]
    exact Engine.stripped_file d.buffer lo hi
  all_goals rfl

theorem leavesAll (ha : d.Apart) (h : ∀ lo hi, ¬d.HasRegion lo hi) :
    d.LeavesAll (d.take (.unsplice none)) := by
  have hnone : d.engine.region? d.buffer = none :=
    Option.eq_none_iff_forall_ne_some.2 fun r hr => h r.1 r.2 (hasRegion_iff.2 hr)
  obtain ⟨notices, hun⟩ : ∃ notices, d.engine.unsplice d.buffer none
      = ⟨.ok false, d.engine.release d.buffer, .unspliced, notices⟩ :=
    Engine.unsplice_of_no_region hnone
  have htake : d.take (.unsplice none) = ⟨.ok (.truth false), { d with
      buffer := d.engine.release d.buffer, engine := .unspliced }, notices⟩ := by
    simp only [Desk.take, respliced, hun]
    rfl
  obtain ⟨ms, hrelease⟩ := Engine.release_eq d.engine d.buffer
  rw [htake]
  constructor
  case placed =>
    exact fun m hm => Engine.markers_release fun hengine => ha.apart m hengine hm
  case released => exact fun m hm => Engine.markerPosition_release hm
  case outcome => rfl
  case markers => rfl
  case engine => rfl
  -- what is left is not about markers
  all_goals
    simp only [hrelease]

/-- **Unsplicing keeps exactly the editable text, whatever was done before.** The desk may be in any
state that a script leads to, with the protection lifted or in the middle of a group, narrowed to
anything, its spans anywhere in the text. If the engine's markers are attached and in order, the
text between them is what remains, spans and markers are moved to where they are nearest in it, and
the view is given up with the point at the start. Otherwise unsplicing answers that nothing was
done, and nothing was. It never fails, and the engine holds no markers afterwards. -/
theorem unsplice_keeps_region (hd : d.Reachable) (hspans : d.buffer.SpansInText) :
    (∀ lo hi, d.HasRegion lo hi → d.LeavesRegion lo hi (d.take (.unsplice none))) ∧
      ((∀ lo hi, ¬d.HasRegion lo hi) → d.LeavesAll (d.take (.unsplice none))) :=
  ⟨fun _ _ => leavesRegion hd.apart hd.markersInText hspans, leavesAll hd.apart⟩

/-- Between two blocks, the text of the first is deleted in part while the protection is lifted, and
spans are put over the start of the region, over its end, over both and outside; the user has a
marker before the region and one in it, and is confined to the middle of the region. Then the same
desk after the host has deleted the second marker of the engine. -/
theorem unsplice_keeps_region_straddled :
    let p := Partition.between (Text.lit "xyz") (Text.lit "uvw")
    let steps : List Step := [.insert (.at 0) (Text.lit "abcdef") none, .makeMarker (.at 2) true,
      .splice (some p) true none, .widen, .makeMarker (.at 0) true,
      .unlocked [.delete (.at 1) (.at 2)] true,
      .addSpan (.at 1) (.at 5) {}, .addSpan (.at 8) (.at 11) ⟨true, false, none⟩,
      .addSpan (.at 0) (.at 13) ⟨false, false, some (Text.lit "f")⟩, .addSpan (.at 9) (.at 12) {},
      .narrow (.at 4) (.at 6)]
    let d := ((fresh []).runAll false steps).1
    let d' := ((fresh []).runAll false (steps ++ [.deleteMarker .regionStop])).1
    (d.buffer.text = Text.lit "xz\nabcdef\nuvw" ∧ d.buffer.view = some (4, 6) ∧
        d.HasRegion 3 9) ∧
      d.LeavesRegion 3 9 (d.take (.unsplice none)) ∧
      (d.take (.unsplice none)).desk.buffer.text = Text.lit "abcdef" ∧
      (d.take (.unsplice none)).desk.buffer.spans
        = [⟨0, 2, {}⟩, ⟨5, 6, ⟨true, false, none⟩⟩, ⟨0, 6, ⟨false, false, some (Text.lit "f")⟩⟩] ∧
      d.markers.map (d.take (.unsplice none)).desk.buffer.markerPosition = [some 2, some 0] ∧
      d'.LeavesAll (d'.take (.unsplice none)) := by
  intro p steps d d'
  have hd : d.Reachable := reachable_runAll [] false _ _
  have hd' : d'.Reachable := reachable_runAll [] false _ _
  have hbefore : d.buffer.text = Text.lit "xz\nabcdef\nuvw" ∧ d.buffer.view = some (4, 6) := by
    decide +kernel
  have hspans : d.buffer.SpansInText := by
    have hall : ∀ s ∈ d.buffer.spans, 0 ≤ s.start ∧ s.start < s.stop ∧ s.stop ≤ d.buffer.size := by
      decide +kernel
    exact fun s hs => ⟨(hall s hs).1, (hall s hs).2.1, (hall s hs).2.2⟩
  have hsame : d'.buffer.spans = d.buffer.spans ∧ d'.buffer.text = d.buffer.text := by
    decide +kernel
  have hspans' : d'.buffer.SpansInText := by
    rw [SpansInText, hsame.1, size, hsame.2]
    exact hspans
  have hregion : d.HasRegion 3 9 := hasRegion_iff.2 (by decide +kernel)
  have hstale : ∀ lo hi, ¬d'.HasRegion lo hi := by
    have hnone : d'.engine.region? d'.buffer = none := by decide +kernel
    intro lo hi h
    rw [hasRegion_iff, hnone] at h
    cases h
  have hleft := (unsplice_keeps_region hd hspans).1 3 9 hregion
  refine ⟨⟨hbefore.1, hbefore.2, hregion⟩, hleft, hleft.text.trans ?_, hleft.spans.trans ?_, ?_,
    (unsplice_keeps_region hd' hspans').2 hstale⟩ <;> decide +kernel

end Desk

end LiterateEdit
