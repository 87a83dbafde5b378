import LiterateEdit.Proofs.Context.Layout
import LiterateEdit.Proofs.Context.Strip
import LiterateEdit.Proofs.Script.Run

/-!
# A narrowed region confines all edits

When the buffer is narrowed to the region, the view and the region are the same stretch of text: the
ends of the view and the two markers of the engine move alike. Hence the check of the view alone
keeps every edit inside the region, whatever the spans say and whether protection is lifted or not,
and the context stays as it was injected.

The invariant is `Buffer.Holds p m b`: between the two contexts of `p` stands a text `m`, and both
markers and both ends of the view are at its edges. An edit in the view changes `m` only
(`Holds.put`); everything else that a script may do, restoring after a group that failed included,
changes neither the text, nor the two markers, nor the view (`Holds.congr`).

What a script may not do is listed by `Step.staysNarrowed`: narrow or widen, splice or unsplice, and
delete a marker of the engine.
-/

namespace LiterateEdit

/-! ### Buffers -/

namespace Buffer

/-- Between the contexts stands the text `m`, and the markers of the region and the ends of the view
are at its edges. -/
structure Holds (p : Partition) (m : Text) (b : Buffer) : Prop where
  text : b.text = p.textBefore ++ m ++ p.textAfter
  marks : b.Marks p.textBefore.length (p.textBefore.length + m.length)
  view : b.view = some ⟨p.textBefore.length, p.textBefore.length + m.length⟩

namespace Holds

variable {p : Partition} {m t : Text} {b b' : Buffer} {i j : Int}

theorem size (h : b.Holds p m) :
    b.size = p.textBefore.length + m.length + p.textAfter.length := by
  rw [Buffer.size, h.text]
  simp only [List.length_append]
  omega

/-- The ends of the view. -/
theorem low (h : b.Holds p m) : b.low = p.textBefore.length := by rw [Buffer.low, h.view]

theorem high (h : b.Holds p m) : b.high = p.textBefore.length + m.length := by
  rw [Buffer.high, h.view]

/-- What has the same text, the same two markers and the same view holds the same. -/
theorem congr (h : b.Holds p m) (htext : b'.text = b.text)
    (hmarkers : ∀ k < 2, b'.markers[k]? = b.markers[k]?) (hview : b'.view = b.view) :
    b'.Holds p m :=
  ⟨htext.trans h.text, h.marks.congr hmarkers, hview.trans h.view⟩

/-- There are at least the two markers of the region. -/
theorem two_le_length (h : b.Holds p m) : 2 ≤ b.markers.length := by
  obtain ⟨hlt, -⟩ := List.getElem?_eq_some_iff.1 h.marks.stop
  omega

/-- **An edit in the view** changes nothing but the text that stands between the contexts. -/
theorem put (h : b.Holds p m) (hi : b.low ≤ i) (hij : i ≤ j) (hj : j ≤ b.high) :
    (b.put i j t).Holds p (m.edit (i - p.textBefore.length) (j - p.textBefore.length) t) := by
  rw [h.low] at hi
  rw [h.high] at hj
  have hlen := Text.length_edit (t := m) (u := t) (by omega : 0 ≤ i - p.textBefore.length)
    (by omega : _ ≤ j - p.textBefore.length) (by omega)
  -- the start of the region does not advance, and its end does
  have hstart : afterPut i j t.length false p.textBefore.length = p.textBefore.length :=
    afterPut_of_le hi hij
  have hstop : afterPut i j t.length true (p.textBefore.length + m.length)
      = p.textBefore.length
        + (m.edit (i - p.textBefore.length) (j - p.textBefore.length) t).length := by
    rw [afterPut_of_ge hj, hlen]
    omega
  constructor
  case text =>
    -- counted from the start of the region the edit is one of `m`
    have hi' : i = p.textBefore.length + (i - p.textBefore.length) := by omega
    have hj' : j = p.textBefore.length + (j - p.textBefore.length) := by omega
    rw [put_text hij (by rw [h.size]; omega), h.text]
    conv => lhs; rw [hi', hj']
    exact Text.edit_append _ _ (by omega) (by omega) (by omega)
  case marks =>
    have hmarks := h.marks.put (i := i) (j := j) (t := t)
    rwa [hstart, hstop] at hmarks
  case view =>
    rw [put_view, h.view]
    simp only [Option.map_some, hstart, hstop]

/-- New spans do not matter. -/
theorem addSpans (h : b.Holds p m) (ss : List Span) : (b.addSpans ss).Holds p m :=
  h.congr rfl (fun _ _ => rfl) rfl

/-- A marker made is none of the two. -/
theorem push (h : b.Holds p m) (more : List Marker) :
    ({ b with markers := b.markers ++ more } : Buffer).Holds p m := by
  have hlen := h.two_le_length
  exact h.congr rfl (fun k hk => List.getElem?_append_left (by omega)) rfl

/-- A marker that is none of the two may be detached. -/
theorem deleteMarker (h : b.Holds p m) {k : MarkerId} (hk : 2 ≤ k) :
    (b.deleteMarker k).Holds p m := by
  refine h.congr rfl (fun k' hk' => ?_) rfl
  change (b.markers.modify k Marker.detached)[k']? = _
  exact List.getElem?_modify_ne _ _ (Nat.ne_of_gt (Nat.lt_of_lt_of_le hk' hk))

/-- A failed group leaves what was there before it. -/
theorem restoredAfter {m' : Text} (h : b.Holds p m) (h' : b'.Holds p m') :
    (b.restoredAfter b').Holds p m := by
  refine h.congr rfl (fun k hk => ?_) rfl
  -- both markers of the region had a place before the group and are still known behind it
  have hk' : k < b'.markers.length := Nat.lt_of_lt_of_le hk h'.two_le_length
  obtain ⟨old, hold, hplace⟩ : ∃ old, b.markers[k]? = some old ∧ old.position.isSome = true := by
    obtain rfl | rfl : k = 0 ∨ k = 1 := by omega
    · exact ⟨_, h.marks.start, rfl⟩
    · exact ⟨_, h.marks.stop, rfl⟩
  change (b'.markers.mapIdx b.reattached)[k]? = _
  rw [List.getElem?_mapIdx, List.getElem?_eq_getElem hk', Option.map_some, reattached, hold]
  exact congrArg some (if_pos hplace)

/-- The markers of the region are at the ends of the view. -/
theorem region? (h : b.Holds p m) : (Engine.spliced 0 1).region? b = some (b.low, b.high) := by
  have hsize := h.size
  rw [h.low, h.high]
  exact h.marks.region? (by omega) (by omega) (by omega)

end Holds

end Buffer

/-! ### Steps -/

mutual

/-- Does the step leave the view and the markers of the engine alone? -/
def Step.staysNarrowed : Step → Bool
  | .narrow _ _ => false
  | .widen => false
  | .splice _ _ _ => false
  | .unsplice _ => false
  | .deleteMarker .regionStart => false
  | .deleteMarker .regionStop => false
  | .unlocked steps _ => Step.stayNarrowed steps
  | .atomic steps _ _ => Step.stayNarrowed steps
  | _ => true

/-- Do all steps? -/
def Step.stayNarrowed : List Step → Bool
  | [] => true
  | s :: rest => s.staysNarrowed && Step.stayNarrowed rest

end

theorem Step.stayNarrowed_iff (steps : List Step) :
    Step.stayNarrowed steps = true ↔ ∀ s ∈ steps, s.staysNarrowed = true := by
  induction steps with
  | nil => simp [Step.stayNarrowed]
  | cons s rest ih => simp [Step.stayNarrowed, ih]

namespace Desk

/-- **The invariant.** The desk is spliced, its view is its region, and no marker of the script is a
marker of the engine. -/
structure Narrowed (p : Partition) (d : Desk) : Prop where
  engine : d.engine = .spliced 0 1
  holds : ∃ m, d.buffer.Holds p m
  markers : ∀ m ∈ d.markers, 2 ≤ m

namespace Narrowed

variable {p : Partition} {d d' : Desk} {s : Step}

/-- The desk behind a step that only changes the buffer. -/
theorem edited (h : Narrowed p d) {r : Except EditError (Buffer × StepResult)}
    (hr : ∀ b v, r = .ok (b, v) → ∃ m, b.Holds p m) : Narrowed p (d.edited r).desk := by
  rcases d.edited_cases r with ⟨e, he⟩ | ⟨b, v, hv, he⟩
  · rw [he]
    exact h
  · rw [he]
    exact ⟨h.engine, hr b v hv, h.markers⟩

theorem take (h : Narrowed p d) (hs : s.staysNarrowed = true) : Narrowed p (d.take s).desk := by
  obtain ⟨m, hm⟩ := h.holds
  by_cases hedit : s.isEdit = true
  · rcases d.take_edit hedit with ⟨e, he⟩ | ⟨i, j, t, ss, v, ha⟩
    · rw [he]
      exact h
    · rw [ha.take_eq]
      exact ⟨h.engine, ⟨_, (hm.put ha.low_le ha.le ha.le_high).addSpans ss⟩, h.markers⟩
  cases s with
  | insert q t props => exact absurd rfl hedit
  | delete q q' => exact absurd rfl hedit
  | replaceRegion q q' t => exact absurd rfl hedit
  | goto q =>
    refine h.edited fun b v hb => ?_
    obtain ⟨q', -, hb⟩ := bind_eq_ok.1 hb
    obtain ⟨b', hgoto, hb⟩ := bind_eq_ok.1 hb
    obtain ⟨n, -, hn⟩ := bind_eq_ok.1 hgoto
    cases hn
    cases hb
    exact ⟨m, hm.congr rfl (fun _ _ => rfl) rfl⟩
  | makeMarker q advances =>
    simp only [Desk.take]
    split
    · exact h
    · next b k hmake =>
      obtain ⟨q', -, hmake⟩ := bind_eq_ok.1 hmake
      obtain ⟨n, -, hmake⟩ := bind_eq_ok.1 hmake
      -- the name of the new marker is the number of those that there were
      have hlen := hm.two_le_length
      split at hmake
      · cases hmake
        refine ⟨h.engine, ⟨m, hm.push _⟩, fun k hk => ?_⟩
        rcases List.mem_append.1 hk with hk | hk
        · exact h.markers k hk
        · rw [List.mem_singleton.1 hk]
          exact hlen
      · cases hmake
  | deleteMarker r =>
    refine h.edited fun b v hb => ?_
    split at hb
    · cases hb
    · next k hk =>
      -- the script can only name its own markers here
      have hmem : k ∈ d.markers := by
        cases r with
        | «at» n => cases hk
        | user i => exact List.mem_of_getElem? hk
        | regionStart => cases hs
        | regionStop => cases hs
      cases hb
      exact ⟨m, hm.deleteMarker (h.markers k hmem)⟩
  | addSpan q q' props =>
    refine h.edited fun b v hb => ?_
    obtain ⟨x, -, hb⟩ := bind_eq_ok.1 hb
    obtain ⟨y, -, hb⟩ := bind_eq_ok.1 hb
    obtain ⟨⟨b', s⟩, hspan, hb⟩ := bind_eq_ok.1 hb
    obtain ⟨start, -, hspan⟩ := bind_eq_ok.1 hspan
    obtain ⟨stop, -, hspan⟩ := bind_eq_ok.1 hspan
    cases hspan
    cases hb
    exact ⟨m, hm.addSpans _⟩
  | narrow q q' => cases hs
  | widen => cases hs
  | splice q narrow fault => cases hs
  | unsplice fault => cases hs
  | _ => exact h -- a question or a group: nothing changes here

/-- The invariant holds all along a script that stays narrowed. -/
theorem preserves (p : Partition) :
    Preserves (Narrowed p) fun s => s.staysNarrowed = true where
  take _ _ hs h := h.take hs
  unlocked steps _ hs := by
    refine ⟨(Step.stayNarrowed_iff steps).1 (by rwa [Step.staysNarrowed] at hs), fun d on h => ?_⟩
    obtain ⟨m, hm⟩ := h.holds
    exact ⟨h.engine, ⟨m, hm.congr rfl (fun _ _ => rfl) rfl⟩, h.markers⟩
  atomic steps _ _ hs := by
    refine ⟨(Step.stayNarrowed_iff steps).1 (by rwa [Step.staysNarrowed] at hs),
      fun d d' h h' => ?_⟩
    obtain ⟨m, hm⟩ := h.holds
    obtain ⟨m', hm'⟩ := h'.holds
    exact ⟨h'.engine, ⟨m, hm.restoredAfter hm'⟩, h'.markers⟩

end Narrowed

/-- **What a host sees of a confined desk**: the view lies between the markers of the engine,
outside it stands the context, and taking the context away leaves what was visible. -/
structure Confined (p : Partition) (d : Desk) : Prop where
  region : d.engine.region? d.buffer = some (d.buffer.low, d.buffer.high)
  before : d.buffer.slice 0 d.buffer.low = p.textBefore
  behind : d.buffer.slice d.buffer.high d.buffer.size = p.textAfter
  unsplices : d.UnsplicesTo d.buffer.visible

theorem Narrowed.confined {p : Partition} {d : Desk} (h : Narrowed p d) : Confined p d := by
  obtain ⟨m, hm⟩ := h.holds
  have hregion : d.engine.region? d.buffer = some (d.buffer.low, d.buffer.high) := by
    rw [h.engine, hm.region?]
  refine ⟨hregion, ?_, ?_, unsplicesTo hregion⟩
  · rw [hm.low, Buffer.slice, hm.text]
    exact Text.slice_append_before _ _ _
  · rw [hm.high, hm.size, Buffer.slice, hm.text]
    exact Text.slice_append_behind _ _ _

/-- **Edits cannot leave a narrowed region.** Whatever a script does, as long as it neither moves
the view nor the markers of the engine, every state of the run is confined: with protection lifted
or not, in groups that fail or succeed, and whether the region is empty or not. -/
theorem narrowed_run_confined {p : Partition} (hp : p.isEmpty = false) (t : Text) (stops : Bool)
    {steps : List Step} (hs : Step.stayNarrowed steps = true) :
    Confined p (spliced p t true) ∧
      Through (Confined p) ((spliced p t true).runAll stops steps).1
        ((spliced p t true).runAll stops steps).2.1 := by
  have hstart : Narrowed p (spliced p t true) := by
    rw [spliced_eq hp]
    exact ⟨rfl, ⟨t, rfl, p.embed_marks true _, rfl⟩, fun m hm => absurd hm List.not_mem_nil⟩
  obtain ⟨hlast, hrecords⟩ := (Narrowed.preserves p).run_and_runAll.2 _ stops steps
    ((Step.stayNarrowed_iff steps).1 hs) hstart
  exact ⟨hstart.confined, hlast.confined, fun r hr => (hrecords r hr).confined⟩

/-- Protection is lifted and a group fails while the region is empty. -/
theorem narrowed_run_confined_empty :
    let p := Partition.between (Text.lit "a=0") (Text.lit "b=0")
    let steps : List Step := [.unlocked [.insert .regionStart (Text.lit "y") none,
        .delete (.at 0) .regionStop] false,
      .atomic [.makeMarker .regionStop true, .insert .regionStop (Text.lit "z") none] true true]
    let d := ((spliced p [] true).runAll false steps).1
    (p.isEmpty = false ∧ Step.stayNarrowed steps = true) ∧
      d.buffer.text = Text.lit "a=0\ny\nb=0" ∧ Confined p d := by
  intro p steps d
  have hp : p.isEmpty = false := rfl
  have hs : Step.stayNarrowed steps = true := rfl
  have htext : d.buffer.text = Text.lit "a=0\ny\nb=0" := by decide +kernel
  obtain ⟨-, hlast, -⟩ := narrowed_run_confined hp [] false hs
  exact ⟨⟨hp, hs⟩, htext, hlast⟩

end Desk

end LiterateEdit
