import LiterateEdit.Proofs.Buffer.Cut
import LiterateEdit.Proofs.Context.Fault
import LiterateEdit.Proofs.Script.Rollback

/-!
# Splicing that is undone

Splicing and then unsplicing leaves what was in the view and takes away everything else, context or
not. A host that has not narrowed the buffer does not notice: the text, the spans and the markers
are what they were, whatever stood at the ends of the text and whichever way it moved when the
context came (`Desk.splice_unsplice_undone`). A host that has narrowed it loses what was outside the
view (`Desk.splice_unsplice_narrowed`), because splicing takes its region from the view and
unsplicing gives the view up before it cuts.

Where the spliced buffer is concerned, nothing has to be followed. The context behind the region was
put into the tail that is cut off, and the context before it into the head, and a cut takes along
what was put into its stretch (`Buffer.cut_insertText`). So cutting the spliced buffer is cutting
the buffer as it was at the ends of its view (`stripped_around`).

The markers of the region are the last two in the table, and `Buffer.upTo` forgets them. All edits
do to the other markers what they would do without these two.
-/

namespace LiterateEdit

namespace Buffer

variable {b b' : Buffer} {i j : Int} {m n : Nat} {t : Text} {p : Partition}

/-! ### Forgetting the youngest markers -/

/-- The buffer with the first `n` of its markers. -/
def upTo (b : Buffer) (n : Nat) : Buffer := { b with markers := b.markers.take n }

theorem upTo_insertText (b : Buffer) (n : Nat) (i : Int) (t : Text) :
    (b.insertText i t).upTo n = (b.upTo n).insertText i t := by
  exact congrArg (fun ms => { b.insertText i t with markers := ms }) List.map_take.symm

theorem upTo_putRow (b : Buffer) (n : Nat) (i : Int) (ts : List Text) :
    (b.putRow i ts).upTo n = (b.upTo n).putRow i ts := by
  rw [putRow, putRow, ← upTo_insertText]
  rfl

theorem upTo_cut (b : Buffer) (n : Nat) (i j : Int) : (b.cut i j).upTo n = (b.upTo n).cut i j := by
  unfold cut
  split
  · rfl
  · exact congrArg (fun ms => { b.deleteText i j with markers := ms }) List.map_take.symm

/-- A marker that is forgotten can be changed. -/
theorem upTo_modifyMarker (h : n ≤ m) (f : Marker → Marker) :
    (b.modifyMarker m f).upTo n = b.upTo n := by
  have hlen : (b.markers.take n).length ≤ m := Nat.le_trans (List.length_take_le n _) h
  have hmarkers : (b.markers.modify m f).take n = b.markers.take n := by
    rw [List.take_modify, List.modify_eq_self hlen]
  exact congrArg (fun ms => { b with markers := ms }) hmarkers

theorem upTo_marked (b : Buffer) : b.marked.upTo b.markers.length = b :=
  congrArg (fun ms => { b with markers := ms }) List.take_left

/-- A buffer whose youngest markers point nowhere is the one without them. -/
theorem asBefore_upTo (hn : n ≤ b.markers.length)
    (hnew : ∀ m, n ≤ m → b.markerPosition m = none) : (b.upTo n).AsBefore b := by
  have hlen : (b.upTo n).markers.length = n := List.length_take_of_le hn
  refine ⟨rfl, rfl, rfl, rfl, rfl, rfl, fun m hm => ?_, fun m hm => hnew m (hlen ▸ hm)⟩
  exact (List.getElem?_take_of_lt (hlen ▸ hm)).symm

/-- A marker that is deleted points nowhere, and nor does one that did not before. -/
theorem markerPosition_deleteMarker {m' : MarkerId}
    (h : m' ≠ m → b.markerPosition m' = none) : (b.deleteMarker m).markerPosition m' = none := by
  have hmarker : (b.deleteMarker m).markers[m']?
      = (fun k => if m = m' then k.detached else k) <$> b.markers[m']? :=
    List.getElem?_modify Marker.detached m b.markers m'
  unfold markerPosition at h ⊢
  rw [hmarker]
  by_cases hm : m' = m
  · -- whatever place it had is gone
    cases b.markers[m']? with
    | none => rfl
    | some k =>
      simp only [hm, if_true, Option.map_eq_map, Option.map_some]
      rfl
  · cases hold : b.markers[m']? with
    | none => rfl
    | some k =>
      have hplace := h hm
      rw [hold] at hplace
      simpa [Ne.symm hm] using hplace

/-! ### Context around the view -/

/-- The buffer with context around what is in its view, without the markers between the two. -/
def around (b : Buffer) (p : Partition) : Buffer :=
  (b.putRow b.low p.segmentsBefore).putRow (b.high + p.textBefore.length) p.segmentsAfter

theorem upTo_surround (b : Buffer) (p : Partition) :
    (b.surround p).upTo b.markers.length = b.around p := by
  have hle : b.markers.length ≤ b.markers.length + 1 := Nat.le_succ _
  unfold surround around
  simp only [setAdvances, upTo_putRow, upTo_modifyMarker hle, upTo_modifyMarker (Nat.le_refl _),
    upTo_marked]

theorem surround_text (b : Buffer) (p : Partition) : (b.surround p).text = (b.around p).text := by
  rw [← upTo_surround]
  rfl

theorem length_markers_surround (b : Buffer) (p : Partition) :
    (b.surround p).markers.length = b.markers.length + 2 := by
  simp [surround, setAdvances, modifyMarker, putRow, insertText, addSpans, marked]

theorem putRow_size (h₀ : 0 ≤ i) (hi : i ≤ b.size) (ts : List Text) :
    (b.putRow i ts).size = b.size + ts.flatten.length := insertText_size h₀ hi

theorem SpansNonempty.putRow (h : b.SpansNonempty) (i : Int) {ts : List Text}
    (hts : ∀ t ∈ ts, t ≠ []) : (b.putRow i ts).SpansNonempty :=
  (h.insertText i _).addSpans fun _ hs => (mem_contextSpans hts hs).2.1

/-- A row of texts in a stretch goes with the stretch. -/
theorem cut_putRow {x : Int} {ts : List Text} (hne : b.SpansNonempty) (h₀ : 0 ≤ i) (hi : i ≤ x)
    (hj : x ≤ j) (hx : x ≤ b.size) (hts : ∀ t ∈ ts, t ≠ []) :
    (b.putRow x ts).cut i (j + ts.flatten.length) = b.cut i j := by
  refine cut_insertText hne h₀ hi hj hx fun s hs => ?_
  obtain ⟨hstart, hlt, hstop, -⟩ := mem_contextSpans hts hs
  exact ⟨hstart, hlt, hstop⟩

theorem length_visible (hv : b.ViewInText) : (b.visible.length : Int) = b.high - b.low :=
  Text.length_slice hv.low_nonneg hv.low_le_high hv.high_le_size

/-- The context stands between what is in the view and what is outside. -/
theorem around_text (hv : b.ViewInText) (p : Partition) :
    (b.around p).text = b.text.take b.low.toNat ++ p.textBefore ++ b.visible ++ p.textAfter
      ++ b.text.drop b.high.toNat := by
  have hlow := hv.low_nonneg
  have hle := hv.low_le_high
  have hhigh := hv.high_le_size
  let front : Text := b.text.take b.low.toNat ++ p.textBefore
  have hlen : front.length = b.low.toNat + p.textBefore.length := by
    rw [List.length_append, List.length_take]
    simp only [size] at hhigh
    omega
  -- the row behind the view is put in after the one before it, which has moved its place
  have hspot : (b.high + p.textBefore.length).toNat
      = front.length + (b.high.toNat - b.low.toNat) := by omega
  have hbehind : b.low.toNat + (b.high.toNat - b.low.toNat) = b.high.toNat := by omega
  change (front ++ b.text.drop b.low.toNat).take (b.high + p.textBefore.length).toNat
      ++ p.textAfter ++ (front ++ b.text.drop b.low.toNat).drop (b.high + p.textBefore.length).toNat
      = front ++ b.visible ++ p.textAfter ++ b.text.drop b.high.toNat
  rw [hspot, List.take_length_add_append, List.drop_length_add_append, List.drop_drop, hbehind,
    visible, slice, Text.slice_eq hlow hle hhigh]

/-- What was in the view stands between the context. -/
theorem around_slice (hv : b.ViewInText) (p : Partition) :
    (b.around p).slice (b.low + p.textBefore.length) (b.high + p.textBefore.length)
      = b.visible := by
  have hlow := hv.low_nonneg
  have hhigh : b.low ≤ b.text.length := Int.le_trans hv.low_le_high hv.high_le_size
  have hvisible := length_visible hv
  have hfront : ((b.text.take b.low.toNat ++ p.textBefore).length : Int)
      = b.low + p.textBefore.length := by
    rw [List.length_append, List.length_take]
    omega
  have hend : b.high + p.textBefore.length = b.low + p.textBefore.length + b.visible.length := by
    omega
  rw [slice, around_text hv, hend, ← hfront, List.append_assoc _ p.textAfter]
  exact Text.slice_append _ _ _

end Buffer

namespace Engine

open Buffer

variable {b : Buffer} {m m' : MarkerId} {lo hi : Int} {n : Nat} {p : Partition} {narrow : Bool}

theorem upTo_stripped (b : Buffer) (n : Nat) (lo hi : Int) :
    (stripped b lo hi).upTo n = stripped (b.upTo n) lo hi := by
  have hcut : (((b.widen.cut hi b.size).cut 0 lo).upTo n)
      = ((b.upTo n).widen.cut hi b.size).cut 0 lo := by
    rw [upTo_cut, upTo_cut]
    rfl
  change { ((b.widen.cut hi b.size).cut 0 lo).upTo n with point := 0 } = _
  rw [hcut]
  rfl

/-- A cut does not look at the point. -/
theorem cut_moved (b : Buffer) (point i j : Int) :
    ∃ point', ({ b with point := point } : Buffer).cut i j
      = { b.cut i j with point := point' } := by
  unfold cut
  split
  · exact ⟨point, rfl⟩
  · exact ⟨afterDelete i j point, rfl⟩

/-- Unsplicing looks neither at the view nor at the point. -/
theorem stripped_entered (b : Buffer) (lo hi : Int) (view : Option (Int × Int)) (point : Int) :
    stripped { b with view := view, point := point } lo hi = stripped b lo hi := by
  obtain ⟨point₁, htail⟩ := cut_moved b.widen point hi b.size
  obtain ⟨point₂, hhead⟩ := cut_moved (b.widen.cut hi b.size) point₁ 0 lo
  change ({ (({ b.widen with point := point } : Buffer).cut hi b.size).cut 0 lo with
    point := 0 } : Buffer) = _
  rw [htail, hhead]
  rfl

/-- **Cutting away the context** cuts away what was outside the view, and nothing else. -/
theorem stripped_around (hv : b.ViewInText) (hne : b.SpansNonempty) (p : Partition) :
    stripped (b.around p) (b.low + p.textBefore.length) (b.high + p.textBefore.length)
      = stripped b b.low b.high := by
  have hlow := hv.low_nonneg
  have hle := hv.low_le_high
  have hhigh := hv.high_le_size
  have hlow' : b.low ≤ b.size := Int.le_trans hle hhigh
  let front : Buffer := b.widen.putRow b.low p.segmentsBefore
  have hsize : front.size = b.size + p.textBefore.length :=
    putRow_size (b := b.widen) hlow hlow' p.segmentsBefore
  have hfront : front.SpansNonempty :=
    SpansNonempty.putRow (b := b.widen) hne b.low p.segmentsBefore_ne_nil
  have hspot : b.high + p.textBefore.length ≤ front.size := by omega
  have hall : (b.around p).size = front.size + p.textAfter.length :=
    putRow_size (b := front) (by omega) hspot p.segmentsAfter
  -- the two cuts without the context, the head first
  have hcuts : ((b.around p).widen.cut (b.high + p.textBefore.length) (b.around p).size).cut 0
      (b.low + p.textBefore.length) = (b.widen.cut b.high b.size).cut 0 b.low := by
    calc ((b.around p).widen.cut (b.high + p.textBefore.length) (b.around p).size).cut 0
          (b.low + p.textBefore.length)
        = (front.cut (b.high + p.textBefore.length) front.size).cut 0
            (b.low + p.textBefore.length) := by
          -- the row behind the view stands at the start of the tail
          rw [hall]
          exact congrArg (Buffer.cut · 0 _)
            (cut_putRow hfront (by omega) (Int.le_refl _) hspot hspot p.segmentsAfter_ne_nil)
      _ = (front.cut 0 (b.low + p.textBefore.length)).cut (b.high - b.low) (b.size - b.low) := by
          rw [cut_cut hfront (Int.le_refl 0) (by omega) (by omega) hspot (Int.le_refl _)]
          congr 1 <;> omega
      _ = (b.widen.cut 0 b.low).cut (b.high - b.low) (b.size - b.low) := by
          -- now that the head is cut first, the row before the view stands at its end
          exact congrArg (Buffer.cut · _ _) (cut_putRow (b := b.widen) hne (Int.le_refl 0) hlow
            (Int.le_refl _) hlow' p.segmentsBefore_ne_nil)
      _ = (b.widen.cut b.high b.size).cut 0 b.low := by
          rw [cut_cut (b := b.widen) hne (Int.le_refl 0) hlow hle hhigh (Int.le_refl _),
            Int.sub_zero]
  unfold stripped
  rw [hcuts]

theorem length_markers_stripped (b : Buffer) (lo hi : Int) :
    (stripped b lo hi).markers.length = b.markers.length := by
  change ((b.widen.cut hi b.size).cut 0 lo).markers.length = _
  rw [← put_nil, put_markers, List.length_map, ← put_nil, put_markers, List.length_map]
  rfl

/-- **What is left behind both** is what the cuts leave of the buffer as it was, and the names of
the two markers. -/
theorem asBefore_surround (hv : b.ViewInText) (hne : b.SpansNonempty) (p : Partition)
    (view : Option (Int × Int)) (point : Int) :
    (stripped b b.low b.high).AsBefore
      (((stripped { b.surround p with view := view, point := point }
          (b.low + p.textBefore.length) (b.high + p.textBefore.length)).deleteMarker
        b.markers.length).deleteMarker (b.markers.length + 1)) := by
  let c : Buffer := { b.surround p with view := view, point := point }
  let bare := stripped c (b.low + p.textBefore.length) (b.high + p.textBefore.length)
  let after := (bare.deleteMarker b.markers.length).deleteMarker (b.markers.length + 1)
  have hbare : bare.markers.length = b.markers.length + 2 :=
    (length_markers_stripped _ _ _).trans (length_markers_surround b p)
  have hlen : after.markers.length = b.markers.length + 2 := by
    change ((bare.markers.modify _ _).modify _ _).length = _
    rw [List.length_modify, List.length_modify, hbare]
  have hupTo : after.upTo b.markers.length = stripped b b.low b.high := by
    calc after.upTo b.markers.length
        = bare.upTo b.markers.length := by
          -- the two that are deleted are forgotten
          exact (upTo_modifyMarker (Nat.le_succ _) _).trans (upTo_modifyMarker (Nat.le_refl _) _)
      _ = stripped (c.upTo b.markers.length) _ _ := upTo_stripped c _ _ _
      _ = stripped ((b.surround p).upTo b.markers.length) _ _ :=
          stripped_entered ((b.surround p).upTo _) _ _ view point
      _ = stripped (b.around p) _ _ := by rw [upTo_surround]
      _ = stripped b b.low b.high := stripped_around hv hne p
  rw [← hupTo]
  refine asBefore_upTo (hlen ▸ Nat.le_add_right _ 2) fun k hk => ?_
  -- it is one of the two markers, or a name that was never given out
  refine markerPosition_deleteMarker fun hlast => markerPosition_deleteMarker fun hfirst => ?_
  have hsecond : b.markers.length + 1 ≤ k := Nat.lt_of_le_of_ne hk (Ne.symm hfirst)
  have hbehind : bare.markers.length ≤ k := hbare ▸ Nat.lt_of_le_of_ne hsecond (Ne.symm hlast)
  rw [markerPosition, List.getElem?_eq_none hbehind]

/-- There is nothing to cut if the view is the whole text. -/
theorem stripped_of_no_view (hview : b.view = none) :
    stripped b b.low b.high = { b with point := 0 } := by
  have hlow : b.low = 0 := by rw [low, hview]
  have hhigh : b.high = b.size := by rw [high, hview]
  have hwiden : b.widen = b := by
    rw [widen, ← hview]
  rw [stripped, hlow, hhigh, cut_self, cut_self, hwiden]

/-! ### One after the other -/

/-- **What splicing makes** of any buffer whose view is a stretch of its text. -/
theorem splice_surround (hv : b.ViewInText) (hp : p.isEmpty = false) (narrow : Bool) :
    ∃ view point notices, Engine.unspliced.splice b (some p) narrow none
        = ⟨.ok true, { b.surround p with view := view, point := point },
            .spliced b.markers.length (b.markers.length + 1), notices⟩ ∧
      (Engine.spliced b.markers.length (b.markers.length + 1)).region?
          { b.surround p with view := view, point := point }
        = some (b.low + p.textBefore.length, b.high + p.textBefore.length) := by
  have hv' : ({ b with unlocked := true } : Buffer).ViewInText := hv.congr rfl rfl
  obtain ⟨view, point, hrun, hbetween⟩ := spliceText_surround hv' rfl p narrow
  refine ⟨view, point, ?_⟩
  unfold splice
  simp only [hp, Bool.false_eq_true, if_false, atomically, withUnlocked, hrun]
  exact ⟨_, rfl, hbetween.region?⟩

end Engine

namespace Desk

open Buffer

variable {d : Desk} {p : Partition}

theorem take_splice (he : d.engine = .unspliced) (hv : d.buffer.ViewInText)
    (hp : p.isEmpty = false) (narrow : Bool) :
    ∃ view point notices, d.take (.splice (some p) narrow none)
        = ⟨.ok (.truth true),
            { d with
              buffer := { d.buffer.surround p with view := view, point := point }
              engine := .spliced d.buffer.markers.length (d.buffer.markers.length + 1) },
            notices⟩ ∧
      (Engine.spliced d.buffer.markers.length (d.buffer.markers.length + 1)).region?
          { d.buffer.surround p with view := view, point := point }
        = some (d.buffer.low + p.textBefore.length, d.buffer.high + p.textBefore.length) := by
  obtain ⟨view, point, notices, hsplice, hregion⟩ := Engine.splice_surround hv hp narrow
  refine ⟨view, point, notices, ?_, hregion⟩
  simp only [take, respliced, he, hsplice]
  rfl

/-- **Splicing and then unsplicing** leaves what the cuts leave of the buffer as it was, with two
more names of markers. -/
theorem splice_unsplice (he : d.engine = .unspliced) (hv : d.buffer.ViewInText)
    (hne : d.buffer.SpansNonempty) (hp : p.isEmpty = false) (narrow : Bool) :
    let after := (d.take (.splice (some p) narrow none)).desk.take (.unsplice none)
    after.outcome = .ok (.truth true) ∧ after.desk.engine = .unspliced ∧
      after.desk.markers = d.markers ∧
      (Engine.stripped d.buffer d.buffer.low d.buffer.high).AsBefore after.desk.buffer := by
  intro after
  let n := d.buffer.markers.length
  obtain ⟨view, point, notices, hsplice, hregion⟩ := take_splice he hv hp narrow
  let c : Buffer := { d.buffer.surround p with view := view, point := point }
  let lo := d.buffer.low + p.textBefore.length
  let hi := d.buffer.high + p.textBefore.length
  obtain ⟨notices', hun⟩ := Engine.unsplice_eq hregion
  have hafter : after = ⟨.ok (.truth true), { d with
      buffer := ((Engine.stripped c lo hi).deleteMarker n).deleteMarker (n + 1)
      engine := .unspliced }, notices'⟩ := by
    change (d.take _).desk.take _ = _
    rw [hsplice]
    simp only [take, respliced, hun]
    rfl
  rw [hafter]
  exact ⟨rfl, rfl, rfl, Engine.asBefore_surround hv hne p view point⟩

/-- **What the spliced desk shows**: the context stands around what is in the view, and the region
is what was in the view. -/
theorem take_splice_text (he : d.engine = .unspliced) (hv : d.buffer.ViewInText)
    (hp : p.isEmpty = false) (narrow : Bool) :
    let spliced := d.take (.splice (some p) narrow none)
    spliced.outcome = .ok (.truth true) ∧
      spliced.desk.buffer.text = d.buffer.text.take d.buffer.low.toNat ++ p.textBefore
        ++ d.buffer.visible ++ p.textAfter ++ d.buffer.text.drop d.buffer.high.toNat ∧
      spliced.desk.UnsplicesTo d.buffer.visible := by
  intro spliced
  obtain ⟨view, point, notices, hsplice, hregion⟩ := take_splice he hv hp narrow
  have htext : (d.buffer.surround p).text = d.buffer.text.take d.buffer.low.toNat ++ p.textBefore
      ++ d.buffer.visible ++ p.textAfter ++ d.buffer.text.drop d.buffer.high.toNat :=
    (surround_text d.buffer p).trans (around_text hv p)
  have hshown : (d.buffer.surround p).slice (d.buffer.low + p.textBefore.length)
      (d.buffer.high + p.textBefore.length) = d.buffer.visible := by
    rw [slice, surround_text]
    exact around_slice hv p
  change (d.take _).outcome = _ ∧ (d.take _).desk.buffer.text = _ ∧ (d.take _).desk.UnsplicesTo _
  rw [hsplice]
  exact ⟨rfl, htext, hshown ▸ unsplicesTo hregion⟩

/-- **Splicing and unsplicing is not noticed** by a host that has not narrowed the buffer. The texts
of the context were around the text in between. Afterwards the text, the spans in their order and
the markers are as before, wherever they are and whichever way they move; no other marker is left,
there is no view, and the point is at the start. -/
theorem splice_unsplice_undone (he : d.engine = .unspliced) (hview : d.buffer.view = none)
    (hne : d.buffer.SpansNonempty) (hp : p.isEmpty = false) (narrow : Bool) :
    let spliced := d.take (.splice (some p) narrow none)
    let after := spliced.desk.take (.unsplice none)
    spliced.outcome = .ok (.truth true) ∧
      spliced.desk.buffer.text = p.textBefore ++ d.buffer.text ++ p.textAfter ∧
      after.outcome = .ok (.truth true) ∧ after.desk.engine = .unspliced ∧
      after.desk.markers = d.markers ∧
      ({ d.buffer with point := 0 } : Buffer).AsBefore after.desk.buffer := by
  intro spliced after
  have hv : d.buffer.ViewInText := viewInText_of_none hview
  have hlow : d.buffer.low = 0 := by rw [low, hview]
  have hhigh : d.buffer.high = d.buffer.size := by rw [high, hview]
  obtain ⟨hspliced, htext, -⟩ := take_splice_text he hv hp narrow
  obtain ⟨hafter, hengine, hmarkers, hbefore⟩ := splice_unsplice he hv hne hp narrow
  have hall : d.buffer.visible = d.buffer.text := by
    rw [visible, slice, hlow, hhigh]
    exact Text.slice_all d.buffer.text
  have hbehind : d.buffer.text.drop d.buffer.size.toNat = [] :=
    List.drop_eq_nil_of_le (Nat.le_of_eq (Int.toNat_natCast _).symm)
  refine ⟨hspliced, htext.trans ?_, hafter, hengine, hmarkers, ?_⟩
  · rw [hall, hlow, hhigh, hbehind, Int.toNat_zero, List.take_zero, List.nil_append,
      List.append_nil]
  · rw [← Engine.stripped_of_no_view hview]
    exact hbefore

/-- Context around a text with markers of both kinds at its ends and a deleted one, under spans that
overlap and end where the text does; then around no text at all, where all places are one. -/
theorem splice_unsplice_undone_ends :
    let p := Partition.between (Text.lit "x") (Text.lit "y")
    let d := ((fresh []).runAll false [.insert (.at 0) (Text.lit "ab") (some contextProps),
      .addSpan (.at 0) (.at 1) {}, .addSpan (.at 1) (.at 2) ⟨true, false, none⟩,
      .makeMarker (.at 0) true, .makeMarker (.at 0) false, .makeMarker (.at 2) true,
      .makeMarker (.at 2) false, .makeMarker (.at 1) true, .deleteMarker (.user 4)]).1
    let d' := ((fresh []).runAll false [.makeMarker (.at 0) true, .makeMarker (.at 0) false]).1
    d.buffer.markers = [⟨some 0, true⟩, ⟨some 0, false⟩, ⟨some 2, true⟩, ⟨some 2, false⟩,
        ⟨none, true⟩] ∧
      d.buffer.spans = [⟨0, 2, contextProps⟩, ⟨0, 1, {}⟩, ⟨1, 2, ⟨true, false, none⟩⟩] ∧
      ({ d.buffer with point := 0 } : Buffer).AsBefore
        ((d.take (.splice (some p) true none)).desk.take (.unsplice none)).desk.buffer ∧
      d'.buffer.markers = [⟨some 0, true⟩, ⟨some 0, false⟩] ∧
      ({ d'.buffer with point := 0 } : Buffer).AsBefore
        ((d'.take (.splice (some p) false none)).desk.take (.unsplice none)).desk.buffer := by
  intro p d d'
  have hmarkers : d.buffer.markers = [⟨some 0, true⟩, ⟨some 0, false⟩, ⟨some 2, true⟩,
      ⟨some 2, false⟩, ⟨none, true⟩] := by decide +kernel
  have hspans : d.buffer.spans
      = [⟨0, 2, contextProps⟩, ⟨0, 1, {}⟩, ⟨1, 2, ⟨true, false, none⟩⟩] := by decide +kernel
  have hmarkers' : d'.buffer.markers = [⟨some 0, true⟩, ⟨some 0, false⟩] := by decide +kernel
  have hne : d.buffer.SpansNonempty := by
    rw [SpansNonempty, hspans]
    decide
  have hne' : d'.buffer.SpansNonempty := by
    have hnone : d'.buffer.spans = [] := by decide +kernel
    rw [SpansNonempty, hnone]
    exact List.forall_mem_nil _
  obtain ⟨-, -, -, -, -, hback⟩ := splice_unsplice_undone (d := d) (p := p) (by decide +kernel)
    (by decide +kernel) hne rfl true
  obtain ⟨-, -, -, -, -, hback'⟩ := splice_unsplice_undone (d := d') (p := p) (by decide +kernel)
    (by decide +kernel) hne' rfl false
  exact ⟨hmarkers, hspans, hback, hmarkers', hback'⟩

/-- **What a narrowed buffer loses.** Splicing puts the context around what is in the view and
leaves the text outside where it is; unsplicing cuts both away. So what was in the view is all that
is left of the text, and it is the text that there was if and only if the view was the whole. -/
theorem splice_unsplice_narrowed (hd : d.Reachable) (he : d.engine = .unspliced)
    (hp : p.isEmpty = false) (narrow : Bool) :
    let spliced := d.take (.splice (some p) narrow none)
    let after := spliced.desk.take (.unsplice none)
    spliced.outcome = .ok (.truth true) ∧
      spliced.desk.buffer.text = d.buffer.text.take d.buffer.low.toNat ++ p.textBefore
        ++ d.buffer.visible ++ p.textAfter ++ d.buffer.text.drop d.buffer.high.toNat ∧
      after.outcome = .ok (.truth true) ∧ after.desk.engine = .unspliced ∧
      after.desk.buffer.text = d.buffer.visible ∧
      (after.desk.buffer.text = d.buffer.text ↔
        d.buffer.low = 0 ∧ d.buffer.high = d.buffer.size) := by
  intro spliced after
  have hv := hd.viewInText
  obtain ⟨hspliced, htext, hun⟩ := take_splice_text he hv hp narrow
  refine ⟨hspliced, htext, hun.outcome, hun.engine, hun.text, ?_⟩
  rw [show after.desk.buffer.text = d.buffer.visible from hun.text]
  constructor
  · -- a view that is shorter than the text shows less of it
    intro hall
    have hvisible := length_visible hv
    have hlow := hv.low_nonneg
    have hhigh := hv.high_le_size
    have hsize : (d.buffer.visible.length : Int) = d.buffer.size := by rw [hall, size]
    omega
  · rintro ⟨hlow, hhigh⟩
    rw [visible, slice, hlow, hhigh]
    exact Text.slice_all d.buffer.text

/-- Of six characters, the two in the view are left. -/
theorem splice_unsplice_narrowed_middle :
    let p := Partition.between (Text.lit "x") (Text.lit "y")
    let d := ((fresh (Text.lit "abcdef")).runAll false [.narrow (.at 1) (.at 3)]).1
    (d.take (.splice (some p) false none)).desk.buffer.text = Text.lit "ax\nbc\nydef" ∧
      ((d.take (.splice (some p) false none)).desk.take (.unsplice none)).desk.buffer.text
        = Text.lit "bc" := by
  intro p d
  have hd : d.Reachable := reachable_runAll (Text.lit "abcdef") false _ _
  have hbefore : d.engine = .unspliced ∧ d.buffer.text = Text.lit "abcdef" ∧
      d.buffer.low = 1 ∧ d.buffer.high = 3 ∧ d.buffer.visible = Text.lit "bc" := by decide +kernel
  obtain ⟨hengine, hall, hlow, hhigh, hvisible⟩ := hbefore
  obtain ⟨-, htext, -, -, hleft, -⟩ := splice_unsplice_narrowed hd hengine
    (show p.isEmpty = false from rfl) false
  rw [hall, hlow, hhigh, hvisible] at htext
  refine ⟨htext.trans ?_, hleft.trans hvisible⟩
  decide +kernel

end Desk

end LiterateEdit
