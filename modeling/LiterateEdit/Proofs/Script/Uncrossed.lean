import LiterateEdit.Proofs.Script.Unspliced

/-!
# The markers of the engine never cross

A host may do anything to a buffer with context, and it may even give up the markers of the engine.
What it cannot do is bring them out of order. As long as both are attached, the first one is not
behind the second one (`Buffer.Uncrossed`). Every change of a buffer keeps this except one that
tells a marker to advance, and operations only do that to markers that they have made themselves
(`Change.uncrossed`).

That the markers are in order is also what `Buffer.Encloses` says, but of markers that nobody gives
up. Here they may go, and so there may be no region. If there is one, a text that is put in its
place is the region then (`Uncrossed.region?_put`).

`Engine.Sound` adds that the view and the markers are in the text. A script that does not splice or
unsplice keeps all of it in every state (`Desk.upholds_sound`).
-/

namespace LiterateEdit

/-! ### Markers that do not cross -/

namespace Buffer

variable {b b' : Buffer} {m m' : MarkerId} {i j lo hi : Int} {t : Text} {n : Nat} {x : Marker}

/-- **Two markers do not cross**: the first one stays before text that is put in and the second one
advances, and as long as both are attached they are in order. -/
def Uncrossed (b : Buffer) (start stop : MarkerId) : Prop :=
  ∃ k k', b.markers[start]? = some k ∧ b.markers[stop]? = some k' ∧
    k.advances = false ∧ k'.advances = true ∧
    ∀ lo hi, k.position = some lo → k'.position = some hi → lo ≤ hi

theorem Encloses.uncrossed (h : b.Encloses m m') : b.Uncrossed m m' := by
  obtain ⟨lo, hi, hstart, hstop, hle⟩ := h
  refine ⟨_, _, hstart, hstop, rfl, rfl, fun x y hx hy => ?_⟩
  cases hx
  cases hy
  exact hle

/-- Giving up a marker moves none. -/
theorem markers_deleteMarker (h : b.markers[m]? = some x) (k : MarkerId) :
    ∃ x', (b.deleteMarker k).markers[m]? = some x' ∧ x'.advances = x.advances ∧
      ∀ p, x'.position = some p → x.position = some p := by
  by_cases hk : k = m
  · subst hk
    refine ⟨x.detached, ?_, rfl, fun p hp => ?_⟩
    · change (b.markers.modify k Marker.detached)[k]? = some x.detached
      rw [List.getElem?_modify_eq, h]
      rfl
    · cases hp
  · exact ⟨x, (List.getElem?_modify_ne _ _ hk).trans h, rfl, fun _ hp => hp⟩

namespace Uncrossed

/-- What leaves the two markers alone. -/
theorem congr (h : b.Uncrossed m m') (hm : b'.markers[m]? = b.markers[m]?)
    (hm' : b'.markers[m']? = b.markers[m']?) : b'.Uncrossed m m' := by
  obtain ⟨k, k', hstart, hstop, h⟩ := h
  exact ⟨k, k', hm.trans hstart, hm'.trans hstop, h⟩

theorem lt_length (h : b.Uncrossed m m') : m < b.markers.length ∧ m' < b.markers.length := by
  obtain ⟨k, k', hstart, hstop, -⟩ := h
  exact ⟨(List.getElem?_eq_some_iff.1 hstart).1, (List.getElem?_eq_some_iff.1 hstop).1⟩

/-- New markers are none of the two. -/
theorem push (h : b.Uncrossed m m') (more : List Marker) :
    ({ b with markers := b.markers ++ more } : Buffer).Uncrossed m m' :=
  h.congr (List.getElem?_append_left h.lt_length.1) (List.getElem?_append_left h.lt_length.2)

/-- **An edit** does not make them cross, since text that is put in at both of them ends up between
them. -/
theorem put (h : b.Uncrossed m m') (hij : i ≤ j) : (b.put i j t).Uncrossed m m' := by
  obtain ⟨k, k', hstart, hstop, hstays, hadvances, hle⟩ := h
  refine ⟨_, _, markers_put_getElem? hstart, markers_put_getElem? hstop, hstays, hadvances, ?_⟩
  intro p q hp hq
  obtain ⟨lo, hlo, rfl⟩ := Option.map_eq_some_iff.1 hp
  obtain ⟨hi, hhi, rfl⟩ := Option.map_eq_some_iff.1 hq
  rw [hstays, hadvances]
  exact afterPut_mono (hle lo hi hlo hhi) hij (Int.natCast_nonneg _)

/-- Either of them may be given up. -/
theorem deleteMarker (h : b.Uncrossed m m') (k : MarkerId) :
    (b.deleteMarker k).Uncrossed m m' := by
  obtain ⟨x, y, hstart, hstop, hstays, hadvances, hle⟩ := h
  -- what has a place afterwards had it before
  obtain ⟨x', hx', hsame, hplace⟩ := markers_deleteMarker hstart k
  obtain ⟨y', hy', hsame', hplace'⟩ := markers_deleteMarker hstop k
  exact ⟨x', y', hx', hy', hsame.trans hstays, hsame'.trans hadvances,
    fun lo hi hlo hhi => hle lo hi (hplace lo hlo) (hplace' hi hhi)⟩

/-- A buffer that is taken back has the two markers as they were. -/
theorem restoredAfter (h : b.Uncrossed m m') (htracks : b.Tracks b') :
    (b.restoredAfter b').Uncrossed m m' := by
  rw [htracks.restoredAfter_eq]
  exact h.push _

end Uncrossed

/-- **A change does not make two markers cross** that were there before its operation began. -/
theorem Change.uncrossed (h : Change n b b') (hm : m < n) (hm' : m' < n)
    (hb : b.Uncrossed m m') : b'.Uncrossed m m' := by
  cases h with
  | edit t hi hij hj => exact hb.put hij
  | mark advances h₀ hx => exact hb.push _
  | detach k => exact hb.deleteMarker k
  | turn hk advances =>
    -- the marker that is told to advance is one that the operation has made
    exact hb.congr (List.getElem?_modify_ne _ _ (Nat.ne_of_gt (Nat.lt_of_lt_of_le hm hk)))
      (List.getElem?_modify_ne _ _ (Nat.ne_of_gt (Nat.lt_of_lt_of_le hm' hk)))
  | cover ss => exact hb.congr rfl rfl
  | move x => exact hb.congr rfl rfl
  | confine h₀ hxy hy => exact hb.congr rfl rfl
  | release => exact hb.congr rfl rfl

theorem Leads.uncrossed (h : Leads n b b') (hm : m < n) (hm' : m' < n) (hb : b.Uncrossed m m') :
    b'.Uncrossed m m' := by
  induction h with
  | refl => exact hb
  | tail _ hlast ih => exact hlast.uncrossed hm hm' ih

theorem Becomes.uncrossed (h : b.Becomes b') (hb : b.Uncrossed m m') : b'.Uncrossed m m' := by
  cases h with
  | done h => exact h.uncrossed hb.lt_length.1 hb.lt_length.2 hb
  | undone h => exact hb.restoredAfter h.tracks_self

/-- In the text, two markers that do not cross and are both attached are the ends of a region. -/
theorem Uncrossed.region? (h : b.Uncrossed m m') (hmarkers : b.MarkersInText)
    (hlo : b.markerPosition m = some lo) (hhi : b.markerPosition m' = some hi) :
    (Engine.spliced m m').region? b = some (lo, hi) := by
  obtain ⟨k, k', hstart, hstop, -, -, hle⟩ := h
  have hk : k.position = some lo := by rwa [markerPosition, hstart] at hlo
  have hk' : k'.position = some hi := by rwa [markerPosition, hstop] at hhi
  obtain ⟨h₀, -⟩ := hmarkers k (List.mem_of_getElem? hstart) lo hk
  obtain ⟨-, hsize⟩ := hmarkers k' (List.mem_of_getElem? hstop) hi hk'
  exact Engine.region?_eq_some_iff.2 ⟨hlo, hhi, h₀, hle lo hi hk hk', hsize⟩

/-- **A new text in the place of the region** is the region. -/
theorem Uncrossed.region?_put (h : b.Uncrossed m m')
    (hregion : (Engine.spliced m m').region? b = some (lo, hi)) :
    (Engine.spliced m m').region? (b.put lo hi t) = some (lo, lo + t.length) := by
  obtain ⟨hlo, hhi, h₀, hle, hsize⟩ := Engine.region?_eq_some_iff.1 hregion
  obtain ⟨k, k', hstart, hstop, hstays, hadvances, -⟩ := h
  have hk : k.position = some lo := by rwa [markerPosition, hstart] at hlo
  have hk' : k'.position = some hi := by rwa [markerPosition, hstop] at hhi
  -- the first marker stays before the new text, and the second one ends up behind it
  have hlo' : (b.put lo hi t).markerPosition m = some lo := by
    rw [markerPosition, markers_put_getElem? hstart]
    change k.position.map _ = some lo
    rw [hk, Option.map_some, hstays, afterPut_of_le (Int.le_refl lo) hle]
  have hhi' : (b.put lo hi t).markerPosition m' = some (lo + t.length) := by
    rw [markerPosition, markers_put_getElem? hstop]
    change k'.position.map _ = some (lo + t.length)
    rw [hk', Option.map_some, hadvances, afterPut_of_ge (Int.le_refl hi)]
    congr 1
    omega
  have hlen : (0 : Int) ≤ t.length := Int.natCast_nonneg _
  have hput : (b.put lo hi t).size = b.size - (hi - lo) + t.length := put_size h₀ hle hsize
  exact Engine.region?_eq_some_iff.2 ⟨hlo', hhi', h₀, by omega, by omega⟩

end Buffer

/-! ### The engine and its buffer -/

namespace Engine

open Buffer

variable {e : Engine} {b b' : Buffer}

/-- **What holds of the buffer of a session**, whatever a host does to it: the view and the attached
markers are in the text, and the engine's markers do not cross. -/
structure Sound (e : Engine) (b : Buffer) : Prop where
  view : b.ViewInText
  markers : b.MarkersInText
  uncrossed : ∀ start stop, e = .spliced start stop → b.Uncrossed start stop

namespace Sound

/-- **An operation on the buffer** that is not one of the engine keeps it, done or undone. -/
theorem becomes (h : e.Sound b) (hb : b.Becomes b') : e.Sound b' where
  view := hb.viewInText h.view
  markers := hb.markersInText h.view h.markers
  uncrossed start stop he := hb.uncrossed (h.uncrossed start stop he)

/-- What leaves the text, the view and the markers alone. -/
theorem congr (h : e.Sound b) (htext : b'.text = b.text) (hview : b'.view = b.view)
    (hmarkers : b'.markers = b.markers) : e.Sound b' := by
  have hsize : b'.size = b.size := by rw [Buffer.size, Buffer.size, htext]
  refine ⟨h.view.congr hview hsize, fun k hk => ?_, fun start stop he => ?_⟩
  · rw [hsize]
    exact h.markers k (hmarkers ▸ hk)
  · exact (h.uncrossed start stop he).congr (by rw [hmarkers]) (by rw [hmarkers])

theorem restoredAfter (h : e.Sound b) (htracks : b.Tracks b') : e.Sound (b.restoredAfter b') where
  view := h.view.restoredAfter b'
  markers := h.markers.restoredAfter b'
  uncrossed start stop he := (h.uncrossed start stop he).restoredAfter htracks

/-- Splicing a buffer with nothing but a text. -/
theorem splice (t : Text) (p : Option Partition) (narrow : Bool) :
    (Engine.unspliced.splice (.ofText t) p narrow none).engine.Sound
      (Engine.unspliced.splice (.ofText t) p narrow none).buffer := by
  have hview : (Buffer.ofText t).ViewInText := viewInText_of_none rfl
  have hwell := wellFormed_splice (.ofText t) .unspliced p narrow none
  have horder := (respliced_splice hview .unspliced p narrow none).inOrder trivial
  refine ⟨hwell.view, hwell.markers, fun start stop he => ?_⟩
  rw [he] at horder
  exact Encloses.uncrossed horder

end Sound

end Engine

/-- What holds of the buffer holds in every state of a script that leaves the engine alone. -/
theorem Desk.upholds_sound (e : Engine) :
    Upholds (fun d => d.engine = e ∧ e.Sound d.buffer) (fun _ s => s.isResplice = false)
      (fun _ _ => True) Desk.engine where
  take d s hs hd := ⟨(take_engine hs).trans hd.1, hd.2.becomes (d.take_becomes s)⟩
  quiet _ _ hs _ _ := take_engine hs
  unlocked _ _ hd := ⟨hd.1, hd.2.congr rfl rfl rfl⟩
  unlocked_shows _ _ := rfl
  back _ _ hd hknows hengine := ⟨hengine.trans hd.1, hd.2.restoredAfter hknows.tracks⟩
  back_shows _ _ := rfl

end LiterateEdit
