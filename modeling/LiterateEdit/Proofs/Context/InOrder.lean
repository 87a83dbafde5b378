import LiterateEdit.Proofs.Buffer.WellFormed
import LiterateEdit.Proofs.Context.Fault

/-!
# The region of the engine stays in order

While there is context, the engine holds the two markers of the editable region, and everything that
it does later rests on their order. Splicing makes them so that the first one stays and the second
one advances, and then an edit cannot bring them out of order, wherever it is: text that is put in
at both of them ends up between them (`Buffer.Encloses.put`). Nothing else that a buffer goes
through moves them, and a buffer that is taken back has them where they were
(`Encloses.restoredAfter`); they go only if somebody gives them up.

`Engine.InOrder` says this of an engine and its buffer. In a well-formed buffer it makes a region of
the two markers (`InOrder.exists_region`), so that unsplicing does not find its markers stale. Hence
splicing and unsplicing do one of three things, and no other: nothing, nothing but a failure that is
taken back, or what they are for (`Respliced`).
-/

namespace LiterateEdit

namespace Buffer

variable {b b' : Buffer} {m m' k : MarkerId} {i j : Int} {p q : Pos} {t : Text} {n : Nat}

/-! ### Two markers around a stretch -/

namespace Encloses

/-- What leaves the two markers alone leaves them around the stretch. -/
theorem congr (h : b.Encloses m m') (hm : b'.markers[m]? = b.markers[m]?)
    (hm' : b'.markers[m']? = b.markers[m']?) : b'.Encloses m m' := by
  obtain ⟨lo, hi, hstart, hstop, hle⟩ := h
  exact ⟨lo, hi, hm.trans hstart, hm'.trans hstop, hle⟩

/-- **An edit** does not bring them out of order. -/
theorem put (h : b.Encloses m m') (hij : i ≤ j) : (b.put i j t).Encloses m m' := by
  obtain ⟨lo, hi, hstart, hstop, hle⟩ := h
  exact ⟨_, _, markers_put_getElem? hstart, markers_put_getElem? hstop,
    afterPut_mono hle hij (Int.natCast_nonneg _)⟩

theorem lt_length (h : b.Encloses m m') : m < b.markers.length ∧ m' < b.markers.length := by
  obtain ⟨lo, hi, hstart, hstop, -⟩ := h
  exact ⟨(List.getElem?_eq_some_iff.1 hstart).1, (List.getElem?_eq_some_iff.1 hstop).1⟩

/-- New markers are none of the two. -/
theorem push (h : b.Encloses m m') (more : List Marker) :
    ({ b with markers := b.markers ++ more } : Buffer).Encloses m m' :=
  h.congr (List.getElem?_append_left h.lt_length.1) (List.getElem?_append_left h.lt_length.2)

/-- Another marker may be changed. -/
theorem modifyMarker (h : b.Encloses m m') (hm : k ≠ m) (hm' : k ≠ m') (f : Marker → Marker) :
    (b.modifyMarker k f).Encloses m m' :=
  h.congr (List.getElem?_modify_ne _ _ hm) (List.getElem?_modify_ne _ _ hm')

/-- **A buffer that is taken back** has the two markers where they were. -/
theorem restoredAfter (h : b.Encloses m m') (htracks : b.Tracks b') :
    (b.restoredAfter b').Encloses m m' := by
  rw [htracks.restoredAfter_eq]
  exact h.push _

theorem narrow (h : b.Encloses m m') (p q : Pos) : (b.narrow p q).2.Encloses m m' := by
  rcases b.narrow_cases p q with ⟨-, e, heq⟩ | ⟨x, y, -, -, ⟨-, -, heq⟩ | ⟨-, z, -, -, heq⟩⟩
  · rw [heq]
    exact h
  · rw [heq]
    exact h.congr rfl rfl
  · -- what half a narrowing leaves behind is new
    rw [heq]
    exact (h.push _).congr rfl rfl

end Encloses

end Buffer

namespace Engine

open Buffer

variable {b b' : Buffer} {e : Engine} {m m' : MarkerId} {lo hi : Int} {n : Nat} {fault : Option Nat}

/-- Attempts leave markers around a stretch there that were there before them. -/
theorem closed_encloses (hm : m < n) (hm' : m' < n) : Closed n fun b => b.Encloses m m' where
  insert hins h := by
    obtain ⟨i, -, -, -, rfl⟩ := insert_eq_ok_iff.1 hins
    exact (h.put (Int.le_refl i)).congr rfl rfl
  delete hdel h := by
    obtain ⟨x, y, -, -, -, -, rfl⟩ := delete_eq_ok_iff.1 hdel
    rw [← put_nil]
    exact h.put (by omega)
  makeMarker hmake h := by
    obtain ⟨x, -, -, rfl⟩ := makeMarker_eq_ok_iff.1 hmake
    exact h.push _
  turn advances hn h :=
    h.modifyMarker (Nat.ne_of_gt (Nat.lt_of_lt_of_le hm hn))
      (Nat.ne_of_gt (Nat.lt_of_lt_of_le hm' hn)) _
  goto hgoto h := by
    obtain ⟨x, -, hx⟩ := bind_eq_ok.1 hgoto
    cases hx
    exact h.congr rfl rfl
  narrow p q h := h.narrow p q
  widen h := h.congr rfl rfl

theorem closed_wellFormed (n : Nat) : Closed n WellFormed where
  insert hins h := h.insert hins
  delete hdel h := h.delete hdel
  makeMarker hmake h := h.makeMarker hmake
  turn advances _ h := h.setAdvances _ advances
  goto hgoto h := h.goto hgoto
  narrow p q h := h.narrow p q
  widen h := h.widen

/-! ### Splicing and unsplicing keep a buffer well formed -/

theorem wellFormed_splice (hb : b.WellFormed) (e : Engine) (p : Option Partition) (narrow : Bool)
    (fault : Option Nat) : (e.splice b p narrow fault).buffer.WellFormed := by
  rcases e.splice_cases b p narrow fault with
    ⟨notices, h⟩ | ⟨q, err, c, hrun, h⟩ | ⟨q, m, c, notices, hrun, h⟩
  · rw [h]
    exact hb
  · rw [h]
    exact hb.restoredAfter _
  · have hc : (spliceText fault q narrow { b with unlocked := true }).2.WellFormed :=
      (closed_wellFormed _).spliceText q narrow (hb.setUnlocked true)
    rw [hrun] at hc
    rw [h]
    exact hc.setUnlocked _

theorem wellFormed_unsplice (hb : b.WellFormed) (e : Engine) (fault : Option Nat) :
    (e.unsplice b fault).buffer.WellFormed := by
  rcases e.unsplice_cases b fault with
    ⟨-, h⟩ | ⟨start, stop, -, ⟨notices, -, h⟩ | ⟨err, c, hrun, h⟩ | ⟨c, notices, hrun, h⟩⟩
  · rw [h]
    exact hb
  · rw [h]
    exact (hb.deleteMarker start).deleteMarker stop
  · rw [h]
    exact hb.restoredAfter _
  · have hc : (unspliceText fault start stop { b with unlocked := true }).2.WellFormed :=
      (closed_wellFormed 0).unspliceText start stop (hb.setUnlocked true)
    rw [hrun] at hc
    rw [h]
    exact ((hc.setUnlocked _).deleteMarker start).deleteMarker stop

/-! ### The engine and its region -/

/-- **The markers of the engine are in order**, if there is context. -/
def InOrder (b : Buffer) : Engine → Prop
  | .unspliced => True
  | .spliced start stop => b.Encloses start stop

theorem InOrder.imp (h : e.InOrder b)
    (hkeeps : ∀ m m', b.Encloses m m' → b'.Encloses m m') : e.InOrder b' := by
  cases e with
  | unspliced => trivial
  | spliced start stop => exact hkeeps start stop h

/-- In a well-formed buffer the two markers make a region. -/
theorem InOrder.exists_region (h : (Engine.spliced m m').InOrder b) (hb : b.WellFormed) :
    ∃ lo hi, (Engine.spliced m m').region? b = some (lo, hi) := by
  obtain ⟨lo, hi, hstart, hstop, hle⟩ := h
  have hlo : b.markerPosition m = some lo := by rw [markerPosition, hstart]
  have hhi : b.markerPosition m' = some hi := by rw [markerPosition, hstop]
  exact ⟨lo, hi, region?_eq_some_iff.2
    ⟨hlo, hhi, (hb.markerPosition hlo).1, hle, (hb.markerPosition hhi).2⟩⟩

/-! ### What splicing and unsplicing do -/

/-- **What comes of splicing or unsplicing**: nothing, a failure that is taken back, or a success
that turns the engine round and leaves its markers in order. -/
inductive Respliced (b : Buffer) (e : Engine) : Result → Prop
  | refused (notices : List Notice) : Respliced b e ⟨.ok false, b, e, notices⟩
  | failed (err : EditError) {b' : Buffer} (h : b.Tracks b') :
      Respliced b e ⟨.error err, b.restoredAfter b', e, []⟩
  | done {b' : Buffer} {e' : Engine} (notices : List Notice) (h : e'.InOrder b') :
      Respliced b e ⟨.ok true, b', e', notices⟩

theorem Respliced.inOrder {r : Result} (h : Respliced b e r) (he : e.InOrder b) :
    r.engine.InOrder r.buffer := by
  cases h with
  | refused notices => exact he
  | failed err htracks => exact he.imp fun m m' hm => hm.restoredAfter htracks
  | done notices hdone => exact hdone

/-- Only a success turns the engine round. -/
theorem Respliced.engine_eq {r : Result} (h : Respliced b e r) (hr : r.outcome ≠ .ok true) :
    r.engine = e := by
  cases h with
  | refused notices => rfl
  | failed err htracks => rfl
  | done notices hdone => exact absurd rfl hr

theorem respliced_splice (hv : b.ViewInText) (e : Engine) (p : Option Partition) (narrow : Bool)
    (fault : Option Nat) : Respliced b e (e.splice b p narrow fault) := by
  rcases e.splice_cases b p narrow fault with
    ⟨notices, h⟩ | ⟨q, err, c, hrun, h⟩ | ⟨q, m, c, notices, hrun, h⟩
  · rw [h]
    exact .refused notices
  · rw [h]
    exact .failed err (leads_unlocked (fun c => leads_spliceText q narrow c) hrun).tracks_self
  · have hview : ({ b with unlocked := true } : Buffer).ViewInText := hv.congr rfl rfl
    have hencloses : c.Encloses m.1 m.2 := encloses_of_spliceText hview rfl hrun
    rw [h]
    exact .done notices (hencloses.congr rfl rfl)

theorem respliced_unsplice (he : e.InOrder b) (hb : b.WellFormed) (fault : Option Nat) :
    Respliced b e (e.unsplice b fault) := by
  rcases e.unsplice_cases b fault with
    ⟨-, h⟩ | ⟨start, stop, rfl, ⟨notices, hstale, h⟩ | ⟨err, c, hrun, h⟩ | ⟨c, notices, -, h⟩⟩
  · rw [h]
    exact .refused []
  · -- markers in order make a region
    obtain ⟨lo, hi, hregion⟩ := he.exists_region hb
    rw [hregion] at hstale
    cases hstale
  · rw [h]
    exact .failed err (leads_unlocked (fun c => leads_unspliceText start stop c) hrun).tracks_self
  · rw [h]
    exact .done notices trivial

end Engine

end LiterateEdit
