import LiterateEdit.Proofs.Context.InOrder
import LiterateEdit.Proofs.Script.Taken

/-!
# Every state of a script is well formed

Whatever the steps of a script are asked for, and whether they are refused, run with the protection
lifted or are taken back, the buffer is well formed in every state of the run, as long as spans are
added only to stretches of the text (`wellFormed_take`).

The engine is a different matter, because taking a group back sets back the buffer and not the
engine. If the group has spliced, the engine is left with markers that are detached; if it has
unspliced, the context is back and the engine knows nothing of it. So the engine knows its region in
every state of a run (`Desk.KnowsRegion`) if its markers are not deleted and if no step that is
undone has spliced or unspliced. An attempt that fails, or that is refused, does no harm anywhere.
-/

namespace LiterateEdit

/-- Does the step call the engine to splice or unsplice? -/
def Step.isResplice : Step → Bool
  | .splice _ _ _ => true
  | .unsplice _ => true
  | _ => false

namespace Desk

open Buffer

variable {d : Desk} {s : Step}

/-! ### What is asked of the steps -/

/-- A span that the step adds covers some characters of the text. -/
def coversText (d : Desk) : Step → Bool
  | .addSpan p q _ =>
    match d.place p, d.place q with
    | .ok x, .ok y => 0 ≤ x && x < y && y ≤ d.buffer.size
    | _, _ => true
  | _ => true

/-- The step deletes no marker of the engine. -/
def sparesRegion (d : Desk) : Step → Bool
  | .deleteMarker r =>
    match d.marker? r with
    | none => true
    | some m => d.marker? .regionStart != some m && d.marker? .regionStop != some m
  | _ => true

/-- The step splices or unsplices with success. -/
def resplices (d : Desk) (s : Step) : Bool :=
  match (d.take s).outcome with
  | .ok (.truth done) => s.isResplice && done
  | _ => false

/-! ### The buffer -/

/-- **A step keeps the buffer well formed.** -/
theorem wellFormed_take (hs : d.coversText s = true) (hd : d.buffer.WellFormed) :
    (d.take s).desk.buffer.WellFormed := by
  have hbasic : s.isBasic = true → (d.take s).desk.buffer.WellFormed := fun hs =>
    take_keeps (Engine.closed_wellFormed 0) hs hd
  cases s with
  | deleteMarker r =>
    refine edited_keeps hd fun b v h => ?_
    split at h
    · cases h
    · next m _ =>
      cases h
      exact hd.deleteMarker m
  | addSpan p q props =>
    refine edited_keeps hd fun b v h => ?_
    obtain ⟨p', hp, h⟩ := bind_eq_ok.1 h
    obtain ⟨q', hq, h⟩ := bind_eq_ok.1 h
    obtain ⟨r, hspan, h⟩ := bind_eq_ok.1 h
    cases h
    refine hd.addSpan hspan fun x y hx hy => ?_
    rw [coversText, place_eq hp hx, place_eq hq hy] at hs
    simp only [Bool.and_eq_true, decide_eq_true_eq] at hs
    exact ⟨hs.1.1, hs.1.2, hs.2⟩
  | splice p narrow fault => exact Engine.wellFormed_splice hd d.engine p narrow fault
  | unsplice fault => exact Engine.wellFormed_unsplice hd d.engine fault
  | _ => exact hbasic rfl

theorem upholds_wellFormed :
    Upholds (fun d => d.buffer.WellFormed) (fun d s => d.coversText s = true) (fun _ _ => True)
      fun _ => () where
  take _ _ hs hd := wellFormed_take hs hd
  quiet _ _ _ _ _ := rfl
  unlocked _ on hd := hd.setUnlocked on
  unlocked_shows _ _ := rfl
  back _ d' hd _ _ := hd.restoredAfter d'.buffer
  back_shows _ _ := rfl

/-! ### The engine -/

/-- A step that does not call the engine leaves it. -/
theorem take_engine (hs : s.isResplice = false) : (d.take s).desk.engine = d.engine := by
  have hedited : ∀ r, (d.edited r).desk.engine = d.engine := by
    intro r
    rcases d.edited_cases r with ⟨e, he⟩ | ⟨b, v, -, he⟩ <;> rw [he]
  cases s with
  | splice p narrow fault => cases hs
  | unsplice fault => cases hs
  | makeMarker p advances =>
    simp only [take]
    split <;> rfl
  | narrow p q =>
    simp only [take]
    split <;> rfl
  | insert p t props => exact hedited _
  | delete p q => exact hedited _
  | replaceRegion p q t => exact hedited _
  | goto p => exact hedited _
  | deleteMarker m => exact hedited _
  | addSpan p q props => exact hedited _
  | _ => rfl

/-- Splicing or unsplicing without success is refused or fails. -/
theorem outcome_ne_of_not_resplices {r : Engine.Result} (hs : s.isResplice = true)
    (htake : d.take s = d.respliced r) (h : d.resplices s = false) : r.outcome ≠ .ok true := by
  intro hr
  rw [resplices, htake, respliced, hr, Except.map, hs] at h
  cases h

/-- **A step that leaves the engine's markers attached leaves them in order.** -/
theorem inOrder_take (hs : d.sparesRegion s = true) (hd : d.buffer.WellFormed)
    (he : d.engine.InOrder d.buffer) :
    (d.take s).desk.engine.InOrder (d.take s).desk.buffer := by
  -- what is left to show where the engine is not called
  have hleft : s.isResplice = false →
      (∀ m m', d.buffer.Encloses m m' → d.engine = .spliced m m' →
        (d.take s).desk.buffer.Encloses m m') →
      (d.take s).desk.engine.InOrder (d.take s).desk.buffer := by
    intro hcalls hkeeps
    rw [take_engine hcalls]
    cases hengine : d.engine with
    | unspliced => trivial
    | spliced m m' =>
      rw [hengine] at he
      exact hkeeps m m' he hengine
  have hbasic : s.isBasic = true → s.isResplice = false →
      (d.take s).desk.engine.InOrder (d.take s).desk.buffer := fun hs hcalls =>
    hleft hcalls fun m m' hm _ =>
      take_keeps (Engine.closed_encloses hm.lt_length.1 hm.lt_length.2) hs hm
  cases s with
  | splice p narrow fault => exact (Engine.respliced_splice hd.view _ p narrow fault).inOrder he
  | unsplice fault => exact (Engine.respliced_unsplice he hd fault).inOrder he
  | deleteMarker r =>
    refine hleft rfl fun m m' hm hengine =>
      edited_keeps (I := fun b => b.Encloses m m') hm fun b v h => ?_
    split at h
    · cases h
    · next k hk =>
      cases h
      -- the marker that goes is none of the two
      have hstart : d.marker? .regionStart = some m := by rw [marker?, hengine]
      have hstop : d.marker? .regionStop = some m' := by rw [marker?, hengine]
      simp only [sparesRegion, hk, hstart, hstop, Bool.and_eq_true, bne_iff_ne, ne_eq,
        Option.some.injEq] at hs
      exact hm.modifyMarker (Ne.symm hs.1) (Ne.symm hs.2) _
  | addSpan p q props =>
    refine hleft rfl fun m m' hm _ =>
      edited_keeps (I := fun b => b.Encloses m m') hm fun b v h => ?_
    obtain ⟨p', -, h⟩ := bind_eq_ok.1 h
    obtain ⟨q', -, h⟩ := bind_eq_ok.1 h
    obtain ⟨r, hspan, h⟩ := bind_eq_ok.1 h
    obtain ⟨x, -, hspan⟩ := bind_eq_ok.1 hspan
    obtain ⟨y, -, hspan⟩ := bind_eq_ok.1 hspan
    cases hspan
    cases h
    exact hm.congr rfl rfl
  | _ => exact hbasic rfl rfl

/-- A step without success at splicing or unsplicing leaves the engine. -/
theorem take_engine_of_not_resplices (hs : d.resplices s = false) (hd : d.buffer.WellFormed)
    (he : d.engine.InOrder d.buffer) : (d.take s).desk.engine = d.engine := by
  cases s with
  | splice p narrow fault =>
    exact (Engine.respliced_splice hd.view _ p narrow fault).engine_eq
      (outcome_ne_of_not_resplices rfl rfl hs)
  | unsplice fault =>
    exact (Engine.respliced_unsplice he hd fault).engine_eq (outcome_ne_of_not_resplices rfl rfl hs)
  | _ => exact take_engine rfl

theorem upholds_inOrder :
    Upholds (fun d => d.buffer.WellFormed ∧ d.engine.InOrder d.buffer)
      (fun d s => d.coversText s = true ∧ d.sparesRegion s = true)
      (fun d s => d.resplices s = false) Desk.engine where
  take _ _ hs hd := ⟨wellFormed_take hs.1 hd.1, inOrder_take hs.2 hd.1 hd.2⟩
  quiet _ _ _ hQ hd := take_engine_of_not_resplices hQ hd.1 hd.2
  unlocked _ on hd := ⟨hd.1.setUnlocked on, hd.2.imp fun _ _ hm => hm.congr rfl rfl⟩
  unlocked_shows _ _ := rfl
  back d d' hd hknows hengine := by
    refine ⟨hd.1.restoredAfter d'.buffer, ?_⟩
    change d'.engine.InOrder (d.buffer.restoredAfter d'.buffer)
    rw [hengine]
    exact hd.2.imp fun m m' hm => hm.restoredAfter hknows.tracks
  back_shows _ _ := rfl

/-! ### Every state -/

/-- **The engine knows its region**: there is context exactly when it holds two markers, and these
are attached and in order. -/
def KnowsRegion (d : Desk) : Prop :=
  d.engine.isSpliced = true ↔
    ∃ start stop lo hi, d.marker? .regionStart = some start ∧ d.marker? .regionStop = some stop ∧
      d.buffer.markerPosition start = some lo ∧ d.buffer.markerPosition stop = some hi ∧
      0 ≤ lo ∧ lo ≤ hi ∧ hi ≤ d.buffer.size

theorem knowsRegion (hd : d.buffer.WellFormed) (he : d.engine.InOrder d.buffer) :
    d.KnowsRegion := by
  unfold KnowsRegion marker?
  cases hengine : d.engine with
  | unspliced =>
    constructor
    · intro h
      cases h
    · rintro ⟨start, stop, lo, hi, h, -⟩
      cases h
  | spliced start stop =>
    rw [hengine] at he
    obtain ⟨lo, hi, hregion⟩ := he.exists_region hd
    obtain ⟨hlo, hhi, hbounds⟩ := Engine.region?_eq_some_iff.1 hregion
    exact ⟨fun _ => ⟨start, stop, lo, hi, rfl, rfl, hlo, hhi, hbounds⟩, fun _ => rfl⟩

/-- **Every state of a script is well formed.** The steps may be asked for anything, and be refused,
run with the protection lifted or be taken back; spans are added to stretches of the text only. In
every state the point lies in the view and the view in the text, the attached markers are in the
text, and every span covers some characters of it. If moreover the engine's markers are not deleted
and no step that is undone has spliced or unspliced, the engine knows its region in every state. -/
theorem run_well_formed (file : Option Path) (t : Text) (stops : Bool) (steps : List Step)
    (hspans : ∀ x ∈ (freshFor file t).takenAll stops steps, x.desk.coversText x.step = true) :
    Through (fun d => d.buffer.WellFormed) ((freshFor file t).runAll stops steps).1
        ((freshFor file t).runAll stops steps).2.1 ∧
      ((∀ x ∈ (freshFor file t).takenAll stops steps, x.desk.sparesRegion x.step = true) →
        (∀ x ∈ (freshFor file t).takenAll stops steps,
          x.undone = true → x.desk.resplices x.step = false) →
        Through KnowsRegion ((freshFor file t).runAll stops steps).1
          ((freshFor file t).runAll stops steps).2.1) := by
  have hstart : (freshFor file t).buffer.WellFormed := (WellFormed.ofText t).setFile file
  refine ⟨?_, fun hspares hundone => ?_⟩
  · exact (upholds_wellFormed.run_and_runAll.2 _ stops steps
      (fun x hx => ⟨hspans x hx, fun _ => trivial⟩) hstart).1
  · obtain ⟨⟨hlast, hrecords⟩, -⟩ := upholds_inOrder.run_and_runAll.2 _ stops steps
      (fun x hx => ⟨⟨hspans x hx, hspares x hx⟩, hundone x hx⟩) ⟨hstart, trivial⟩
    exact ⟨knowsRegion hlast.1 hlast.2, fun r hr =>
      knowsRegion (hrecords r hr).1 (hrecords r hr).2⟩

/-- Context is put around an empty view, and then text at both markers at once. Before that, a
splice that breaks off is undone with its group. Behind it, so is a group that deletes context, asks
for a second splice, which is refused, and ends with a view that is not in the text. In the end the
context is taken away. -/
theorem run_well_formed_spliced :
    let p := Partition.between (Text.lit "x") (Text.lit "y")
    let steps : List Step := [.insert (.at 0) (Text.lit "abcdef") none, .makeMarker (.at 6) true,
      .addSpan (.at 4) (.user 0) ⟨true, false, none⟩, .narrow (.at 3) (.at 3),
      .atomic [.widen, .splice (some p) false (some 2)] true false,
      .splice (some p) true none, .insert .regionStart (Text.lit "z") none,
      .atomic [.widen, .unlocked [.delete (.at 3) .regionStart] true, .splice (some p) false none,
        .narrow (.at 2) (.at 99)] true false,
      .goto (.at 99), .delete (.at 0) (.user 0), .unsplice none]
    (∃ r ∈ ((freshFor none []).runAll false steps).2.1,
        r.desk.engine.isSpliced = true ∧ r.desk.buffer.text = Text.lit "abcx\nz\nydef" ∧
          r.desk.buffer.view = some (5, 6)) ∧
      ((freshFor none []).runAll false steps).1.buffer.text = Text.lit "z" ∧
      Through (fun d => d.buffer.WellFormed) ((freshFor none []).runAll false steps).1
        ((freshFor none []).runAll false steps).2.1 ∧
      Through KnowsRegion ((freshFor none []).runAll false steps).1
        ((freshFor none []).runAll false steps).2.1 := by
  intro p steps
  have hspans : ∀ x ∈ (freshFor none []).takenAll false steps, x.desk.coversText x.step = true := by
    decide +kernel
  have hspares : ∀ x ∈ (freshFor none []).takenAll false steps,
      x.desk.sparesRegion x.step = true := by decide +kernel
  have hundone : ∀ x ∈ (freshFor none []).takenAll false steps,
      x.undone = true → x.desk.resplices x.step = false := by decide +kernel
  have hspliced : ∃ r ∈ ((freshFor none []).runAll false steps).2.1,
      r.desk.engine.isSpliced = true ∧ r.desk.buffer.text = Text.lit "abcx\nz\nydef" ∧
        r.desk.buffer.view = some (5, 6) := by decide +kernel
  have htext : ((freshFor none []).runAll false steps).1.buffer.text = Text.lit "z" := by
    decide +kernel
  obtain ⟨hbuffer, hengine⟩ := run_well_formed none [] false steps hspans
  exact ⟨hspliced, htext, hbuffer, hengine hspares hundone⟩

end Desk

end LiterateEdit
