import LiterateEdit.Proofs.Context.Rename
import LiterateEdit.Proofs.Script.Run
import Mathlib.Data.List.Forall2

/-!
# Scripts under other names of markers

A script never sees the name of a marker: it counts the markers that it made itself and speaks of
the engine's markers as the ends of the region. Two desks that differ in the names only
(`Desk.Renamed`) can therefore not be told apart by any script: every step gives the same result and
tells the same, and leaves two desks that differ in the names only (`Renamed.run_and_runAll`). What
a host can see of two such desks is the same (`Desk.Resembles`).
-/

namespace LiterateEdit

namespace Desk

open Buffer

variable {α β : Type} {σ : MarkerId → MarkerId} {d d' : Desk} {s : Step}

/-! ### Desks that look the same -/

/-- **What a host can see of a desk** is the same: the buffer but for the names of its markers, the
engine with its region, and the markers that the script made, with their places. -/
structure Resembles (d d' : Desk) : Prop where
  buffer : d'.buffer = { d.buffer with markers := d'.buffer.markers }
  spliced : d'.engine.isSpliced = d.engine.isSpliced
  region : d'.engine.region? d'.buffer = d.engine.region? d.buffer
  editable : d'.engine.editable d'.buffer = d.engine.editable d.buffer
  markers : d'.markers.map (fun m => d'.buffer.markers[m]?)
    = d.markers.map fun m => d.buffer.markers[m]?

/-- Two records that cannot be told apart. -/
structure SameRecord (r r' : StepRecord) : Prop where
  outcome : r'.outcome = r.outcome
  notices : r'.notices = r.notices
  desk : r.desk.Resembles r'.desk

/-- **Two runs of a script that cannot be told apart**: record by record, and in the failure that
stopped them. -/
structure SameRun (x y : Desk × List StepRecord × Option EditError) : Prop where
  last : x.1.Resembles y.1
  records : List.Forall₂ SameRecord x.2.1 y.2.1
  failure : y.2.2 = x.2.2

/-! ### Desks that differ in the names of the markers -/

/-- The desk `d'` is `d` but for the names of the markers. -/
structure Renamed (σ : MarkerId → MarkerId) (d d' : Desk) : Prop where
  buffer : d.buffer.Renamed σ d'.buffer
  engine : d'.engine = d.engine.rename σ
  markers : d'.markers = d.markers.map σ

namespace Renamed

theorem resembles (h : d.Renamed σ d') : d.Resembles d' := by
  refine ⟨?_, ?_, ?_, ?_, ?_⟩
  · exact h.buffer.same
  · rw [h.engine, Engine.isSpliced_rename]
  · rw [h.engine, Engine.region?_rename _ h.buffer]
  · rw [h.engine, Engine.editable_rename _ h.buffer]
  · rw [h.markers, List.map_map]
    exact List.map_congr_left fun m _ => h.buffer.names.lookup m

theorem setUnlocked (h : d.Renamed σ d') (on : Bool) :
    (d.setUnlocked on).Renamed σ (d'.setUnlocked on) :=
  ⟨h.buffer.setUnlocked on, h.engine, h.markers⟩

theorem restoredAfter {e e' : Desk} (h : d.Renamed σ d') (he : e.Renamed σ e') :
    (d.restoredAfter e).Renamed σ (d'.restoredAfter e') :=
  ⟨h.buffer.restoredAfter he.buffer, he.engine, he.markers⟩

/-! ### Positions that a script names -/

theorem marker? (h : d.Renamed σ d') (r : Ref) : d'.marker? r = (d.marker? r).map σ := by
  cases r with
  | «at» n => rfl
  | user i => rw [Desk.marker?, Desk.marker?, h.markers, List.getElem?_map]
  | regionStart =>
    rw [Desk.marker?, Desk.marker?, h.engine]
    cases d.engine <;> rfl
  | regionStop =>
    rw [Desk.marker?, Desk.marker?, h.engine]
    cases d.engine <;> rfl

theorem pos (h : d.Renamed σ d') (r : Ref) : d'.pos r = (d.pos r).map (Pos.rename σ) := by
  have hmarker := h.marker? r
  cases r with
  | «at» n => rfl
  | user i =>
    simp only [Desk.pos, hmarker]
    cases d.marker? (.user i) <;> rfl
  | regionStart =>
    simp only [Desk.pos, hmarker]
    cases d.marker? .regionStart <;> rfl
  | regionStop =>
    simp only [Desk.pos, hmarker]
    cases d.marker? .regionStop <;> rfl

theorem bound (h : d.Renamed σ d') (edge : Int) (r : Ref) :
    d'.bound edge r = (d.bound edge r).map (Pos.rename σ) := by
  have hpos := h.pos r
  have hmarker := h.marker? r
  unfold Desk.bound
  rw [hmarker]
  cases r with
  | «at» n => rfl
  | user i => exact hpos
  | regionStart =>
    cases hm : d.marker? .regionStart with
    | none => rfl
    | some m => exact hpos
  | regionStop =>
    cases hm : d.marker? .regionStop with
    | none => rfl
    | some m => exact hpos

/-- A computation that begins with a position that the script names. -/
theorem at_pos (h : d.Renamed σ d') (r : Ref) {g : α → β}
    {f : Pos → Except EditError (Buffer × α)} {f' : Pos → Except EditError (Buffer × β)}
    (hf : ∀ p : Pos, Agree σ g (f p) (f' (p.rename σ))) :
    Agree σ g (d.pos r >>= f) (d'.pos r >>= f') := by
  rw [h.pos]
  cases d.pos r with
  | error e => exact .error e
  | ok p => exact hf p

/-! ### Steps -/

/-- Two records that differ in the names of the markers. -/
structure OfRecord (σ : MarkerId → MarkerId) (r r' : StepRecord) : Prop where
  outcome : r'.outcome = r.outcome
  notices : r'.notices = r.notices
  desk : r.desk.Renamed σ r'.desk

theorem OfRecord.same {r r' : StepRecord} (h : OfRecord σ r r') : SameRecord r r' :=
  ⟨h.outcome, h.notices, h.desk.resembles⟩

theorem edited (h : d.Renamed σ d') {r r' : Except EditError (Buffer × StepResult)}
    (hr : Agree σ id r r') : OfRecord σ (d.edited r) (d'.edited r') := by
  cases hr with
  | error e => exact ⟨rfl, rfl, h⟩
  | ok hb v => exact ⟨rfl, rfl, hb, h.engine, h.markers⟩

theorem asked (h : d.Renamed σ d') {r r' : Except EditError StepResult} (hr : r' = r) :
    OfRecord σ (d.asked r) (d'.asked r') := ⟨hr, rfl, h⟩

theorem respliced (h : d.Renamed σ d') {r r' : Engine.Result} (hr : r.Agreed σ r') :
    OfRecord σ (d.respliced r) (d'.respliced r') :=
  ⟨congrArg (Except.map StepResult.truth) hr.outcome, hr.notices, hr.buffer, hr.engine, h.markers⟩

/-- **Every step that is no group** gives the same result under other names. -/
theorem take (h : d.Renamed σ d') (s : Step) : OfRecord σ (d.take s) (d'.take s) := by
  cases s with
  | insert p t props =>
    refine h.edited (h.at_pos p fun p' => ?_)
    exact (h.buffer.insert p' t props).bind fun c c' _ hc => .ok hc _
  | delete p q =>
    refine h.edited (h.at_pos p fun p' => h.at_pos q fun q' => ?_)
    exact (h.buffer.delete p' q').bind fun c c' _ hc => .ok hc _
  | replaceRegion p q t =>
    refine h.edited (h.at_pos p fun p' => h.at_pos q fun q' => ?_)
    exact h.buffer.replaceRegion p' q' t _
  | goto p =>
    refine h.edited (h.at_pos p fun p' => ?_)
    exact h.buffer.goto p' _
  | addSpan p q props =>
    refine h.edited (h.at_pos p fun p' => h.at_pos q fun q' => ?_)
    exact (h.buffer.addSpan p' q' props).bind fun c c' _ hc => .ok hc _
  | deleteMarker r =>
    refine h.edited ?_
    rw [h.marker?]
    cases d.marker? r with
    | none => exact .error _
    | some m => exact .ok (h.buffer.deleteMarker m) _
  | makeMarker p advances =>
    -- the two markers have names that belong together, and the same number in the script
    have hmake : Agree σ σ (do d.buffer.makeMarker (← d.pos p) advances)
        (do d'.buffer.makeMarker (← d'.pos p) advances) :=
      h.at_pos p fun p' => h.buffer.makeMarker p' advances
    have hlen : d'.markers.length = d.markers.length := by rw [h.markers, List.length_map]
    simp only [Desk.take]
    generalize (do d.buffer.makeMarker (← d.pos p) advances : Except EditError _) = r at hmake
    generalize (do d'.buffer.makeMarker (← d'.pos p) advances : Except EditError _) = r' at hmake
    cases hmake with
    | error e => exact ⟨rfl, rfl, h⟩
    | ok hb m =>
      refine ⟨by simp only [hlen], rfl, hb, h.engine, ?_⟩
      simp only [h.markers, List.map_append, List.map_singleton]
  | narrow p q =>
    simp only [Desk.take]
    rw [h.pos, h.pos]
    cases d.pos p with
    | error e => exact ⟨rfl, rfl, h⟩
    | ok p' =>
      cases d.pos q with
      | error e => exact ⟨rfl, rfl, h⟩
      | ok q' =>
        obtain ⟨hr, hb⟩ := h.buffer.narrow p' q'
        exact ⟨congrArg (Except.map fun _ => StepResult.nothing) hr, rfl, hb, h.engine, h.markers⟩
  | widen => exact h.edited (.ok h.buffer.widen _)
  | substring p q =>
    -- a stretch goes up to an edge of the text if there is no region, on both desks or on neither
    refine h.asked ?_
    rw [h.bound, h.bound, h.buffer.size]
    cases d.bound 0 p with
    | error e => rfl
    | ok p' =>
      cases d.bound d.buffer.size q with
      | error e => rfl
      | ok q' =>
        simp only [Except.map, Bind.bind, Except.bind, Buffer.substring, h.buffer.locate]
        rw [h.buffer.same]
        rfl
  | markerValid r =>
    refine h.asked ?_
    rw [h.marker?]
    cases d.marker? r with
    | none => rfl
    | some m =>
      have hplace := h.buffer.markerPosition m
      change Except.ok (StepResult.truth (d'.buffer.markerPosition (σ m)).isSome) = _
      rw [hplace]
      rfl
  | spansAt p => exact h.asked (by rw [h.buffer.same]; rfl)
  | segments => exact h.asked (by rw [h.buffer.segments])
  | editable => exact h.asked (by rw [h.engine, Engine.editable_rename _ h.buffer])
  | splice p narrow fault =>
    refine h.respliced ?_
    rw [h.engine]
    exact d.engine.splice_agrees h.buffer p narrow fault
  | unsplice fault =>
    refine h.respliced ?_
    rw [h.engine]
    exact d.engine.unsplice_agrees h.buffer fault
  | unlocked steps stops => exact h.asked rfl
  | atomic steps stops fails => exact h.asked rfl

/-! ### Runs -/

/-- The last record decides whether a group goes on, and it does so by its outcome. -/
theorem failure?_eq {records records' : List StepRecord}
    (h : List.Forall₂ (OfRecord σ) records records') : failure? records' = failure? records := by
  induction h with
  | nil => rfl
  | @cons r r' rest rest' hr hrest ih =>
    cases hrest with
    | nil => simp only [failure?, List.getLast?_singleton, hr.outcome]
    | cons hr' hrest' =>
      rw [failure?, failure?, List.getLast?_cons_cons, List.getLast?_cons_cons]
      exact ih

/-- **No script can tell two desks apart that differ in the names of the markers.** -/
theorem run_and_runAll :
    (∀ (s : Step) (d d' : Desk), d.Renamed σ d' →
      (d.run s).1.Renamed σ (d'.run s).1 ∧
        List.Forall₂ (OfRecord σ) (d.run s).2 (d'.run s).2) ∧
      ∀ (steps : List Step) (d d' : Desk) (stops : Bool), d.Renamed σ d' →
        (d.runAll stops steps).1.Renamed σ (d'.runAll stops steps).1 ∧
          List.Forall₂ (OfRecord σ) (d.runAll stops steps).2.1 (d'.runAll stops steps).2.1 ∧
          (d'.runAll stops steps).2.2 = (d.runAll stops steps).2.2 := by
  refine Step.induction ?plain ?unlocked ?atomic ?nil ?cons
  case plain =>
    intro s hs d d' h
    rw [run_of_take hs, run_of_take hs]
    exact ⟨(h.take s).desk, .cons (h.take s) .nil⟩
  case unlocked =>
    intro steps stops ih d d' h
    -- the same protection is set back, and the group's own record says how its steps ended
    obtain ⟨hlast, hrecords, hfailed⟩ := ih _ _ stops (h.setUnlocked true)
    have hback := hlast.setUnlocked d.buffer.unlocked
    rw [run_unlocked, run_unlocked, hfailed, h.buffer.unlocked]
    exact ⟨hback, List.rel_append hrecords (.cons ⟨rfl, rfl, hback⟩ .nil)⟩
  case atomic =>
    intro steps stops fails ih d d' h
    -- both groups are taken back, or neither, because their steps end alike
    obtain ⟨hlast, hrecords, hfailed⟩ := ih d d' stops h
    rcases d.atomic_cases steps stops fails with ⟨hnone, hfails⟩ | hleft
    · rw [run_atomic_of_ok hnone hfails, run_atomic_of_ok (hfailed.trans hnone) hfails]
      exact ⟨hlast, List.rel_append hrecords (.cons ⟨rfl, rfl, hlast⟩ .nil)⟩
    · have hback := h.restoredAfter hlast
      have hleft' : (d'.runAll stops steps).2.2 = none → fails = true := by
        rw [hfailed]
        exact hleft
      rw [run_atomic_of_failed hleft, run_atomic_of_failed hleft', hfailed]
      exact ⟨hback, List.rel_append hrecords (.cons ⟨rfl, rfl, hback⟩ .nil)⟩
  case nil =>
    intro d d' stops h
    exact ⟨h, .nil, rfl⟩
  case cons =>
    intro s rest ih ih' d d' stops h
    obtain ⟨hlast, hrecords⟩ := ih d d' h
    obtain ⟨hlast', hrecords', hfailed⟩ := ih' _ _ stops hlast
    have hsame := failure?_eq hrecords
    -- the scripts go on behind the step, or both stop
    rcases d.cons_cases s stops with hgoes | ⟨e, hstops, hfail⟩
    · have hgoes' : stops = true → failure? (d'.run s).2 = none := fun hstops =>
        hsame.trans (hgoes hstops)
      rw [runAll_cons_of_ok hgoes, runAll_cons_of_ok hgoes']
      exact ⟨hlast', List.rel_append hrecords hrecords', hfailed⟩
    · rw [runAll_cons_of_failed hstops hfail, runAll_cons_of_failed hstops (hsame.trans hfail)]
      exact ⟨hlast, hrecords, rfl⟩

/-- What a host sees of the two runs is the same. -/
theorem sameRun (h : d.Renamed σ d') (stops : Bool) (steps : List Step) :
    SameRun (d.runAll stops steps) (d'.runAll stops steps) := by
  obtain ⟨hlast, hrecords, hfailed⟩ := run_and_runAll.2 steps d d' stops h
  exact ⟨hlast.resembles, hrecords.imp fun _ _ hr => hr.same, hfailed⟩

end Renamed

end Desk

end LiterateEdit
