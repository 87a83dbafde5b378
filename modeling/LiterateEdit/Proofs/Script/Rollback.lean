import LiterateEdit.Proofs.Script.Change

/-!
# A group that fails leaves nothing

A group of steps that runs all together or not at all is left by a failure in one of two ways: a
step of it fails and the group is told to stop, or the group breaks off by itself at its end. Either
way the buffer is afterwards what it was before the group (`Desk.atomic_restores`), whatever the
steps did: delete markers and make new ones, move the view, lift the protection, run groups of their
own that fail and are caught, splice and unsplice.

Only the markers are not simply copied back. They are names that a host keeps, so that a marker from
before has to get its place back under its name, and a name given out since must not have one. That
this comes out right rests on what the steps may do to the table of markers in the meantime, which
is the invariant `Buffer.Tracks`, carried from the start of the group to its end by `Desk.Connects`.

Replacing is such a group of two edits, and `Buffer.replaceRegion` answers what the group does
(`replaceRegion_eq_atomically`): a deletion that is followed by a refused insertion is taken back.
-/

namespace LiterateEdit

namespace Buffer

variable {b b' c : Buffer} {x y : Int} {p q : Pos} {t : Text}

/-- **The buffer `b'` is `b` again.** Nothing is different but that there are names of markers that
there were not; these markers are detached. -/
structure AsBefore (b b' : Buffer) : Prop where
  text : b'.text = b.text
  point : b'.point = b.point
  spans : b'.spans = b.spans
  view : b'.view = b.view
  unlocked : b'.unlocked = b.unlocked
  file : b'.file = b.file
  /-- The markers that there were are where they were, and advance if they did. -/
  old : ∀ m < b.markers.length, b'.markers[m]? = b.markers[m]?
  /-- The others point nowhere. -/
  new : ∀ m, b.markers.length ≤ m → b'.markerPosition m = none

/-- A buffer that is taken back is as before. -/
theorem Tracks.asBefore (h : b.Tracks b') : b.AsBefore (b.restoredAfter b') := by
  rw [h.restoredAfter_eq]
  refine ⟨rfl, rfl, rfl, rfl, rfl, rfl, fun m hm => List.getElem?_append_left hm, fun m hm => ?_⟩
  -- what stands behind the markers of `b` in the table is detached
  have hnew : (b.markers ++ (b'.markers.drop b.markers.length).map Marker.detached)[m]?
      = (b'.markers[m]?).map Marker.detached := by
    rw [List.getElem?_append_right hm, List.getElem?_map, List.getElem?_drop,
      Nat.add_sub_cancel' hm]
  rw [markerPosition, hnew]
  cases b'.markers[m]? with
  | none => rfl
  | some k => rfl

/-! ### Replacing as a group -/

/-- Replacing done in place: the stretch is deleted, and the text is inserted where it was. -/
def replaceInPlace (start : Int) (q : Pos) (t : Text) (b : Buffer) :
    Except EditError Unit × Buffer :=
  match b.delete (.at start) q with
  | .error e => (.error e, b)
  | .ok (b', _) =>
    match b'.insert (.at start) t none with
    | .error e => (.error e, b')
    | .ok (b'', _) => (.ok (), b'')

/-- Taking back what made no markers gives the buffer itself. -/
theorem Tracks.restoredAfter_self (h : b.Tracks b') (hlen : b'.markers.length = b.markers.length) :
    b.restoredAfter b' = b := by
  rw [h.restoredAfter_eq, ← hlen, List.drop_length, List.map_nil, List.append_nil]

/-- **Replacing is a group of two edits**: if one of them is refused, nothing has happened. -/
theorem replaceRegion_eq_atomically (hp : b.locate p = .ok x) (hq : b.locate q = .ok y) :
    b.atomically (replaceInPlace (min x y) q t)
      = match b.replaceRegion p q t with
        | .error e => (.error e, b)
        | .ok b' => (.ok (), b') := by
  have hself : b.restoredAfter b = b := (Tracks.refl b).restoredAfter_self rfl
  unfold atomically replaceInPlace replaceRegion
  simp only [hp, hq, bind, Except.bind]
  cases hdel : b.delete (.at (min x y)) q with
  | error e => exact Prod.ext rfl hself
  | ok r =>
    simp only
    cases hins : r.1.insert (.at (min x y)) t none with
    | ok r' => rfl
    | error e =>
      -- the deletion is taken back
      have hleads : Leads b.markers.length b r.1 := leads_delete hdel
      have hlen : r.1.markers.length = b.markers.length := by
        obtain ⟨x', y', -, -, -, -, rfl⟩ := delete_eq_ok_iff.1 hdel
        rw [← put_nil, put_markers, List.length_map]
      exact Prod.ext rfl (hleads.tracks_self.restoredAfter_self hlen)

end Buffer

namespace Desk

open Buffer

variable {d d' d'' : Desk} {steps : List Step} {stops fails : Bool}

/-! ### What a script knows of the desk it began with -/

/-- The desk `d'` still knows the markers of `d`, and the markers that a script has made since are
new ones. -/
structure Knows (d d' : Desk) : Prop where
  tracks : d.buffer.Tracks d'.buffer
  made : ∃ made, d'.markers = d.markers ++ made ∧ ∀ m ∈ made, d.buffer.markers.length ≤ m

theorem Knows.trans (h : d.Knows d') (h' : d'.Knows d'') : d.Knows d'' := by
  refine ⟨h.tracks.trans h'.tracks, ?_⟩
  obtain ⟨made, hmade, hnew⟩ := h.made
  obtain ⟨made', hmade', hnew'⟩ := h'.made
  refine ⟨made ++ made', by rw [hmade', hmade, List.append_assoc], fun m hm => ?_⟩
  rcases List.mem_append.1 hm with hm | hm
  · exact hnew m hm
  · exact Nat.le_trans h.tracks.length_le (hnew' m hm)

/-- A step gives out a name of a marker only if it makes one, and then the next one. -/
theorem take_made (d : Desk) (s : Step) :
    ∃ made, (d.take s).desk.markers = d.markers ++ made ∧
      ∀ m ∈ made, d.buffer.markers.length ≤ m ∧ m < (d.take s).desk.buffer.markers.length := by
  have hsame : ∀ d' : Desk, d'.markers = d.markers → ∃ made, d'.markers = d.markers ++ made ∧
      ∀ m ∈ made, d.buffer.markers.length ≤ m ∧ m < d'.buffer.markers.length := fun _ h =>
    ⟨[], h.trans (List.append_nil _).symm, fun _ hm => absurd hm List.not_mem_nil⟩
  have hedited : ∀ r, (d.edited r).desk.markers = d.markers := by
    intro r
    rcases d.edited_cases r with ⟨e, he⟩ | ⟨b, v, -, he⟩ <;> rw [he]
  cases s with
  | makeMarker p advances =>
    simp only [take]
    split
    · exact hsame d rfl
    · next b m hmake =>
      obtain ⟨p', -, hmake⟩ := bind_eq_ok.1 hmake
      obtain ⟨x, -, -, hr⟩ := makeMarker_eq_ok_iff.1 hmake
      obtain ⟨hb, hm⟩ := Prod.mk.inj hr
      refine ⟨[m], rfl, fun m' hm' => ?_⟩
      rw [List.mem_singleton.1 hm', hm]
      refine ⟨Nat.le_refl _, ?_⟩
      change d.buffer.markers.length < b.markers.length
      rw [hb, List.length_append]
      exact Nat.lt_succ_self _
  | narrow p q =>
    -- a marker that is left behind is no marker of the script
    simp only [take]
    split
    · exact hsame d rfl
    · exact hsame _ rfl
  | insert p t props => exact hsame _ (hedited _)
  | delete p q => exact hsame _ (hedited _)
  | replaceRegion p q t => exact hsame _ (hedited _)
  | goto p => exact hsame _ (hedited _)
  | deleteMarker m => exact hsame _ (hedited _)
  | addSpan p q props => exact hsame _ (hedited _)
  | _ => exact hsame _ rfl

/-- **From the start of a script to its end** the markers are known, and the protection is as it
was. -/
theorem connects_knows : Connects Knows where
  refl _ := ⟨.refl _, [], (List.append_nil _).symm, fun _ hm => absurd hm List.not_mem_nil⟩
  trans h h' := h.trans h'
  take d s := by
    obtain ⟨made, hmade, hnew⟩ := d.take_made s
    exact ⟨(d.take_becomes s).tracks, made, hmade, fun m hm => (hnew m hm).1⟩
  unlocked h :=
    { tracks := ⟨h.tracks.length_le, h.tracks.detached, rfl, h.tracks.file⟩
      made := h.made }
  atomic h := ⟨(Tracks.refl _).restoredAfter h.tracks, h.made⟩

/-! ### The group -/

/-- **A group that fails leaves the buffer as it was.** Every step may be in the group, at any
depth. The group's own record says that it failed, with the failure that ended it or because it
broke off by itself, and a script around it that is told to stop ends with the same failure. The
markers that the steps made are kept by their names and point nowhere. -/
theorem atomic_restores (d : Desk) (steps : List Step) (stops fails : Bool)
    (h : (d.runAll stops steps).2.2 = none → fails = true) :
    ∃ d' e, d.run (.atomic steps stops fails)
        = (d', (d.runAll stops steps).2.1 ++ [⟨.error e, d', []⟩]) ∧
      e = (d.runAll stops steps).2.2.getD .interrupted ∧
      (∀ rest, d.runAll true (.atomic steps stops fails :: rest)
        = (d', (d.runAll stops steps).2.1 ++ [⟨.error e, d', []⟩], some e)) ∧
      d.buffer.AsBefore d'.buffer ∧
      ∃ made, d'.markers = d.markers ++ made ∧
        ∀ m ∈ made, d'.buffer.markerPosition m = none := by
  have hknows : d.Knows (d.runAll stops steps).1 := connects_knows.run_and_runAll.2 d stops steps
  have hback : d.buffer.AsBefore (d.restoredAfter (d.runAll stops steps).1).buffer :=
    hknows.tracks.asBefore
  obtain ⟨made, hmade, hnew⟩ := hknows.made
  refine ⟨_, _, run_atomic_of_failed h, rfl, fun rest => ?_, hback, made, hmade, fun m hm => ?_⟩
  · have hfail : failure? ((d.runAll stops steps).2.1 ++
        [⟨.error ((d.runAll stops steps).2.2.getD .interrupted),
          d.restoredAfter (d.runAll stops steps).1, []⟩])
        = some ((d.runAll stops steps).2.2.getD .interrupted) := by
      rw [failure?, List.getLast?_concat]
    rw [runAll, run_atomic_of_failed h]
    simp only [hfail]
  · exact hback.new m (hnew m hm)

/-- A marker is deleted, another one is made, the view is moved and given up, protected text is
deleted while the protection is lifted, and a group in the group fails and is caught, before an
insertion outside the text ends it all. -/
theorem atomic_restores_nested :
    let start : List Step := [.insert (.at 0) (Text.lit "abcdef") (some contextProps),
      .makeMarker (.at 2) true, .makeMarker (.at 4) false, .deleteMarker (.user 1),
      .narrow (.at 1) (.at 5)]
    let steps : List Step := [.makeMarker (.user 0) false, .deleteMarker (.user 0),
      .narrow (.at 0) (.at 2), .widen, .unlocked [.delete (.at 0) (.at 3)] true,
      .unlocked [.atomic [.insert (.at 3) (Text.lit "xyz") none, .deleteMarker (.user 2)] true true,
        .goto (.at 1)] false, .insert (.at 9) (Text.lit "!") none]
    let d := ((fresh []).runAll false start).1
    ((d.runAll true steps).2.2 = some (.outsideView 9 9 0 3) ∧
        (d.runAll true steps).1.buffer.text = Text.lit "def") ∧
      d.buffer.text = Text.lit "abcdef" ∧ d.buffer.view = some (1, 5) ∧
      d.buffer.markers = [⟨some 2, true⟩, ⟨none, false⟩] ∧
      ∃ d', (d.run (.atomic steps true false)).1 = d' ∧ d.buffer.AsBefore d'.buffer ∧
        d'.buffer.markerPosition 0 = some 2 ∧ d'.buffer.markerPosition 2 = none := by
  intro start steps d
  have hfails : (d.runAll true steps).2.2 = some (.outsideView 9 9 0 3) := by decide +kernel
  have hmarkers : d.buffer.markers = [⟨some 2, true⟩, ⟨none, false⟩] := by decide +kernel
  have hinside : (d.runAll true steps).1.buffer.text = Text.lit "def" := by decide +kernel
  have hbefore : d.buffer.text = Text.lit "abcdef" ∧ d.buffer.view = some (1, 5) := by
    decide +kernel
  obtain ⟨d', e, hrun, -, -, hback, -⟩ := atomic_restores d steps true false
    (fun hnone => absurd (hfails.symm.trans hnone) nofun)
  refine ⟨⟨hfails, hinside⟩, hbefore.1, hbefore.2, hmarkers, d', by rw [hrun], hback, ?_, ?_⟩
  · rw [markerPosition, hback.old 0 (by rw [hmarkers]; decide), hmarkers]
    rfl
  · exact hback.new 2 (by rw [hmarkers]; decide)

end Desk

end LiterateEdit
