import LiterateEdit.Proofs.Script.Rollback

/-!
# What a refused call leaves behind

A buffer may refuse a call because a position is outside the view or the text, because a marker has
no place, or because a span protects the text. Most calls make all their checks before they change
anything, so that nothing has happened then. Two of them do not.

* Replacing deletes first, and only then asks whether it may insert. It does both in a group, and
  the deletion is taken back (`Buffer.replaceRegion_eq_atomically`).
* Narrowing gives up the old view first, and then makes a marker for either end of the new one,
  which is refused outside the text. It does so in no group, and what it has done is not taken
  back: **the old view is gone**, and if the start of the new one is in the text **a marker is left
  there** that nobody has a name for (`Buffer.halfNarrowed`). Everything else is as before, and so
  is everything if one of the ends has no place at all, because the ends are looked up before that.

A view is held by two markers of the buffer, so giving it up detaches them. Whenever a refused call
does anything, it changes how many markers are attached (`Buffer.attached`), and `Desk.refused_call`
says exactly when that is.
-/

namespace LiterateEdit

/-- Is the step a call that the buffer may refuse? -/
def Step.isCall : Step → Bool
  | .insert _ _ _ => true
  | .delete _ _ => true
  | .replaceRegion _ _ _ => true
  | .substring _ _ => true
  | .goto _ => true
  | .makeMarker _ _ => true
  | .deleteMarker _ => true
  | .narrow _ _ => true
  | _ => false

/-! ### Attached markers -/

namespace Buffer

/-- The markers that hold the view: text that is put in at either end of it comes into it. -/
def viewMarkers (b : Buffer) : List Marker :=
  match b.view with
  | none => []
  | some (lo, hi) => [⟨some lo, false⟩, ⟨some hi, true⟩]

/-- **The attached markers**: those that have a place, and those that hold the view. -/
def attached (b : Buffer) : List Marker :=
  b.markers.filter (fun k => k.position.isSome) ++ b.viewMarkers

/-- Half a narrowing detaches the markers of the view and attaches the one that it has made. -/
theorem length_attached_halfNarrowed (b : Buffer) (x : Int) :
    (b.halfNarrowed x).attached.length + b.viewMarkers.length
      = b.attached.length + (b.strays x).length := by
  have hstrays : (b.strays x).filter (fun k => k.position.isSome) = b.strays x := by
    unfold strays
    split <;> rfl
  have hafter : (b.halfNarrowed x).attached
      = b.markers.filter (fun k => k.position.isSome) ++ b.strays x := by
    change (b.markers ++ b.strays x).filter _ ++ [] = _
    rw [List.filter_append, hstrays, List.append_nil]
  rw [hafter, attached, List.length_append, List.length_append]
  omega

/-- **If it has done anything, the number of attached markers has changed.** -/
theorem length_attached_ne {b : Buffer} {x : Int} (h : b.view ≠ none ∨ 0 ≤ x ∧ x ≤ b.size) :
    (b.halfNarrowed x).attached.length ≠ b.attached.length := by
  have hlen := b.length_attached_halfNarrowed x
  have hstrays : (b.strays x).length = if 0 ≤ x ∧ x ≤ b.size then 1 else 0 := by
    unfold strays
    split <;> rfl
  -- two markers are given up and one is made at most, so that neither makes up for the other
  unfold viewMarkers at hlen
  cases hview : b.view with
  | none =>
    rw [if_pos (h.resolve_left (not_not_intro hview))] at hstrays
    simp only [hview, List.length_nil] at hlen
    omega
  | some v =>
    simp only [hview, List.length_cons, List.length_nil] at hlen
    split at hstrays <;> omega

end Buffer

/-! ### Refused calls -/

namespace Desk

open Buffer

variable {d : Desk} {s : Step} {e : EditError} {x : Int}

/-- The step narrows to what is no stretch of the text, from `x` on, and both ends have a place. -/
def NarrowsOutside (d : Desk) (s : Step) (x : Int) : Prop :=
  ∃ p q i j, s = .narrow p q ∧ d.place p = .ok i ∧ d.place q = .ok j ∧ x = min i j ∧
    ¬(0 ≤ min i j ∧ max i j ≤ d.buffer.size)

/-- **The step is refused half way**: it narrows to what is no stretch of the text, and there is a
view to give up or the new view starts in the text. -/
def StopsHalfWay (d : Desk) (s : Step) : Prop :=
  ∃ x, d.NarrowsOutside s x ∧ (d.buffer.view ≠ none ∨ 0 ≤ x ∧ x ≤ d.buffer.size)

/-- A change that is refused is not made. -/
theorem edited_refused {r : Except EditError (Buffer × StepResult)}
    (h : (d.edited r).outcome = .error e) : d.edited r = ⟨.error e, d, []⟩ := by
  rcases d.edited_cases r with ⟨e', he⟩ | ⟨b, v, -, he⟩
  · rw [he] at h ⊢
    cases h
    rfl
  · rw [he] at h
    cases h

/-- **Narrowing that is refused**: it has been done by half if both ends have a place. -/
theorem narrow_refused {p q : Ref} (h : (d.take (.narrow p q)).outcome = .error e) :
    ((∀ x y, d.place p = .ok x → d.place q ≠ .ok y) ∧ d.take (.narrow p q) = ⟨.error e, d, []⟩) ∨
      ∃ x y, d.place p = .ok x ∧ d.place q = .ok y ∧
        ¬(0 ≤ min x y ∧ max x y ≤ d.buffer.size) ∧
        d.take (.narrow p q)
          = ⟨.error e, { d with buffer := d.buffer.halfNarrowed (min x y) }, []⟩ := by
  simp only [take] at h ⊢
  cases hp : d.pos p with
  | error e' =>
    -- the first end is a marker that is not there
    rw [hp] at h
    cases h
    refine .inl ⟨fun x y hx => ?_, rfl⟩
    rw [place, hp] at hx
    cases hx
  | ok p' =>
    cases hq : d.pos q with
    | error e' =>
      rw [hp, hq] at h
      cases h
      refine .inl ⟨fun x y _ hy => ?_, rfl⟩
      rw [place, hq] at hy
      cases hy
    | ok q' =>
      rw [hp, hq] at h
      have hplace : ∀ {r r'}, d.pos r = .ok r' → d.place r = d.buffer.locate r' := by
        intro r r' hr
        rw [place, hr]
        rfl
      rw [hplace hp, hplace hq]
      simp only [bind, Except.bind, pure, Except.pure] at h ⊢
      rcases d.buffer.narrow_cases p' q' with
        ⟨hnone, e', heq⟩ | ⟨x, y, hx, hy, ⟨-, -, heq⟩ | ⟨hout, z, -, -, heq⟩⟩
      · rw [heq] at h ⊢
        cases h
        exact .inl ⟨hnone, rfl⟩
      · rw [heq] at h
        cases h
      · rw [heq] at h ⊢
        cases h
        exact .inr ⟨x, y, hx, hy, hout, rfl⟩

/-- **A call that is no narrowing makes its checks first**, or is taken back. -/
theorem take_refused (hs : s.isCall = true) (hnarrow : ∀ p q, s ≠ .narrow p q)
    (h : (d.take s).outcome = .error e) : d.take s = ⟨.error e, d, []⟩ := by
  cases s with
  | insert p t props => exact edited_refused h
  | delete p q => exact edited_refused h
  | replaceRegion p q t => exact edited_refused h
  | goto p => exact edited_refused h
  | deleteMarker m => exact edited_refused h
  | substring p q =>
    simp only [take, asked] at h ⊢
    rw [h]
  | makeMarker p advances =>
    simp only [take] at h ⊢
    split at h
    · cases h
      rfl
    · cases h
  | narrow p q => exact absurd rfl (hnarrow p q)
  | _ => cases hs

/-- Replacing that is refused has done nothing in place. -/
theorem replaceInPlace_refused {p q : Ref} {t : Text} {p' q' : Pos} {x y : Int}
    (h : (d.take (.replaceRegion p q t)).outcome = .error e) (hp : d.pos p = .ok p')
    (hq : d.pos q = .ok q') (hx : d.buffer.locate p' = .ok x) (hy : d.buffer.locate q' = .ok y) :
    d.buffer.atomically (replaceInPlace (min x y) q' t) = (.error e, d.buffer) := by
  rw [replaceRegion_eq_atomically hx hy]
  simp only [take, hp, hq, bind, Except.bind, pure, Except.pure] at h
  cases hrep : d.buffer.replaceRegion p' q' t with
  | error e' =>
    rw [hrep] at h
    cases h
    rfl
  | ok b =>
    rw [hrep] at h
    cases h

/-- What is refused outside the text is done by half. -/
theorem NarrowsOutside.take_eq (hx : d.NarrowsOutside s x) (h : (d.take s).outcome = .error e) :
    d.take s = ⟨.error e, { d with buffer := d.buffer.halfNarrowed x }, []⟩ := by
  obtain ⟨p, q, i, j, rfl, hi, hj, rfl, -⟩ := hx
  rcases narrow_refused h with ⟨hnone, -⟩ | ⟨i', j', hi', hj', -, heq⟩
  · exact absurd hj (hnone i j hi)
  · cases hi.symm.trans hi'
    cases hj.symm.trans hj'
    exact heq

/-- A call that is not refused half way leaves everything as it was. -/
theorem take_eq_of_not_stopsHalfWay (hs : s.isCall = true) (h : (d.take s).outcome = .error e)
    (hnot : ¬ d.StopsHalfWay s) : d.take s = ⟨.error e, d, []⟩ := by
  by_cases hnarrow : ∃ p q, s = .narrow p q
  · obtain ⟨p, q, rfl⟩ := hnarrow
    rcases narrow_refused h with ⟨-, heq⟩ | ⟨i, j, hi, hj, hout, heq⟩
    · exact heq
    · -- there is no view to give up, and no marker is made
      have hkeeps := not_or.1 fun hdone =>
        hnot ⟨min i j, ⟨p, q, i, j, rfl, hi, hj, rfl, hout⟩, hdone⟩
      have hview : d.buffer.view = none := not_not.1 hkeeps.1
      have hwiden : d.buffer.widen = d.buffer := by rw [widen, ← hview]
      rw [heq, halfNarrowed_outside hkeeps.2, hwiden]
  · exact take_refused hs (fun p q hpq => hnarrow ⟨p, q, hpq⟩) h

/-- **A refused call changes nothing, except that narrowing may stop half way.** On any desk,
whatever the call is asked for: if it is refused, then the desk behind it is the desk before it,
down to the names of markers, exactly if it has not stopped half way. If it has, the markers that
are attached are not those that were attached before. It is narrowing then, to what is no stretch of
the text: the view is given up, a marker is left at the start of the new view if that is in the
text, and nothing else is changed. Replacing that is refused has been taken back: the deletion and
the insertion that it makes in place leave the buffer as it was. -/
theorem refused_call (hs : s.isCall = true) (h : (d.take s).outcome = .error e) :
    (d.take s = ⟨.error e, d, []⟩ ↔ ¬ d.StopsHalfWay s) ∧
      (d.StopsHalfWay s →
        (d.take s).desk.buffer.attached.length ≠ d.buffer.attached.length) ∧
      (∀ x, d.NarrowsOutside s x →
        d.take s = ⟨.error e, { d with buffer := d.buffer.halfNarrowed x }, []⟩) ∧
      ∀ p q t p' q' x y, s = .replaceRegion p q t → d.pos p = .ok p' → d.pos q = .ok q' →
        d.buffer.locate p' = .ok x → d.buffer.locate q' = .ok y →
        d.buffer.atomically (replaceInPlace (min x y) q' t) = (.error e, d.buffer) := by
  have hchanged : d.StopsHalfWay s →
      (d.take s).desk.buffer.attached.length ≠ d.buffer.attached.length := by
    rintro ⟨x, hx, hdone⟩
    rw [hx.take_eq h]
    exact length_attached_ne hdone
  refine ⟨⟨fun heq hhalf => ?same, take_eq_of_not_stopsHalfWay hs h⟩, hchanged,
    fun x hx => hx.take_eq h, ?replaces⟩
  case same =>
    have hne := hchanged hhalf
    rw [heq] at hne
    exact hne rfl
  case replaces =>
    rintro p q t p' q' x y rfl hp hq hx hy
    exact replaceInPlace_refused h hp hq hx hy

/-- A narrowed desk with a protected span that ends at a marker, and a detached marker. Text behind
the span is deleted and then not replaced, because nothing may be inserted right behind the span; a
view with the detached marker as an end is refused; and so is a view that ends behind the text, with
which the old one is lost and a marker is left. On the desk without a view a marker is left, too. -/
theorem refused_call_narrowed :
    let start : List Step := [.insert (.at 0) (Text.lit "abcdef") none, .makeMarker (.at 2) false,
      .makeMarker (.at 0) true, .deleteMarker (.user 1),
      .addSpan (.at 1) (.at 2) ⟨true, false, none⟩, .narrow (.at 1) (.at 5)]
    let d := ((fresh []).runAll false start).1
    let w := (d.take .widen).desk
    let half := (d.take (.narrow (.at 3) (.at 9))).desk.buffer
    let half' := (w.take (.narrow (.at 0) (.at 99))).desk.buffer
    (d.take (.replaceRegion (.user 0) (.at 4) (Text.lit "x")) = ⟨.error (.readOnly 1 2), d, []⟩ ∧
        d.buffer.atomically (replaceInPlace 2 (.at 4) (Text.lit "x"))
          = (.error (.readOnly 1 2), d.buffer)) ∧
      d.take (.narrow (.user 0) (.user 1)) = ⟨.error .detached, d, []⟩ ∧
      (d.take (.narrow (.at 3) (.at 9))
          = ⟨.error (.outsideText 9 6), { d with buffer := d.buffer.halfNarrowed 3 }, []⟩ ∧
        d.buffer.attached = [⟨some 2, false⟩, ⟨some 1, false⟩, ⟨some 5, true⟩] ∧
        half.attached = [⟨some 2, false⟩, ⟨some 3, false⟩] ∧
        half.attached.length ≠ d.buffer.attached.length) ∧
      half'.attached = [⟨some 2, false⟩, ⟨some 0, false⟩] ∧
      half'.attached.length ≠ w.buffer.attached.length := by
  intro start d w half half'
  have hview : d.buffer.view = some (1, 5) := by decide +kernel
  have hplace : d.pos (.user 0) = .ok (.marker 0) := rfl
  have hmarker : d.buffer.locate (.marker 0) = .ok 2 := by rfl
  have hout : d.NarrowsOutside (.narrow (.at 3) (.at 9)) 3 :=
    ⟨.at 3, .at 9, 3, 9, rfl, rfl, rfl, rfl, by decide +kernel⟩
  have hout' : w.NarrowsOutside (.narrow (.at 0) (.at 99)) 0 :=
    ⟨.at 0, .at 99, 0, 99, rfl, rfl, rfl, rfl, by decide +kernel⟩
  obtain ⟨hreplace, -, -, hgroup⟩ := refused_call (d := d)
    (s := .replaceRegion (.user 0) (.at 4) (Text.lit "x")) (e := .readOnly 1 2) rfl
    (by rfl)
  obtain ⟨hdetached, -⟩ := refused_call (d := d) (s := .narrow (.user 0) (.user 1))
    (e := .detached) rfl (by rfl)
  obtain ⟨-, hchanged, hhalf, -⟩ := refused_call (d := d) (s := .narrow (.at 3) (.at 9))
    (e := .outsideText 9 6) rfl (by rfl)
  obtain ⟨-, hchanged', -⟩ := refused_call (d := w) (s := .narrow (.at 0) (.at 99))
    (e := .outsideText 99 6) rfl (by rfl)
  refine ⟨⟨hreplace.2 ?_, hgroup _ _ _ _ _ 2 4 rfl hplace rfl hmarker rfl⟩, hdetached.2 ?_,
    ⟨hhalf 3 hout, by decide +kernel, by decide +kernel, hchanged ⟨3, hout, .inl ?_⟩⟩,
    by decide +kernel, hchanged' ⟨0, hout', .inr (by decide +kernel)⟩⟩
  · rintro ⟨x, ⟨p, q, i, j, h, -⟩, -⟩
    cases h
  · -- the second end has no place
    rintro ⟨x, ⟨p, q, i, j, h, -, hj, -⟩, -⟩
    cases h
    cases hj
  · rw [hview]
    exact nofun

end Desk

end LiterateEdit
