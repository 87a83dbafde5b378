import LiterateEdit.Proofs.Buffer.Accepted

/-!
# Names of markers do not matter

A marker is named by its number in the order of creation, so that two buffers which hold the same
may know the same markers by different names: one of them has made markers in between that are gone
by now. `Buffer.Renamed σ b b'` says that `b'` is `b` but for its table of markers, in which the
marker `m` of `b` is known as `σ m`, and that the names which the two buffers will give out next
belong together in the same way. Nothing is said about the other names of `b'`.

Every operation answers the same on both, up to the names, and leaves two buffers that are related
in the same way (`Agree`). The operations only ever look a marker up, change all markers alike,
change one of them or make a new one, and the first section says that each of these respects the
renaming (`Names`).
-/

namespace LiterateEdit

/-! ### Tables of markers -/

/-- The marker `m` of the table `ms` is known as `σ m` in the table `ms'`, now and if both grow. -/
structure Names (σ : MarkerId → MarkerId) (ms ms' : List Marker) : Prop where
  injective : Function.Injective σ
  lookup : ∀ m, ms'[σ m]? = ms[m]?
  next : ∀ k, σ (ms.length + k) = ms'.length + k

namespace Names

variable {σ : MarkerId → MarkerId} {ms ms' ns ns' : List Marker}

/-- A name that is not given out yet is not given out in the other table either. -/
theorem lt_iff (h : Names σ ms ms') (m : MarkerId) : σ m < ms'.length ↔ m < ms.length := by
  rw [← Nat.not_le, ← Nat.not_le, ← List.getElem?_eq_none_iff, ← List.getElem?_eq_none_iff,
    h.lookup]

theorem map (h : Names σ ms ms') (f : Marker → Marker) : Names σ (ms.map f) (ms'.map f) where
  injective := h.injective
  lookup m := by rw [List.getElem?_map, List.getElem?_map, h.lookup]
  next k := by rw [List.length_map, List.length_map, h.next]

theorem push (h : Names σ ms ms') (k : Marker) : Names σ (ms ++ [k]) (ms' ++ [k]) where
  injective := h.injective
  lookup m := by
    by_cases hm : m < ms.length
    · rw [List.getElem?_append_left hm, List.getElem?_append_left ((h.lt_iff m).2 hm), h.lookup]
    · -- the new marker has the next name in both tables
      obtain ⟨j, rfl⟩ := Nat.exists_eq_add_of_le (Nat.not_lt.1 hm)
      rw [h.next, List.getElem?_append_right (Nat.le_add_right _ _),
        List.getElem?_append_right (Nat.le_add_right _ _), Nat.add_sub_cancel_left,
        Nat.add_sub_cancel_left]
  next j := by
    rw [List.length_append, List.length_append, List.length_singleton, Nat.add_assoc, Nat.add_assoc,
      h.next]

theorem modify (h : Names σ ms ms') (m : MarkerId) (f : Marker → Marker) :
    Names σ (ms.modify m f) (ms'.modify (σ m) f) where
  injective := h.injective
  lookup m' := by
    have hsame : σ m = σ m' ↔ m = m' := h.injective.eq_iff
    rw [List.getElem?_modify, List.getElem?_modify, h.lookup]
    simp only [hsame]
  next k := by rw [List.length_modify, List.length_modify, h.next]

end Names

/-- A position by the other name of its marker. -/
def Pos.rename (σ : MarkerId → MarkerId) : Pos → Pos
  | .at n => .at n
  | .marker m => .marker (σ m)

namespace Buffer

variable {α β γ δ ε : Type} {σ : MarkerId → MarkerId} {b b' c c' : Buffer} {i j : Int} {p q : Pos}
  {t : Text}

/-- **The buffer `b'` is `b` but for the names of the markers.** -/
inductive Renamed (σ : MarkerId → MarkerId) (b : Buffer) : Buffer → Prop
  | intro {ms' : List Marker} (h : Names σ b.markers ms') : Renamed σ b { b with markers := ms' }

namespace Renamed

theorem names (h : b.Renamed σ b') : Names σ b.markers b'.markers := by
  cases h with
  | intro h => exact h

/-- All but the markers is the same. -/
theorem same (h : b.Renamed σ b') : b' = { b with markers := b'.markers } := by
  cases h with
  | intro h => rfl

theorem size (h : b.Renamed σ b') : b'.size = b.size := by rw [h.same, Buffer.size, Buffer.size]

theorem low (h : b.Renamed σ b') : b'.low = b.low := by rw [h.same, Buffer.low, Buffer.low]

theorem high (h : b.Renamed σ b') : b'.high = b.high := by
  rw [h.same, Buffer.high, Buffer.high, Buffer.size, Buffer.size]

theorem unlocked (h : b.Renamed σ b') : b'.unlocked = b.unlocked := by rw [h.same]

/-! ### Changes -/

theorem insertText (h : b.Renamed σ b') (i : Int) (t : Text) :
    (b.insertText i t).Renamed σ (b'.insertText i t) := by
  cases h with
  | intro h => exact .intro (b := b.insertText i t) (h.map _)

theorem deleteText (h : b.Renamed σ b') (i j : Int) :
    (b.deleteText i j).Renamed σ (b'.deleteText i j) := by
  cases h with
  | intro h => exact .intro (b := b.deleteText i j) (h.map _)

theorem addSpans (h : b.Renamed σ b') (ss : List Span) :
    (b.addSpans ss).Renamed σ (b'.addSpans ss) := by
  cases h with
  | intro h => exact .intro (b := b.addSpans ss) h

theorem modifyMarker (h : b.Renamed σ b') (m : MarkerId) (f : Marker → Marker) :
    (b.modifyMarker m f).Renamed σ (b'.modifyMarker (σ m) f) := by
  cases h with
  | intro h => exact .intro (b := b.modifyMarker m f) (h.modify m f)

theorem deleteMarker (h : b.Renamed σ b') (m : MarkerId) :
    (b.deleteMarker m).Renamed σ (b'.deleteMarker (σ m)) := h.modifyMarker m _

theorem setAdvances (h : b.Renamed σ b') (m : MarkerId) (advances : Bool) :
    (b.setAdvances m advances).Renamed σ (b'.setAdvances (σ m) advances) := h.modifyMarker m _

theorem widen (h : b.Renamed σ b') : b.widen.Renamed σ b'.widen := by
  cases h with
  | intro h => exact .intro (b := b.widen) h

theorem setUnlocked (h : b.Renamed σ b') (on : Bool) :
    ({ b with unlocked := on } : Buffer).Renamed σ { b' with unlocked := on } := by
  cases h with
  | intro h => exact .intro (b := { b with unlocked := on }) h

/-- What is taken back is taken back alike: a marker had a place in `b` if it had one by its other
name. -/
theorem restoredAfter (h : b.Renamed σ b') (hc : c.Renamed σ c') :
    (b.restoredAfter c).Renamed σ (b'.restoredAfter c') := by
  have hold (m : MarkerId) (k : Marker) : b'.reattached (σ m) k = b.reattached m k := by
    rw [reattached, reattached, h.names.lookup]
  have hnames : Names σ (c.markers.mapIdx b.reattached) (c'.markers.mapIdx b'.reattached) := by
    refine ⟨h.names.injective, fun m => ?_, fun k => ?_⟩
    · rw [List.getElem?_mapIdx, List.getElem?_mapIdx, hc.names.lookup]
      exact congrArg (fun f => Option.map f _) (funext (hold m))
    · rw [List.length_mapIdx, List.length_mapIdx, hc.names.next]
  cases h with
  | intro h =>
    cases hc with
    | intro hc => exact .intro (b := b.restoredAfter c) hnames

/-! ### Questions -/

theorem locate (h : b.Renamed σ b') (p : Pos) : b'.locate (p.rename σ) = b.locate p := by
  cases p with
  | «at» n => rfl
  | marker m => rw [Pos.rename, Buffer.locate, Buffer.locate, h.names.lookup]

theorem markerPosition (h : b.Renamed σ b') (m : MarkerId) :
    b'.markerPosition (σ m) = b.markerPosition m := by
  rw [Buffer.markerPosition, Buffer.markerPosition, h.names.lookup]

theorem segmentsBetween (h : b.Renamed σ b') (ps : List Int) :
    b'.segmentsBetween ps = b.segmentsBetween ps := by
  have hpiece (x y : Int) : (b'.slice x y, b'.faceAt x) = (b.slice x y, b.faceAt x) := by
    rw [h.same]
    rfl
  induction ps with
  | nil => rfl
  | cons x rest ih =>
    cases rest with
    | nil => rfl
    | cons y rest => rw [Buffer.segmentsBetween, Buffer.segmentsBetween, hpiece, ih]

/-- No marker is displayed. -/
theorem segments (h : b.Renamed σ b') : b'.segments = b.segments := by
  have hcuts : b'.cuts = b.cuts := by
    rw [h.same]
    rfl
  rw [Buffer.segments, Buffer.segments, hcuts, h.segmentsBetween]

end Renamed

/-! ### Operations -/

/-- Two answers that agree: both operations fail alike, or both succeed with answers that belong
together by `g`, and leave buffers that are the same but for the names of the markers. -/
inductive Agree (σ : MarkerId → MarkerId) (g : α → β) :
    Except EditError (Buffer × α) → Except EditError (Buffer × β) → Prop
  | error (e : EditError) : Agree σ g (.error e) (.error e)
  | ok {b b' : Buffer} (h : b.Renamed σ b') (a : α) : Agree σ g (.ok (b, a)) (.ok (b', g a))

namespace Agree

variable {g : α → β} {k : γ → δ}

/-- Two computations that begin with the same question agree if what they do then agrees. -/
theorem ask {x x' : Except EditError ε} {f : ε → Except EditError (Buffer × α)}
    {f' : ε → Except EditError (Buffer × β)} (hx : x' = x) (hf : ∀ a, Agree σ g (f a) (f' a)) :
    Agree σ g (x >>= f) (x' >>= f') := by
  subst hx
  cases x' with
  | error e => exact .error e
  | ok a => exact hf a

/-- Two computations that begin with operations which agree agree if what they do then agrees. -/
theorem bind {x : Except EditError (Buffer × α)} {x' : Except EditError (Buffer × β)}
    {f : Buffer × α → Except EditError (Buffer × γ)}
    {f' : Buffer × β → Except EditError (Buffer × δ)} (hx : Agree σ g x x')
    (hf : ∀ c c' a, c.Renamed σ c' → Agree σ k (f (c, a)) (f' (c', g a))) :
    Agree σ k (x >>= f) (x' >>= f') := by
  cases hx with
  | error e => exact .error e
  | ok h a => exact hf _ _ a h

end Agree

namespace Renamed

theorem insert (h : b.Renamed σ b') (p : Pos) (t : Text) (props : Option Props) :
    Agree σ id (b.insert p t props) (b'.insert (p.rename σ) t props) := by
  rw [insert_eq, insert_eq]
  -- the position is asked for by two names and is one number, and so on with the same number
  refine .ask (h.locate p) fun i => ?_
  have hput : (b.put i i t).Renamed σ (b'.put i i t) := by
    rw [put_self, put_self]
    exact h.insertText i t
  cases h with
  | intro _ => exact .ask rfl fun _ => .ask rfl fun _ => .ok (hput.addSpans _) _

theorem delete (h : b.Renamed σ b') (p q : Pos) :
    Agree σ id (b.delete p q) (b'.delete (p.rename σ) (q.rename σ)) := by
  refine .ask (h.locate p) fun x => .ask (h.locate q) fun y => ?_
  cases h with
  | intro h =>
    -- the checks do not look at the markers
    refine .ask rfl fun _ => ?_
    by_cases heq : min x y = max x y
    · rw [if_pos heq, if_pos heq]
      exact .ok (.intro h) _
    · rw [if_neg heq, if_neg heq]
      exact .ask rfl fun _ => .ok ((Renamed.intro h).deleteText _ _) _

/-- Replacing answers with nothing but the buffer. -/
theorem replaceRegion (h : b.Renamed σ b') (p q : Pos) (t : Text) (a : α) :
    Agree σ id (do return (← b.replaceRegion p q t, a))
      (do return (← b'.replaceRegion (p.rename σ) (q.rename σ) t, a)) := by
  unfold Buffer.replaceRegion
  simp only [bind_assoc, pure_bind]
  refine .ask (h.locate p) fun x => .ask (h.locate q) fun y => ?_
  refine (h.delete (.at (min x y)) q).bind fun c c' _ hc => ?_
  exact (hc.insert (.at (min x y)) t none).bind fun c c' _ hc' => .ok hc' a

theorem addSpan (h : b.Renamed σ b') (p q : Pos) (props : Props) :
    Agree σ id (b.addSpan p q props) (b'.addSpan (p.rename σ) (q.rename σ) props) := by
  refine .ask (h.locate p) fun x => .ask (h.locate q) fun y => ?_
  exact .ok (h.addSpans [⟨x, y, props⟩]) _

/-- Both markers are new, and their names belong together. -/
theorem makeMarker (h : b.Renamed σ b') (p : Pos) (advances : Bool) :
    Agree σ σ (b.makeMarker p advances) (b'.makeMarker (p.rename σ) advances) := by
  refine .ask (h.locate p) fun x => ?_
  have hname : b'.markers.length = σ b.markers.length := (h.names.next 0).symm
  cases h with
  | @intro ms' h =>
    by_cases hx : 0 ≤ x ∧ x ≤ b.size
    · have hx' : 0 ≤ x ∧ x ≤ ({ b with markers := ms' } : Buffer).size := hx
      rw [if_pos hx, if_pos hx', hname]
      exact .ok (.intro (b := { b with markers := b.markers ++ [⟨some x, advances⟩] })
        (h.push _)) _
    · have hx' : ¬(0 ≤ x ∧ x ≤ ({ b with markers := ms' } : Buffer).size) := hx
      rw [if_neg hx, if_neg hx']
      exact .error _

theorem goto (h : b.Renamed σ b') (p : Pos) (a : α) :
    Agree σ id (do return (← b.goto p, a)) (do return (← b'.goto (p.rename σ), a)) := by
  unfold Buffer.goto
  simp only [bind_assoc, pure_bind]
  refine .ask (h.locate p) fun x => ?_
  cases h with
  | intro h => exact .ok (.intro (b := { b with point := b.clamp x }) h) a

theorem confine (h : b.Renamed σ b') (v : Int × Int) :
    let c : Buffer := { b with view := some v }
    let c' : Buffer := { b' with view := some v }
    ({ c with point := c.clamp b.point } : Buffer).Renamed σ
      { c' with point := c'.clamp b'.point } := by
  cases h with
  | intro h =>
    let c : Buffer := { b with view := some v }
    exact .intro (b := { c with point := c.clamp b.point }) h

/-- Narrowing may fail half way, when the old view is gone already and a marker is made. -/
theorem narrow (h : b.Renamed σ b') (p q : Pos) :
    (b'.narrow (p.rename σ) (q.rename σ)).1 = (b.narrow p q).1 ∧
      (b.narrow p q).2.Renamed σ (b'.narrow (p.rename σ) (q.rename σ)).2 := by
  unfold Buffer.narrow
  rw [h.locate, h.locate]
  cases b.locate p with
  | error e => exact ⟨rfl, h⟩
  | ok x =>
    cases b.locate q with
    | error e => exact ⟨rfl, h⟩
    | ok y =>
      simp only [Bind.bind, Except.bind, pure, Except.pure]
      -- the three ways to leave: each end may lie outside the text, or the view is made
      have hstart := h.widen.makeMarker (.at (min x y)) false
      change Agree σ σ _ (b'.widen.makeMarker (.at (min x y)) false) at hstart
      generalize b.widen.makeMarker (.at (min x y)) false = r at hstart ⊢
      generalize b'.widen.makeMarker (.at (min x y)) false = r' at hstart ⊢
      cases hstart with
      | error e => exact ⟨rfl, h.widen⟩
      | @ok c c' hc m =>
        simp only
        have hstop := hc.makeMarker (.at (max x y)) true
        change Agree σ σ _ (c'.makeMarker (.at (max x y)) true) at hstop
        generalize c.makeMarker (.at (max x y)) true = r at hstop ⊢
        generalize c'.makeMarker (.at (max x y)) true = r' at hstop ⊢
        cases hstop with
        | error e => exact ⟨rfl, hc⟩
        | ok _ m' => exact ⟨rfl, h.widen.confine (min x y, max x y)⟩

end Renamed

end Buffer

end LiterateEdit
