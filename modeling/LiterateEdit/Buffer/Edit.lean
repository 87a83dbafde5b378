import LiterateEdit.Buffer.Basic

/-!
# Editing a buffer

Inserting, deleting and replacing text, making and detaching markers, moving the point, and
confining the user to a view.

An edit has to lie in the view, and unless the buffer is unlocked it must not touch a protected
span. Everything that has a place in the text moves with it: `afterInsert` and `afterDelete` say
where a position goes. A deletion drops the spans that it leaves empty.

An operation that is refused leaves the buffer as it was, with one exception: a view that cannot be
made leaves the buffer without a view, and with a marker at the start of the view that was asked for
if that is in the text.

`Buffer.atomically` runs an operation so that nothing of it is left if it fails: the buffer is as
before, except that markers made on the way keep their names and are detached.
-/

namespace LiterateEdit

/-- Where a position goes when `n` characters are inserted at `spot`; `advances` says whether a
position exactly there moves. -/
def afterInsert (spot : Int) (n : Int) (advances : Bool) (p : Int) : Int :=
  if spot < p ∨ (p = spot ∧ advances) then p + n else p

/-- Where a position goes when the stretch from `start` to `stop` is deleted. -/
def afterDelete (start stop : Int) (p : Int) : Int :=
  if stop ≤ p then p - (stop - start) else min p start

namespace Marker

/-- The marker behind an insertion. -/
def inserted (spot n : Int) (m : Marker) : Marker :=
  { m with position := m.position.map (afterInsert spot n m.advances) }

/-- The marker behind a deletion. -/
def deleted (start stop : Int) (m : Marker) : Marker :=
  { m with position := m.position.map (afterDelete start stop) }

end Marker

namespace Span

/-- The span behind an insertion: text inserted inside it becomes a part of it. -/
def inserted (spot n : Int) (s : Span) : Span :=
  if spot ≤ s.start then { s with start := s.start + n, stop := s.stop + n }
  else if spot < s.stop then { s with stop := s.stop + n }
  else s

/-- The span behind a deletion. -/
def deleted (start stop : Int) (s : Span) : Span :=
  { s with start := afterDelete start stop s.start, stop := afterDelete start stop s.stop }

end Span

namespace Buffer

/-! ### Permission -/

/-- Does a stretch lie in the view? -/
def checkView (b : Buffer) (start stop : Int) : Except EditError Unit :=
  if b.low ≤ start ∧ start ≤ stop ∧ stop ≤ b.high then .ok ()
  else .error (.outsideView start stop b.low b.high)

/-- May text be inserted at a position? -/
def checkInsert (b : Buffer) (p : Int) : Except EditError Unit :=
  if b.unlocked then .ok ()
  else
    match b.spans.find? fun s => s.forbidsInsert p with
    | none => .ok ()
    | some s => .error (.readOnly s.start s.stop)

/-- May a stretch be deleted? -/
def checkDelete (b : Buffer) (start stop : Int) : Except EditError Unit :=
  if b.unlocked then .ok ()
  else
    match b.spans.find? fun s => s.forbidsDelete start stop with
    | none => .ok ()
    | some s => .error (.readOnly s.start s.stop)

/-! ### Edits -/

/-- The buffer with a text put in at a position, without asking for permission. -/
def insertText (b : Buffer) (spot : Int) (t : Text) : Buffer :=
  let n : Int := t.length
  { b with
    text := b.text.take spot.toNat ++ t ++ b.text.drop spot.toNat
    point := if spot ≤ b.point then b.point + n else b.point
    markers := b.markers.map (Marker.inserted spot n)
    spans := b.spans.map (Span.inserted spot n)
    view := b.view.map fun v => (afterInsert spot n false v.1, afterInsert spot n true v.2) }

/-- The buffer with a stretch taken out, without asking for permission. -/
def deleteText (b : Buffer) (start stop : Int) : Buffer :=
  { b with
    text := b.text.take start.toNat ++ b.text.drop stop.toNat
    point := afterDelete start stop b.point
    markers := b.markers.map (Marker.deleted start stop)
    spans := (b.spans.map (Span.deleted start stop)).filter fun s => s.start < s.stop
    view := b.view.map fun v => (afterDelete start stop v.1, afterDelete start stop v.2) }

/-- Insert text. If properties are given, the text gets a span with them, which is a part of the
answer. -/
def insert (b : Buffer) (p : Pos) (t : Text) (props : Option Props) :
    Except EditError (Buffer × Option Span) := do
  let spot ← b.locate p
  b.checkView spot spot
  b.checkInsert spot
  if t.isEmpty then return (b, none)
  let b' := b.insertText spot t
  match props with
  | none => return (b', none)
  | some props =>
    let s : Span := ⟨spot, spot + t.length, props⟩
    return ({ b' with spans := b'.spans ++ [s] }, some s)

/-- Delete the text between two positions, in either order; the text is a part of the answer. -/
def delete (b : Buffer) (p q : Pos) : Except EditError (Buffer × Text) := do
  let x ← b.locate p
  let y ← b.locate q
  let start := min x y
  let stop := max x y
  b.checkView start stop
  if start = stop then return (b, [])
  b.checkDelete start stop
  return (b.deleteText start stop, b.slice start stop)

/-- Put text in the place of a stretch that starts at the smaller one of two positions and ends at
the second one. Nothing is done unless all can be done. -/
def replaceRegion (b : Buffer) (p q : Pos) (t : Text) : Except EditError Buffer := do
  let x ← b.locate p
  let y ← b.locate q
  let start := min x y
  let (b', _) ← b.delete (.at start) q
  let (b'', _) ← b'.insert (.at start) t none
  return b''

/-- Give a stretch properties. -/
def addSpan (b : Buffer) (p q : Pos) (props : Props) : Except EditError (Buffer × Span) := do
  let start ← b.locate p
  let stop ← b.locate q
  let s : Span := ⟨start, stop, props⟩
  return ({ b with spans := b.spans ++ [s] }, s)

/-! ### Markers and point -/

/-- Make a marker. -/
def makeMarker (b : Buffer) (p : Pos) (advances : Bool) : Except EditError (Buffer × MarkerId) := do
  let n ← b.locate p
  if 0 ≤ n ∧ n ≤ b.size then
    return ({ b with markers := b.markers ++ [⟨some n, advances⟩] }, b.markers.length)
  else throw (.outsideText n b.text.length)

/-- Change a marker. -/
def modifyMarker (b : Buffer) (m : MarkerId) (f : Marker → Marker) : Buffer :=
  { b with markers := b.markers.modify m f }

/-- Detach a marker. -/
def deleteMarker (b : Buffer) (m : MarkerId) : Buffer := b.modifyMarker m Marker.detached

/-- Say whether a marker moves past text inserted where it is. -/
def setAdvances (b : Buffer) (m : MarkerId) (advances : Bool) : Buffer :=
  b.modifyMarker m fun k => { k with advances := advances }

/-- The place nearest to a position that lies in the view. -/
def clamp (b : Buffer) (p : Int) : Int := min (max p b.low) b.high

/-- Move the point to a position, or as near to it as the view allows. -/
def goto (b : Buffer) (p : Pos) : Except EditError Buffer := do
  let n ← b.locate p
  return { b with point := b.clamp n }

/-! ### View -/

/-- Give up the view. -/
def widen (b : Buffer) : Buffer := { b with view := none }

/-- Confine the user to the text between two positions, in either order. The old view is given up
first, and then a marker is made for either end of the new one, the start first. If the end cannot
be made, the marker for the start is there already, and nobody is told its name. -/
def narrow (b : Buffer) (p q : Pos) : Except EditError Unit × Buffer :=
  match (do return (← b.locate p, ← b.locate q) : Except EditError (Int × Int)) with
  | .error e => (.error e, b)
  | .ok (x, y) =>
    let b := b.widen
    let start := min x y
    let stop := max x y
    match b.makeMarker (.at start) false with
    | .error e => (.error e, b)
    | .ok (marked, _) =>
      match marked.makeMarker (.at stop) true with
      | .error e => (.error e, marked)
      | .ok _ =>
        -- the two markers are the ends of the view from now on
        let b := { b with view := some (start, stop) }
        (.ok (), { b with point := b.clamp b.point })

/-! ### All or nothing -/

/-- What becomes of the marker named `m` when the attempt that led it to `k` is taken back: a marker
that had a place is set back to it, any other one is detached. -/
def reattached (b : Buffer) (m : MarkerId) (k : Marker) : Marker :=
  match b.markers[m]? with
  | none => k.detached
  | some old => if old.position.isSome then old else k.detached

/-- The buffer `b'` that a failed attempt led to, taken back to where it was in `b`: what has a
value is set to its value there, and the markers are gone through one by one. -/
def restoredAfter (b b' : Buffer) : Buffer :=
  { b' with
    text := b.text
    point := b.point
    markers := b'.markers.mapIdx b.reattached
    spans := b.spans
    view := b.view }

/-- Run an operation so that nothing of it is left if it fails. -/
def atomically (b : Buffer) (f : Buffer → Except ε α × Buffer) : Except ε α × Buffer :=
  match f b with
  | (.ok a, b') => (.ok a, b')
  | (.error e, b') => (.error e, b.restoredAfter b')

/-- Run an operation with edits of protected text allowed. -/
def withUnlocked (b : Buffer) (f : Buffer → α × Buffer) : α × Buffer :=
  let (a, b') := f { b with unlocked := true }
  (a, { b' with unlocked := b.unlocked })

end Buffer

end LiterateEdit
