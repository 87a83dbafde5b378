import LiterateEdit.Path.Basic
import LiterateEdit.Text.Basic

/-!
# Buffers

A buffer holds a text that is being edited, with everything that moves along with it:

* the **point**, where the user is;
* **markers**, which keep their place in the text through edits. A marker either stays before text
  that is inserted exactly where it is, or advances past it. A marker can be detached; it then has
  no place any more. Markers are named by their number in the order of creation, and a name is never
  used again;
* **spans**, stretches of text with properties: a span can be protected against edits and can have a
  face for display;
* the **view**, the part of the text to which the user is confined, if there is one. Two markers of
  its own hold its ends, one that stays and one that advances. Nobody can name them, and they go
  with the view, so that their places are all there is to keep of them.

Positions count characters from the start of the text. They are integers because a host may ask for
a position that is not in the text; such requests are refused.
-/

namespace LiterateEdit

/-- The name of a marker. -/
abbrev MarkerId := Nat

/-- A place in a buffer that moves with edits. -/
structure Marker where
  /-- Where the marker is; `none` if it is detached. -/
  position : Option Int
  /-- Does the marker move past text inserted where it is? -/
  advances : Bool
  deriving DecidableEq

/-- A marker without a place. -/
def Marker.detached (m : Marker) : Marker := { m with position := none }

/-- The properties of a span. -/
structure Props where
  /-- Is the text protected against edits? -/
  readOnly : Bool := false
  /-- May text be inserted right behind the span although it is protected? -/
  rearNonsticky : Bool := false
  /-- How the text is displayed. -/
  face : Option Text := none
  deriving DecidableEq

/-- A stretch of text with properties. -/
structure Span where
  /-- The position of the first character. -/
  start : Int
  /-- The position behind the last character. -/
  stop : Int
  /-- The properties. -/
  props : Props
  deriving DecidableEq

/-- Does the span cover the character at a position? -/
def Span.covers (s : Span) (p : Int) : Bool := s.start ≤ p && p < s.stop

/-- Does the span forbid to insert at a position? -/
def Span.forbidsInsert (s : Span) (p : Int) : Bool :=
  s.props.readOnly && ((s.start < p && p < s.stop) || (p = s.stop && !s.props.rearNonsticky))

/-- Does the span forbid to delete a stretch? -/
def Span.forbidsDelete (s : Span) (start stop : Int) : Bool :=
  s.props.readOnly && s.start < stop && start < s.stop

/-- A position in a buffer: a number, or the place of a marker. -/
inductive Pos where
  /-- A number of characters from the start. -/
  | at (n : Int)
  /-- The place of a marker. -/
  | marker (m : MarkerId)
  deriving DecidableEq

/-- A text that is being edited. -/
structure Buffer where
  /-- The text. -/
  text : Text
  /-- Where the user is. -/
  point : Int := 0
  /-- The markers by their names. -/
  markers : List Marker := []
  /-- The spans, the oldest first. -/
  spans : List Span := []
  /-- The ends of the part of the text to which the user is confined: the first one stays before
  text that is inserted there, the second one advances past it. -/
  view : Option (Int × Int) := none
  /-- Are edits of protected text allowed? -/
  unlocked : Bool := false
  /-- The file that the buffer stands for. -/
  file : Option Path := none
  deriving DecidableEq

/-- Why a buffer refuses an operation. -/
inductive EditError where
  /-- A marker without a place was given. -/
  | detached
  /-- A marker was given that there never was. -/
  | noMarker
  /-- The position of a marker was asked for that there never was. -/
  | noPosition
  /-- A marker cannot be made outside the text. -/
  | outsideText (position : Int) (size : Nat)
  /-- A stretch does not lie in the view. -/
  | outsideView (start stop low high : Int)
  /-- A protected span is touched. -/
  | readOnly (start stop : Int)
  /-- The host broke off. -/
  | interrupted
  deriving DecidableEq

/-- What is told about a refusal, if anything is. -/
def EditError.message? : EditError → Option Text
  | .detached => some (Text.lit "Marker does not point anywhere")
  | .noMarker => none
  | .noPosition => none
  | .outsideText p size =>
    some (Text.lit "Position " ++ Text.ofInt p ++ Text.lit " outside buffer of size " ++
      Text.ofNat size)
  | .outsideView s e low high =>
    some (Text.lit "Range " ++ Text.ofInt s ++ Text.lit ".." ++ Text.ofInt e ++
      Text.lit " outside accessible region " ++ Text.ofInt low ++ Text.lit ".." ++ Text.ofInt high)
  | .readOnly s e =>
    some (Text.lit "Text is read-only: " ++ Text.ofInt s ++ Text.lit ".." ++ Text.ofInt e)
  | .interrupted => some (Text.lit "boom")

namespace Buffer

/-- A buffer with a text and nothing else. -/
def ofText (t : Text) : Buffer := { text := t }

/-- The number of characters. -/
def size (b : Buffer) : Int := b.text.length

/-- Where the view starts. -/
def low (b : Buffer) : Int :=
  match b.view with
  | none => 0
  | some v => v.1

/-- Where the view ends. -/
def high (b : Buffer) : Int :=
  match b.view with
  | none => b.size
  | some v => v.2

/-- The stretch of the text between two positions, which may count from the end. -/
def slice (b : Buffer) (start stop : Int) : Text := Text.slice b.text start stop

/-- The text in the view. -/
def visible (b : Buffer) : Text := b.slice b.low b.high

/-- Where a marker is. -/
def markerPosition (b : Buffer) (m : MarkerId) : Option Int :=
  match b.markers[m]? with
  | none => none
  | some k => k.position

/-- The number of characters before a position. -/
def locate (b : Buffer) : Pos → Except EditError Int
  | .at n => .ok n
  | .marker m =>
    match b.markers[m]? with
    | none => .error .noPosition
    | some k =>
      match k.position with
      | none => .error .detached
      | some p => .ok p

/-- The stretch of the text between two positions. -/
def substring (b : Buffer) (start stop : Pos) : Except EditError Text := do
  let s ← b.locate start
  let e ← b.locate stop
  return b.slice s e

/-- The spans that cover the character at a position. -/
def spansAt (b : Buffer) (p : Int) : List Span := b.spans.filter fun s => s.covers p

/-! ### Display -/

/-- The face that the character at a position is displayed in: that of the first span that covers it
and has one. -/
def faceAt (b : Buffer) (p : Int) : Option Text :=
  ((b.spansAt p).filterMap fun s => s.props.face).find? fun f => !f.isEmpty

/-- The ends of spans that lie inside the view. -/
def innerEnds (b : Buffer) : List Int :=
  (b.spans.flatMap fun s => [s.start, s.stop]).filter fun p => b.low < p && p < b.high

/-- Put a number into an ascending list, unless it is there. -/
def insertSorted (p : Int) : List Int → List Int
  | [] => [p]
  | q :: rest => if p < q then p :: q :: rest else if p = q then q :: rest
    else q :: insertSorted p rest

/-- The positions at which the display may change: the ends of the view and of the spans in it. -/
def cuts (b : Buffer) : List Int :=
  ([b.low, b.high] ++ b.innerEnds).foldl (fun ps p => insertSorted p ps) []

/-- The stretches between neighbouring positions, each with its face. -/
def segmentsBetween (b : Buffer) : List Int → List (Text × Option Text)
  | p :: q :: rest => (b.slice p q, b.faceAt p) :: b.segmentsBetween (q :: rest)
  | _ => []

/-- The text in the view, in stretches that are displayed in one face. -/
def segments (b : Buffer) : List (Text × Option Text) := b.segmentsBetween b.cuts

end Buffer

end LiterateEdit
