import LiterateEdit.Buffer.Edit
import LiterateEdit.Context.Resolve

/-!
# Splicing context around a block

The text of a block is edited in a buffer that also shows the blocks around it. Splicing puts their
texts before and behind the text of the block, as protected spans with a face of their own, and sets
two markers around the editable region between them. Text typed at either edge of the region stays
inside: the first marker stays where it is, the second one advances.

While the blocks before are put in, both markers advance, so that an empty region ends up behind
them; the blocks behind are put in at fixed positions while the markers stay.

Unsplicing takes away everything outside the markers. Both are done completely or not at all. An
attempt to do either can be made to fail at its `n`-th edit (`fault`), as a host may break off.
-/

namespace LiterateEdit

/-- The face of context. -/
def contextFace : Text := Text.lit "mdctx-context"

/-- The properties of context. -/
def contextProps : Props := ⟨true, true, some contextFace⟩

/-- What is put in for a block before the edited one. -/
def Block.segmentBefore (b : Block) : Text := b.text ++ ['\n']

/-- What is put in for a block behind the edited one. -/
def Block.segmentAfter (b : Block) : Text := '\n' :: b.text

/-- Whether a buffer has context around its editable region, and the markers of the region. -/
inductive Engine where
  /-- There is no context. -/
  | unspliced
  /-- There is context outside the two markers. -/
  | spliced (start stop : MarkerId)
  deriving DecidableEq

namespace Engine

/-- Is there context? -/
def isSpliced : Engine → Bool
  | .unspliced => false
  | .spliced _ _ => true

/-- The editable region, if its markers are in order. -/
def region? (e : Engine) (b : Buffer) : Option (Int × Int) :=
  match e with
  | .unspliced => none
  | .spliced s t =>
    match b.markerPosition s, b.markerPosition t with
    | some p, some q => if 0 ≤ p ∧ p ≤ q ∧ q ≤ b.size then some (p, q) else none
    | _, _ => none

/-- The text of the editable region, or all text if there is no region. -/
def editable (e : Engine) (b : Buffer) : Text :=
  match e.region? b with
  | none => b.text
  | some (p, q) => b.slice p q

/-! ### Splicing -/

/-- The outcome of edits that may break off, with the buffer they lead to. -/
abbrev Attempt (α : Type) := Except EditError α × Buffer

/-- Put in the blocks before the region at its start marker. `n` is the number of the next edit. -/
def insertBefore (fault : Option Nat) (start : MarkerId) (n : Nat) (b : Buffer) :
    List Block → Attempt Nat
  | [] => (.ok n, b)
  | block :: rest =>
    if fault = some n then (.error .interrupted, b)
    else
      match b.insert (.marker start) block.segmentBefore (some contextProps) with
      | .error e => (.error e, b)
      | .ok (b', _) => insertBefore fault start (n + 1) b' rest

/-- Put in the blocks behind the region one after another from a position on. `n` is the number of
the next edit. -/
def insertAfter (fault : Option Nat) (spot : Int) (n : Nat) (b : Buffer) : List Block → Attempt Unit
  | [] => (.ok (), b)
  | block :: rest =>
    if fault = some n then (.error .interrupted, b)
    else
      match b.insert (.at spot) block.segmentAfter (some contextProps) with
      | .error e => (.error e, b)
      | .ok (b', _) =>
        insertAfter fault (spot + block.segmentAfter.length) (n + 1) b' rest

/-- Put in the context and set the markers; the markers are the answer. -/
def spliceText (fault : Option Nat) (p : Partition) (narrow : Bool) (b : Buffer) :
    Attempt (MarkerId × MarkerId) :=
  match b.makeMarker (.at b.low) true with
  | .error e => (.error e, b)
  | .ok (b, start) =>
  match b.makeMarker (.at b.high) true with
  | .error e => (.error e, b)
  | .ok (b, stop) =>
  match insertBefore fault start 1 b p.before with
  | (.error e, b) => (.error e, b)
  | (.ok n, b) =>
  let b := (b.setAdvances start false).setAdvances stop false
  match b.locate (.marker stop) with
  | .error e => (.error e, b)
  | .ok spot =>
  match insertAfter fault spot n b p.after with
  | (.error e, b) => (.error e, b)
  | (.ok _, b) =>
  let b := b.setAdvances stop true
  match if narrow then b.narrow (.marker start) (.marker stop) else (.ok (), b) with
  | (.error e, b) => (.error e, b)
  | (.ok _, b) =>
  match b.goto (.marker start) with
  | .error e => (.error e, b)
  | .ok b => (.ok (start, stop), b)

/-- What an attempt to splice or unsplice leads to. -/
structure Result where
  /-- Whether anything was done, or why it failed. -/
  outcome : Except EditError Bool
  /-- The buffer. -/
  buffer : Buffer
  /-- The engine. -/
  engine : Engine
  /-- What is told about it. -/
  notices : List Notice

/-- Put context around the text in the view. -/
def splice (e : Engine) (b : Buffer) (p : Option Partition) (narrow : Bool)
    (fault : Option Nat) : Result :=
  let refuse (l : Level) (m : String) : Result := ⟨.ok false, b, e, [⟨l, .splice, Text.lit m⟩]⟩
  match e with
  | .spliced _ _ => refuse .warning "Buffer already spliced; ignoring splice request"
  | .unspliced =>
    match p with
    | none => refuse .debug "No context to splice"
    | some p =>
      if p.isEmpty then refuse .debug "No context to splice"
      else
        match b.atomically fun b => b.withUnlocked (spliceText fault p narrow) with
        | (.error err, b) => ⟨.error err, b, e, []⟩
        | (.ok (start, stop), b) =>
          let place (m : MarkerId) : Text := Text.ofInt ((b.markerPosition m).getD 0)
          ⟨.ok true, b, .spliced start stop,
            [⟨.debug, .splice, Text.lit "Spliced " ++ Text.ofNat p.before.length ++
              Text.lit " block(s) before and " ++ Text.ofNat p.after.length ++
              Text.lit " after; editable region " ++ place start ++ Text.lit ".." ++ place stop⟩]⟩

/-! ### Unsplicing -/

/-- Delete what lies between two positions, as the `n`-th edit. -/
def deleteStep (fault : Option Nat) (n : Nat) (p q : Pos) (b : Buffer) : Attempt Unit :=
  if fault = some n then (.error .interrupted, b)
  else
    match b.delete p q with
    | .error e => (.error e, b)
    | .ok (b, _) => (.ok (), b)

/-- Take away what lies outside the region, the tail first. -/
def unspliceText (fault : Option Nat) (start stop : MarkerId) (b : Buffer) : Attempt Unit :=
  let b := b.widen
  match deleteStep fault 1 (.marker stop) (.at b.size) b with
  | (.error e, b) => (.error e, b)
  | (.ok _, b) =>
  match deleteStep fault 2 (.at 0) (.marker start) b with
  | (.error e, b) => (.error e, b)
  | (.ok _, b) =>
  match b.goto (.at 0) with
  | .error e => (.error e, b)
  | .ok b => (.ok (), b)

/-- Take away the context and leave the editable region. If the markers of the region are not in
order any more, nothing is taken away and the engine forgets about the context. -/
def unsplice (e : Engine) (b : Buffer) (fault : Option Nat) : Result :=
  match e with
  | .unspliced => ⟨.ok false, b, .unspliced, []⟩
  | .spliced start stop =>
    match e.region? b with
    | none =>
      ⟨.ok false, (b.deleteMarker start).deleteMarker stop, .unspliced,
        [⟨.warning, .splice, Text.lit "Stale splice boundaries; leaving buffer untouched"⟩]⟩
    | some _ =>
      match b.atomically fun b => b.withUnlocked (unspliceText fault start stop) with
      | (.error err, b) => ⟨.error err, b, e, []⟩
      | (.ok _, b) =>
        ⟨.ok true, (b.deleteMarker start).deleteMarker stop, .unspliced,
          [⟨.debug, .splice, Text.lit "Unspliced; " ++ Text.ofInt b.size ++
            Text.lit " characters remain"⟩]⟩

end Engine

end LiterateEdit
