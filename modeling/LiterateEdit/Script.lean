import LiterateEdit.Context.Splice

/-!
# Scripts of edits

A script is a list of steps on a buffer and the engine that splices context into it: edits, moves,
questions, and groups of steps that run with protection lifted or all together or not at all.

A script names positions by numbers, by the markers that its own steps made, in the order of their
making, and by the markers of the engine. Each step leaves a record of its result and of the state
behind it; the records of the steps in a group come before that of the group. A step that fails does
not stop the script. In a group that is told to stop, the first step that fails ends the group,
which fails with it.
-/

namespace LiterateEdit

/-- A position as a script names it. -/
inductive Ref where
  /-- A number of characters from the start. -/
  | at (n : Int)
  /-- The place of a marker that the script made. -/
  | user (i : Nat)
  /-- The start of the editable region. -/
  | regionStart
  /-- The end of the editable region. -/
  | regionStop
  deriving DecidableEq

/-- A step of a script. -/
inductive Step where
  | insert (p : Ref) (t : Text) (props : Option Props)
  | delete (p q : Ref)
  | replaceRegion (p q : Ref) (t : Text)
  | substring (p q : Ref)
  | goto (p : Ref)
  | makeMarker (p : Ref) (advances : Bool)
  | deleteMarker (m : Ref)
  | markerValid (m : Ref)
  | narrow (p q : Ref)
  | widen
  | addSpan (p q : Ref) (props : Props)
  | spansAt (p : Int)
  | segments
  | splice (p : Option Partition) (narrow : Bool) (fault : Option Nat)
  | unsplice (fault : Option Nat)
  | editable
  /-- Run steps with edits of protected text allowed. -/
  | unlocked (steps : List Step) (stops : Bool)
  /-- Run steps so that nothing of them is left if the group fails. -/
  | atomic (steps : List Step) (stops fails : Bool)

/-- What a step gives. -/
inductive StepResult where
  | nothing
  | text (t : Text)
  | truth (b : Bool)
  | marker (i : Nat)
  | span (s : Span)
  | spans (ss : List Span)
  | segments (ss : List (Text × Option Text))
  deriving DecidableEq

/-- What a script works on. -/
structure Desk where
  /-- The buffer. -/
  buffer : Buffer
  /-- The engine. -/
  engine : Engine
  /-- The markers that the script made. -/
  markers : List MarkerId

/-- What a step leaves behind. -/
structure StepRecord where
  /-- The result, or why there is none. -/
  outcome : Except EditError StepResult
  /-- The state behind the step. -/
  desk : Desk
  /-- What was told about it. -/
  notices : List Notice

namespace Desk

/-- The marker that a position is named by, if it is. -/
def marker? (d : Desk) : Ref → Option MarkerId
  | .at _ => none
  | .user i => d.markers[i]?
  | .regionStart =>
    match d.engine with
    | .unspliced => none
    | .spliced s _ => some s
  | .regionStop =>
    match d.engine with
    | .unspliced => none
    | .spliced _ t => some t

/-- The position that a script names. -/
def pos (d : Desk) : Ref → Except EditError Pos
  | .at n => .ok (.at n)
  | r =>
    match d.marker? r with
    | none => .error .noPosition
    | some m => .ok (.marker m)

/-- The position that a script names for an end of a stretch to look at. If it is an end of the
editable region and there is no region, the stretch goes up to an edge. -/
def bound (d : Desk) (edge : Int) (r : Ref) : Except EditError Pos :=
  match r, d.marker? r with
  | .regionStart, none => .ok (.at edge)
  | .regionStop, none => .ok (.at edge)
  | r, _ => d.pos r

/-- The result of a step that changes the buffer if it succeeds. -/
def edited (d : Desk) (r : Except EditError (Buffer × StepResult)) : StepRecord :=
  match r with
  | .error e => ⟨.error e, d, []⟩
  | .ok (b, r) => ⟨.ok r, { d with buffer := b }, []⟩

/-- The result of a step that only asks. -/
def asked (d : Desk) (r : Except EditError StepResult) : StepRecord := ⟨r, d, []⟩

/-- The result of splicing or unsplicing. -/
def respliced (d : Desk) (r : Engine.Result) : StepRecord :=
  ⟨r.outcome.map .truth, { d with buffer := r.buffer, engine := r.engine }, r.notices⟩

/-- Take a step that is no group. -/
def take (d : Desk) : Step → StepRecord
  | .insert p t props => d.edited do
    let (b, s) ← d.buffer.insert (← d.pos p) t props
    return (b, (s.map .span).getD .nothing)
  | .delete p q => d.edited do
    let (b, t) ← d.buffer.delete (← d.pos p) (← d.pos q)
    return (b, .text t)
  | .replaceRegion p q t => d.edited do
    return (← d.buffer.replaceRegion (← d.pos p) (← d.pos q) t, .nothing)
  | .substring p q => d.asked do
    return .text (← d.buffer.substring (← d.bound 0 p) (← d.bound d.buffer.size q))
  | .goto p => d.edited do return (← d.buffer.goto (← d.pos p), .nothing)
  | .makeMarker p advances =>
    match (do d.buffer.makeMarker (← d.pos p) advances) with
    | .error e => ⟨.error e, d, []⟩
    | .ok (b, m) =>
      ⟨.ok (.marker d.markers.length), { d with buffer := b, markers := d.markers ++ [m] }, []⟩
  | .deleteMarker m => d.edited do
    match d.marker? m with
    | none => throw .noMarker
    | some m => return (d.buffer.deleteMarker m, .nothing)
  | .markerValid m => d.asked do
    match d.marker? m with
    | none => throw .noMarker
    | some m => return .truth (d.buffer.markerPosition m).isSome
  | .narrow p q =>
    match (do return (← d.pos p, ← d.pos q) : Except EditError (Pos × Pos)) with
    | .error e => ⟨.error e, d, []⟩
    | .ok (p, q) =>
      let (r, b) := d.buffer.narrow p q
      ⟨r.map fun _ => .nothing, { d with buffer := b }, []⟩
  | .widen => d.edited (.ok (d.buffer.widen, .nothing))
  | .addSpan p q props => d.edited do
    let (b, s) ← d.buffer.addSpan (← d.pos p) (← d.pos q) props
    return (b, .span s)
  | .spansAt p => d.asked (.ok (.spans (d.buffer.spansAt p)))
  | .segments => d.asked (.ok (.segments d.buffer.segments))
  | .splice p narrow fault => d.respliced (d.engine.splice d.buffer p narrow fault)
  | .unsplice fault => d.respliced (d.engine.unsplice d.buffer fault)
  | .editable => d.asked (.ok (.text (d.engine.editable d.buffer)))
  | .unlocked _ _ => d.asked (.ok .nothing)
  | .atomic _ _ _ => d.asked (.ok .nothing)

/-- Was the last of some records a failure? -/
def failure? (records : List StepRecord) : Option EditError :=
  match records.getLast? with
  | none => none
  | some r =>
    match r.outcome with
    | .error e => some e
    | .ok _ => none

mutual

/-- Run a step: the state behind it and the records, that of the step itself at the end. -/
def run (d : Desk) : Step → Desk × List StepRecord
  | .unlocked steps stops =>
    let before := d.buffer.unlocked
    let opened := { d with buffer := { d.buffer with unlocked := true } }
    let (d', records, failed) := runAll opened stops steps
    let d' := { d' with buffer := { d'.buffer with unlocked := before } }
    let outcome : Except EditError StepResult :=
      match failed with
      | none => .ok .nothing
      | some e => .error e
    (d', records ++ [⟨outcome, d', []⟩])
  | .atomic steps stops fails =>
    let (d', records, failed) := runAll d stops steps
    match failed, fails with
    | none, false => (d', records ++ [⟨.ok .nothing, d', []⟩])
    | failed, _ =>
      let d' := { d' with buffer := d.buffer.restoredAfter d'.buffer }
      (d', records ++ [⟨.error (failed.getD .interrupted), d', []⟩])
  | s =>
    let r := d.take s
    (r.desk, [r])

/-- Run steps one after another: the state behind them, the records, and the failure that stopped
them if they are told to stop. -/
def runAll (d : Desk) (stops : Bool) : List Step → Desk × List StepRecord × Option EditError
  | [] => (d, [], none)
  | s :: rest =>
    let (d', records) := d.run s
    match stops, failure? records with
    | true, some e => (d', records, some e)
    | _, _ =>
      let (d'', more, failed) := runAll d' stops rest
      (d'', records ++ more, failed)

end

end Desk

end LiterateEdit
