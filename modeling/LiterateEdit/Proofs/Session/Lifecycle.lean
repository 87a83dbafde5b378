import LiterateEdit.Proofs.Context.Refinement
import LiterateEdit.Proofs.Session.Enter

/-!
# The life of a session

A session is a machine with two states: it is closed, or it is open on a text. `Phase.next` says
where a call of the host takes it and `Phase.reply` how the call ends. Two points are easy to get
wrong:

* a buffer that cannot be connected makes entering fail, and yet the session is open behind it;
* a call out of order is refused and changes nothing at all.

What carries the proof is `Session.Holds`: an open session holds a plain buffer with the text, alone
if there is no context and embedded in the context otherwise. The embedding is the one that editing
in context refines editing alone by, so that replacing the text is an edit of the plain buffer, and
exiting takes away what the embedding added. `Holds.perform` is the step and `Holds.after` the run.
-/

namespace LiterateEdit

namespace Session

/-! ### Calls and phases -/

/-- What a host can ask of a session. -/
inductive Call where
  | enter (connect : Bool)
  | replaceText (t : Text)
  | exit
  deriving DecidableEq

/-- Whether a session is open, and on which text. -/
inductive Phase where
  | closed
  | opened (t : Text)
  deriving DecidableEq

/-- The same result with its value changed. -/
def Result.map {α β : Type} (f : α → β) (r : Result α) : Result β :=
  ⟨r.outcome.map f, r.session, r.workspace, r.notices⟩

/-- Do what the host asks; only exiting has a text to give. -/
def perform (s : Session) (ws : Workspace) : Call → Result (Option Text)
  | .enter connect => (s.enter ws connect).map fun _ => none
  | .replaceText t => (s.replaceText ws t).map fun _ => none
  | .exit => (s.exit ws).map some

@[simp] theorem perform_enter (s : Session) (ws : Workspace) (connect : Bool) :
    s.perform ws (.enter connect) = (s.enter ws connect).map fun _ => none := rfl

@[simp] theorem perform_replaceText (s : Session) (ws : Workspace) (t : Text) :
    s.perform ws (.replaceText t) = (s.replaceText ws t).map fun _ => none := rfl

@[simp] theorem perform_exit (s : Session) (ws : Workspace) :
    s.perform ws .exit = (s.exit ws).map some := rfl

/-- The session and the workspace behind some calls. -/
def after (s : Session) (ws : Workspace) : List Call → Session × Workspace
  | [] => (s, ws)
  | c :: rest => (s.perform ws c).session.after (s.perform ws c).workspace rest

/-- Where a call takes the session of a block. -/
def Phase.next (block : Block) : Phase → Call → Phase
  | .closed, .enter _ => .opened block.text
  | .opened t, .enter _ => .opened t
  | .closed, .replaceText _ => .closed
  | .opened _, .replaceText u => .opened u
  | .closed, .exit => .closed
  | .opened _, .exit => .closed

/-- The text that is edited in a phase. -/
def Phase.text (block : Block) : Phase → Text
  | .closed => block.text
  | .opened t => t

/-- The context that a session would show. -/
def context? (s : Session) : Option Partition := (Partition.ofBlock? s.blocks s.block).value

/-- The text of the context before the block. -/
def textBefore (s : Session) : Text :=
  match s.context? with
  | none => []
  | some p => p.textBefore

/-- The text of the context behind the block. -/
def textAfter (s : Session) : Text :=
  match s.context? with
  | none => []
  | some p => p.textAfter

/-- How entering ends: as connecting the buffer does, if that is wanted and there is context. -/
def connectReply (s : Session) (ws : Workspace) (connect : Bool) (b : Buffer) :
    Except SessionError (Option Text) :=
  if connect && s.context?.isSome then
    match (ws.connect s.settings (some b) s.block s.docDir).outcome with
    | .ok _ => .ok none
    | .error e => .error (.connect e)
  else .ok none

/-- **How a call ends** in a phase. -/
def Replies (s : Session) (ws : Workspace) :
    Phase → Call → Except SessionError (Option Text) → Prop
  | .closed, .enter connect, r => ∃ b, r = s.connectReply ws connect b
  | .opened _, .enter _, r => r = .error (.alreadyOpen s.block.identity)
  | .closed, .replaceText _, r => r = .error .notOpen
  | .opened _, .replaceText _, r => r = .ok none
  | .closed, .exit, r => r = .ok (some s.block.text)
  | .opened t, .exit, r => r = .ok (some t)

/-- Is a call refused because it came out of order? -/
def isMisuse : Except SessionError (Option Text) → Bool
  | .error (.alreadyOpen _) => true
  | .error .notOpen => true
  | _ => false

/-- Are two sessions of one block in one document, under the same settings? -/
structure SameSetup (s s' : Session) : Prop where
  block : s'.block = s.block
  blocks : s'.blocks = s.blocks
  settings : s'.settings = s.settings
  docDir : s'.docDir = s.docDir

/-- **What a host sees of a session** in a phase. -/
structure Shows (s : Session) (phase : Phase) : Prop where
  editable : s.editableText = phase.text s.block
  closed : phase = .closed → s.buffer = none ∧ s.isSpliced = false
  opened : ∀ t, phase = .opened t → ∃ b, s.buffer = some b ∧
    b.text = s.textBefore ++ t ++ s.textAfter ∧ s.isSpliced = s.context?.isSome

/-! ### What a session holds -/

/-- A session is open on the text of a plain buffer: it holds that buffer, alone or in context. -/
inductive IsOpenOn (s : Session) (c : Buffer) : Prop where
  | alone (hp : s.context? = none) (hb : s.buffer = some c) (he : s.engine = .unspliced)
  | embedded (p : Partition) (hp : s.context? = some p)
      (hb : s.buffer = some (p.embed s.settings.narrow c)) (he : s.engine = .spliced 0 1)

/-- **The invariant.** A closed session has no buffer and an idle engine; an open one has a plain
buffer with its text, in context if there is any. -/
def Holds (s : Session) : Phase → Prop
  | .closed => s.buffer = none ∧ s.engine = .unspliced
  | .opened t => ∃ c, c.Plain ∧ c.text = t ∧ s.IsOpenOn c

variable {s s' : Session} {phase : Phase} {ws : Workspace} {c : Buffer} {t : Text}

theorem SameSetup.refl (s : Session) : s.SameSetup s := ⟨rfl, rfl, rfl, rfl⟩

theorem SameSetup.trans {s'' : Session} (h : s.SameSetup s') (h' : s'.SameSetup s'') :
    s.SameSetup s'' :=
  ⟨h'.block.trans h.block, h'.blocks.trans h.blocks, h'.settings.trans h.settings,
    h'.docDir.trans h.docDir⟩

/-- What an open session shows can be read off the plain buffer. -/
theorem IsOpenOn.shows (h : s.IsOpenOn c) : s.Shows (.opened c.text) := by
  constructor
  case editable =>
    change s.editableText = c.text
    unfold editableText
    cases h with
    | alone hp hb he =>
      rw [hb, he]
      rfl
    | embedded p hp hb he =>
      rw [hb, he]
      change (Engine.spliced 0 1).editable (p.embed s.settings.narrow c) = c.text
      rw [Engine.editable_eq (p.embed_region? s.settings.narrow c)]
      exact (p.embed_slices s.settings.narrow c).2.1
  case closed =>
    intro heq
    cases heq
  case opened =>
    intro t heq
    cases heq
    unfold textBefore textAfter
    cases h with
    | alone hp hb he =>
      rw [hp]
      refine ⟨c, hb, ?_, ?_⟩
      · rw [List.nil_append, List.append_nil]
      · rw [isSpliced, he]
        rfl
    | embedded p hp hb he =>
      rw [hp]
      refine ⟨_, hb, rfl, ?_⟩
      rw [isSpliced, he]
      rfl

theorem Holds.shows (h : s.Holds phase) : s.Shows phase := by
  cases phase with
  | closed =>
    obtain ⟨hb, he⟩ := h
    constructor
    case editable =>
      unfold editableText
      rw [hb]
      rfl
    case closed =>
      intro _
      refine ⟨hb, ?_⟩
      rw [isSpliced, he]
      rfl
    case opened =>
      intro t heq
      cases heq
  | opened t =>
    obtain ⟨c, -, rfl, hopen⟩ := h
    exact hopen.shows

/-! ### Entering -/

/-- A session whose buffer is given a file is open on the plain buffer with that file. -/
theorem IsOpenOn.withFile (h : s.IsOpenOn c) {b : Buffer} (hb : s.buffer = some b)
    (place file : Option Path) :
    ({ s with buffer := some { b with file := place }, file := file } : Session).IsOpenOn
      { c with file := place } := by
  cases h with
  | alone hp hc he =>
    obtain rfl : b = c := Option.some.inj (hb.symm.trans hc)
    exact .alone hp rfl he
  | embedded p hp hc he =>
    obtain rfl : b = p.embed s.settings.narrow c := Option.some.inj (hb.symm.trans hc)
    exact .embedded p hp rfl he

end Session

/-- Connecting gives the buffer a file at most. -/
theorem Workspace.connect_buffer (ws : Workspace) (settings : Settings) (b : Buffer) (block : Block)
    (docDir : Path) :
    ∃ file, (ws.connect settings (some b) block docDir).buffer = some { b with file := file } := by
  unfold connect
  split
  · exact ⟨b.file, rfl⟩
  · simp only
    split
    · exact ⟨b.file, rfl⟩
    · exact ⟨_, rfl⟩

namespace Session

variable {s s' : Session} {phase : Phase} {ws : Workspace} {c : Buffer} {t : Text}

theorem connectBuffer_outcome (s : Session) (ws : Workspace) :
    (s.connectBuffer ws).outcome
      = match (ws.connect s.settings s.buffer s.block s.docDir).outcome with
        | .ok _ => .ok ()
        | .error e => .error (.connect e) := by
  unfold connectBuffer
  simp only
  cases (ws.connect s.settings s.buffer s.block s.docDir).outcome with
  | ok file => rfl
  | error e => rfl

/-- The session behind an attempt to connect, whether it fails or not. -/
theorem connectBuffer_session (s : Session) (ws : Workspace) :
    ∃ file, (s.connectBuffer ws).session
      = { s with
          buffer := (ws.connect s.settings s.buffer s.block s.docDir).buffer
          file := file } := by
  unfold connectBuffer
  simp only
  cases (ws.connect s.settings s.buffer s.block s.docDir).outcome with
  | ok file => exact ⟨file, rfl⟩
  | error e => exact ⟨s.file, rfl⟩

/-- **Entering a closed session** opens it on the text of its block, also when it fails. -/
theorem enter_closed (h : s.Holds .closed) (ws : Workspace) (connect : Bool) :
    (s.enter ws connect).session.Holds (.opened s.block.text) ∧
      s.SameSetup (s.enter ws connect).session ∧
      ∃ b, ((s.enter ws connect).map fun _ => none).outcome = s.connectReply ws connect b := by
  obtain ⟨hb, he⟩ := h
  unfold enter
  simp only [hb, he]
  cases hp : s.context? with
  | none =>
    -- no context: the engine refuses, and nothing is connected
    have hvalue : (Partition.ofBlock? s.blocks s.block).value = none := hp
    simp only [hvalue, Engine.splice, Bool.false_and, Bool.false_eq_true, if_false]
    refine ⟨⟨.ofText s.block.text, .ofText _, rfl, .alone hp rfl rfl⟩, ⟨rfl, rfl, rfl, rfl⟩,
      .ofText [], ?_⟩
    rw [connectReply, hp, Option.isSome_none, Bool.and_false]
    rfl
  | some p =>
    have hvalue : (Partition.ofBlock? s.blocks s.block).value = some p := hp
    obtain ⟨notices, hsplice⟩ :=
      Engine.splice_ofText (Partition.isEmpty_of_ofBlock? hvalue) s.block.text s.settings.narrow
    simp only [hvalue, hsplice, Bool.true_and]
    -- the session with its buffer, before it is connected
    let b : Buffer := p.embed s.settings.narrow (.ofText s.block.text)
    let o : Session := { s with buffer := some b, engine := .spliced 0 1 }
    have hopen : o.IsOpenOn (.ofText s.block.text) := .embedded p hp rfl rfl
    cases connect with
    | false => exact ⟨⟨_, .ofText _, rfl, hopen⟩, ⟨rfl, rfl, rfl, rfl⟩, b, rfl⟩
    | true =>
      simp only [if_true]
      obtain ⟨file, hsession⟩ := connectBuffer_session o ws
      obtain ⟨place, hbuffer⟩ := ws.connect_buffer s.settings b s.block s.docDir
      have hconnected : (o.connectBuffer ws).session
          = { o with buffer := some { b with file := place }, file := file } := by
        rw [hsession]
        exact congrArg (fun buffer => { o with buffer := buffer, file := file }) hbuffer
      refine ⟨?_, ?_, b, ?_⟩
      · change (o.connectBuffer ws).session.Holds _
        rw [hconnected]
        exact ⟨{ Buffer.ofText s.block.text with file := place }, ⟨rfl, rfl, rfl⟩, rfl,
          hopen.withFile rfl place file⟩
      · change s.SameSetup (o.connectBuffer ws).session
        rw [hconnected]
        exact ⟨rfl, rfl, rfl, rfl⟩
      · change (o.connectBuffer ws).outcome.map _ = _
        rw [connectBuffer_outcome, connectReply, hp]
        change Except.map _ (match (ws.connect s.settings (some b) s.block s.docDir).outcome with
          | .ok _ => _
          | .error e => _) = _
        simp only [Option.isSome_some, Bool.and_true, if_true]
        cases (ws.connect s.settings (some b) s.block s.docDir).outcome with
        | ok place => rfl
        | error e => rfl

/-! ### Replacing the text -/

/-- Replacing all of a buffer leaves the new text. -/
theorem put_all_text (c : Buffer) (t : Text) : (c.put 0 c.size t).text = t := by
  have hdrop : c.text.drop c.size.toNat = [] := List.drop_eq_nil_of_le (by simp [Buffer.size])
  rw [Buffer.put_text (Buffer.size_nonneg c) (Int.le_refl c.size), Text.edit, hdrop, Int.toNat_zero,
    List.take_zero, List.nil_append, List.append_nil]

/-- **Replacing the text of an open session** cannot fail. -/
theorem replaceText_opened (hc : c.Plain) (h : s.IsOpenOn c) (ws : Workspace) (t : Text) :
    ∃ s', s.replaceText ws t = ⟨.ok (), s', ws, []⟩ ∧ s'.IsOpenOn (c.put 0 c.size t) ∧
      s.SameSetup s' := by
  have hsize := Buffer.size_nonneg c
  have hmin : min 0 c.size = 0 := by omega
  unfold replaceText replaced
  cases h with
  | alone hp hb he =>
    have hrep := hc.replaceRegion (x := 0) (y := c.size) (t := t) (by omega) (Int.le_refl c.size)
    rw [hmin] at hrep
    rw [hb, he]
    simp only [hc.low, hc.high, hrep]
    exact ⟨_, rfl, .alone hp rfl rfl, ⟨rfl, rfl, rfl, rfl⟩⟩
  | embedded p hp hb he =>
    -- the markers stand at the ends of the embedded text
    have hmarks := p.embed_marks s.settings.narrow c
    have hstart : (p.embed s.settings.narrow c).locate (.marker 0)
        = .ok ((p.textBefore.length : Int) + 0) := by
      rw [Int.add_zero]
      exact Buffer.locate_marker (by simp only [Buffer.markerPosition, hmarks.start])
    have hstop : (p.embed s.settings.narrow c).locate (.marker 1)
        = .ok ((p.textBefore.length : Int) + c.size) :=
      Buffer.locate_marker (by simp only [Buffer.markerPosition, hmarks.stop])
    have hrep := Partition.embed_replaceRegion (t := t) hstart hstop (by omega)
      (Int.le_refl c.size)
    rw [hmin] at hrep
    rw [hb, he]
    simp only [hrep]
    exact ⟨_, rfl, .embedded p hp rfl rfl, ⟨rfl, rfl, rfl, rfl⟩⟩

/-! ### Exiting -/

/-- **Exiting an open session** gives its text back and closes it. -/
theorem exit_opened (h : s.IsOpenOn c) (ws : Workspace) :
    ∃ s' notices, s.exit ws = ⟨.ok c.text, s', ws, notices⟩ ∧ s'.Holds .closed ∧
      s.SameSetup s' := by
  unfold exit
  cases h with
  | alone hp hb he =>
    rw [hb, he]
    exact ⟨_, _, rfl, ⟨rfl, rfl⟩, ⟨rfl, rfl, rfl, rfl⟩⟩
  | embedded p hp hb he =>
    have hregion := p.embed_region? s.settings.narrow c
    obtain ⟨h₀, hle, hsize⟩ := (Engine.region?_eq_some_iff.1 hregion).2.2
    obtain ⟨notices, hun⟩ := Engine.unsplice_eq hregion
    -- what is left is the region, and giving up its markers leaves the text
    have htext := Engine.stripped_text h₀ hle hsize
    rw [(p.embed_slices s.settings.narrow c).2.1] at htext
    rw [hb, he]
    simp only [hun]
    refine ⟨_, notices, congrArg (fun t => (⟨.ok t, _, ws, notices⟩ : Result Text)) ?_, ⟨rfl, rfl⟩,
      ⟨rfl, rfl, rfl, rfl⟩⟩
    exact htext

/-! ### Calls -/

/-- **The step.** A call ends as its phase says and takes the session to the next phase, and if it
is refused, nothing has changed. -/
theorem Holds.perform (h : s.Holds phase) (ws : Workspace) (call : Call) :
    (s.perform ws call).session.Holds (phase.next s.block call) ∧
      s.SameSetup (s.perform ws call).session ∧
      s.Replies ws phase call (s.perform ws call).outcome ∧
      (isMisuse (s.perform ws call).outcome = true →
        (s.perform ws call).session = s ∧ (s.perform ws call).workspace = ws) := by
  cases phase with
  | closed =>
    have hb : s.buffer = none := h.1
    cases call with
    | enter connect =>
      obtain ⟨hopened, hsame, b, hreply⟩ := enter_closed h ws connect
      refine ⟨hopened, hsame, ⟨b, hreply⟩, fun hmisuse => ?_⟩
      -- connecting never fails because of the order of calls
      exfalso
      change isMisuse ((s.enter ws connect).map fun _ => none).outcome = true at hmisuse
      rw [hreply, connectReply] at hmisuse
      split at hmisuse
      · split at hmisuse <;> cases hmisuse
      · cases hmisuse
    | replaceText u =>
      have hrefused : s.replaceText ws u = ⟨.error .notOpen, s, ws, []⟩ := by
        rw [Session.replaceText, hb]
      rw [perform_replaceText, hrefused]
      exact ⟨h, .refl s, rfl, fun _ => ⟨rfl, rfl⟩⟩
    | exit =>
      have hexit : s.exit ws = ⟨.ok s.block.text, s, ws, []⟩ := by
        rw [Session.exit, hb]
      rw [perform_exit, hexit]
      exact ⟨h, .refl s, rfl, fun _ => ⟨rfl, rfl⟩⟩
  | opened t =>
    obtain ⟨c, hc, rfl, hopen⟩ := h
    cases call with
    | enter connect =>
      obtain ⟨b, hb, -⟩ := hopen.shows.opened _ rfl
      have hrefused : s.enter ws connect = ⟨.error (.alreadyOpen s.block.identity), s, ws, []⟩ := by
        rw [Session.enter, hb]
      rw [perform_enter, hrefused]
      exact ⟨⟨c, hc, rfl, hopen⟩, .refl s, rfl, fun _ => ⟨rfl, rfl⟩⟩
    | replaceText u =>
      obtain ⟨s', hreplaced, hopen', hsame⟩ := replaceText_opened hc hopen ws u
      rw [perform_replaceText, hreplaced]
      exact ⟨⟨_, hc.put _ _ _, put_all_text c u, hopen'⟩, hsame, rfl, nofun⟩
    | exit =>
      obtain ⟨s', notices, hexit, hclosed, hsame⟩ := exit_opened hopen ws
      rw [perform_exit, hexit]
      exact ⟨hclosed, hsame, rfl, nofun⟩

/-- **The run.** After any calls the session is where the machine is. -/
theorem Holds.after (h : s.Holds phase) (ws : Workspace) (calls : List Call) :
    (s.after ws calls).1.Holds (calls.foldl (Phase.next s.block) phase) ∧
      s.SameSetup (s.after ws calls).1 := by
  induction calls generalizing s ws phase with
  | nil => exact ⟨h, .refl s⟩
  | cons call rest ih =>
    obtain ⟨hnext, hsame, -, -⟩ := h.perform ws call
    obtain ⟨hlast, hsame'⟩ := ih hnext (s.perform ws call).workspace
    rw [hsame.block] at hlast
    exact ⟨hlast, hsame.trans hsame'⟩

/-- **A session is a machine with two states.** Whatever was asked of it before, a session shows
what its phase says, and the next call ends as the phase says, leads to the next phase, and changes
nothing if it is refused. The context is the same all along. -/
theorem lives_in_phases (block : Block) (blocks : List Block) (settings : Settings) (docDir : Path)
    (ws : Workspace) (calls : List Call) (call : Call) :
    let start := closed block blocks settings docDir
    let phase := calls.foldl (Phase.next block) .closed
    let s := (start.after ws calls).1
    let r := s.perform (start.after ws calls).2 call
    start.SameSetup s ∧ s.Shows phase ∧ s.Replies (start.after ws calls).2 phase call r.outcome ∧
      r.session.Shows (phase.next block call) ∧
      (isMisuse r.outcome = true → r.session = s ∧ r.workspace = (start.after ws calls).2) := by
  intro start phase s r
  have hstart : start.Holds .closed := ⟨rfl, rfl⟩
  obtain ⟨hs, hsame⟩ := hstart.after ws calls
  obtain ⟨hnext, -, hreply, hmisuse⟩ := hs.perform (start.after ws calls).2 call
  rw [hsame.block] at hnext
  exact ⟨hsame, hs.shows, hreply, hnext.shows, hmisuse⟩

end Session

end LiterateEdit
