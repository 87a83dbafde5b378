import LiterateEdit.Proofs.Session.Lifecycle

/-!
# The file of a session and the file of its buffer

A session and its open buffer each keep a file, and one should think that they keep the same. They
are written at different points, though. Connecting gives the buffer its file before the client is
asked to attach it, and the session its own afterwards; and a session that is entered again gets a
new buffer, without a file, and keeps the file that it has.

So what the two files are depends on how the open buffer was tied to a file when the session was
entered (`Session.Tie`) and on where the session was last connected (`Session.Ledger`). The ledger
is kept by `Ledger.next` from the calls alone, and `Recorded.perform` shows that each call leaves
the two files as the ledger says, and `Recorded.led` that any calls do. Between two calls
directories, files and the client may change at will.

`Session.file_eq_iff` reads off when the two files are the same.
-/

namespace LiterateEdit

namespace Session

/-! ### Ties and ledgers -/

/-- How a buffer is tied to a file. -/
inductive Tie where
  /-- It has no file: this was not asked for, there is no context, or the directory is not there. -/
  | loose
  /-- It has a file, and the client has attached it. -/
  | tied (place : Path)
  /-- It has a file, and the client has failed to attach it. -/
  | torn (place : Path)
  deriving DecidableEq

/-- The file of a buffer that is tied so. -/
def Tie.file : Tie → Option Path
  | .loose => none
  | .tied p => some p
  | .torn p => some p

/-- How entering a closed session ties its buffer. -/
def tie (s : Session) (ws : Workspace) (connect : Bool) : Tie :=
  match s.block.target? with
  | none => .loose
  | some target =>
    let place := Target.place ws.world.cwd (s.settings.baseDirectory s.docDir) target
    let dir := ws.world.provideDirectory place.parent s.block.mkdirp
    if connect && s.context?.isSome && dir.outcome.isOk then
      if (ws.client.attach dir.world.cwd place).outcome.isOk then .tied place else .torn place
    else .loose

/-- What the calls to a session have come to. -/
structure Ledger where
  /-- How the open buffer is tied; nothing if the session is closed. -/
  tie? : Option Tie := none
  /-- Where the session was last connected. -/
  last? : Option Path := none
  deriving DecidableEq

/-- Where a session was last connected, behind the making of a tie. -/
def Tie.last? (last? : Option Path) : Tie → Option Path
  | .tied p => some p
  | _ => last?

/-- What the calls to a session have come to behind one more call. -/
def Ledger.next (s : Session) (l : Ledger) : Workspace × Call → Ledger
  | (ws, .enter connect) =>
    match l.tie? with
    | none => ⟨some (s.tie ws connect), (s.tie ws connect).last? l.last?⟩
    | some _ => l
  | (_, .replaceText _) => l
  | (_, .exit) => { l with tie? := none }

/-- The two files of an open session are the same. -/
inductive Ledger.Agrees : Ledger → Prop where
  /-- The session was never connected. -/
  | loose : Agrees ⟨some .loose, none⟩
  /-- The open buffer is connected. -/
  | tied (place : Path) (last? : Option Path) : Agrees ⟨some (.tied place), last?⟩
  /-- The client has failed to attach the place where the session was last connected. -/
  | torn (place : Path) : Agrees ⟨some (.torn place), some place⟩

/-- A session behind calls, each in a workspace of its own. -/
def led (s : Session) : List (Workspace × Call) → Session
  | [] => s
  | (ws, c) :: rest => (s.perform ws c).session.led rest

variable {s start : Session} {b : Buffer} {l : Ledger} {ws : Workspace} {p : Partition}

/-! ### Connecting -/

/-- A block with context names a target. -/
theorem exists_target_of_context (h : s.context? = some p) : ∃ t, s.block.target? = some t := by
  apply Option.ne_none_iff_exists'.1
  intro hnone
  have hcontext := ((Partition.ofBlock?_cuts_group s.blocks s.block).1).2 (.inl hnone)
  cases h.symm.trans hcontext

/-- **Connecting a new buffer** ties it, and the session follows if the client does. -/
theorem connectBuffer_file (hp : s.context? = some p) (hb : s.buffer = some b)
    (hfile : b.file = none) (ws : Workspace) :
    (s.connectBuffer ws).session.file = (s.tie ws true).last? s.file ∧
      (s.connectBuffer ws).session.buffer.map Buffer.file = some (s.tie ws true).file := by
  obtain ⟨target, htarget⟩ := exists_target_of_context hp
  unfold connectBuffer tie Workspace.connect
  -- both sides ask the same directory and the same client, so the cases are the same
  simp only [htarget, hp, hb, Option.isSome_some, Bool.true_and]
  cases (ws.world.provideDirectory _ s.block.mkdirp).outcome with
  | error e => exact ⟨rfl, congrArg some hfile⟩
  | ok made =>
    simp only [Workspace.attachBuffer]
    cases (ws.client.attach _ _).outcome with
    | error e => exact ⟨rfl, rfl⟩
    | ok fresh => exact ⟨rfl, rfl⟩

/-- A buffer is loose where connecting is not asked for or there is no context. -/
theorem tie_eq_loose {connect : Bool} (h : (connect && s.context?.isSome) = false) :
    s.tie ws connect = .loose := by
  unfold tie
  split
  · rfl
  · simp only [h, Bool.false_and, Bool.false_eq_true, if_false]

/-! ### What calls do to the files -/

/-- **Entering a closed session** ties its new buffer. -/
theorem enter_file (h : s.Holds .closed) (ws : Workspace) (connect : Bool) :
    (s.enter ws connect).session.file = (s.tie ws connect).last? s.file ∧
      (s.enter ws connect).session.buffer.map Buffer.file = some (s.tie ws connect).file := by
  obtain ⟨hb, he⟩ := h
  unfold enter
  simp only [hb, he]
  cases hp : s.context? with
  | none =>
    have hvalue : (Partition.ofBlock? s.blocks s.block).value = none := hp
    have htie : s.tie ws connect = .loose := tie_eq_loose (by rw [hp, Option.isSome_none,
      Bool.and_false])
    simp only [hvalue, Engine.splice, Bool.false_and, Bool.false_eq_true, if_false, htie]
    exact ⟨rfl, rfl⟩
  | some p =>
    have hvalue : (Partition.ofBlock? s.blocks s.block).value = some p := hp
    obtain ⟨notices, hsplice⟩ :=
      Engine.splice_ofText (Partition.isEmpty_of_ofBlock? hvalue) s.block.text s.settings.narrow
    simp only [hvalue, hsplice, Bool.true_and]
    cases connect with
    | false =>
      rw [tie_eq_loose (Bool.false_and _)]
      exact ⟨rfl, rfl⟩
    | true =>
      simp only [if_true]
      -- the session with its buffer, before it is connected
      let o : Session := s.opened (p.embed s.settings.narrow (.ofText s.block.text)) (.spliced 0 1)
      exact connectBuffer_file (s := o) hp rfl rfl ws

theorem replaceText_file (s : Session) (ws : Workspace) (t : Text) :
    (s.replaceText ws t).session.file = s.file ∧
      (s.replaceText ws t).session.buffer.map Buffer.file = s.buffer.map Buffer.file := by
  unfold replaceText
  cases hb : s.buffer with
  | none => exact ⟨rfl, congrArg _ hb⟩
  | some b =>
    simp only
    cases hrep : s.replaced b t with
    | error e => exact ⟨rfl, congrArg _ hb⟩
    | ok b' =>
      refine ⟨rfl, congrArg some ?_⟩
      unfold replaced at hrep
      split at hrep <;>
        obtain ⟨-, -, -, -, -, -, -, rfl⟩ := Buffer.replaceRegion_eq_ok_iff.1 hrep <;>
        exact Buffer.put_file

theorem exit_file (s : Session) (ws : Workspace) : (s.exit ws).session.file = s.file := by
  unfold exit
  split
  · rfl
  · simp only
    split <;> rfl

/-! ### What the ledger says -/

/-- **The invariant.** A session of the setup of `start` is closed or open on a plain text, and the
two files are as the ledger says. -/
structure Recorded (start s : Session) (l : Ledger) : Prop where
  setup : start.SameSetup s
  phase : ∃ phase, s.Holds phase
  file : s.file = l.last?
  buffer : s.buffer.map Buffer.file = l.tie?.map Tie.file
  /-- Where the open buffer is connected, the session was connected last. -/
  tied : ∀ p, l.tie? = some (.tied p) → l.last? = some p

theorem SameSetup.tie (h : start.SameSetup s) (ws : Workspace) (connect : Bool) :
    s.tie ws connect = start.tie ws connect := by
  unfold Session.tie context?
  rw [h.block, h.blocks, h.settings, h.docDir]

/-- **The step.** -/
theorem Recorded.perform (h : Recorded start s l) (ws : Workspace) (c : Call) :
    Recorded start (s.perform ws c).session (l.next start (ws, c)) := by
  obtain ⟨phase, hphase⟩ := h.phase
  obtain ⟨hnext, hsame, -, -⟩ := hphase.perform ws c
  cases c with
  | replaceText t =>
    obtain ⟨hfile, hbuffer⟩ := s.replaceText_file ws t
    exact ⟨h.setup.trans hsame, ⟨_, hnext⟩, hfile.trans h.file, hbuffer.trans h.buffer, h.tied⟩
  | exit =>
    -- exiting closes the session in either phase
    have hclosed : (s.perform ws .exit).session.buffer = none := by
      cases phase with
      | closed => exact hnext.1
      | opened t => exact hnext.1
    exact ⟨h.setup.trans hsame, ⟨_, hnext⟩, (s.exit_file ws).trans h.file, congrArg _ hclosed,
      nofun⟩
  | enter connect =>
    cases phase with
    | closed =>
      have hnone : l.tie? = none := by
        have hbuffer := h.buffer
        rw [hphase.1] at hbuffer
        exact Option.map_eq_none_iff.1 hbuffer.symm
      obtain ⟨hfile, hbuffer⟩ := enter_file hphase ws connect
      rw [h.setup.tie, h.file] at hfile
      rw [h.setup.tie] at hbuffer
      have hledger : l.next start (ws, .enter connect)
          = ⟨some (start.tie ws connect), (start.tie ws connect).last? l.last?⟩ := by
        simp only [Ledger.next, hnone]
      rw [hledger]
      refine ⟨h.setup.trans hsame, ⟨_, hnext⟩, hfile, hbuffer, fun p hp => ?_⟩
      -- a buffer that is connected is where the session was connected just now
      have htie : start.tie ws connect = .tied p := Option.some.inj hp
      simp only [htie, Tie.last?]
    | opened t =>
      obtain ⟨c, -, -, hopen⟩ := id hphase
      obtain ⟨b, hb, -⟩ := hopen.shows.opened _ rfl
      -- an open session refuses to be entered, and the ledger passes the call over
      have hrefused : (s.perform ws (.enter connect)).session = s := by
        rw [perform_enter, Session.enter, hb]
        rfl
      have hledger : l.next start (ws, .enter connect) = l := by
        have hbuffer := h.buffer
        rw [hb] at hbuffer
        obtain ⟨tie, htie, -⟩ := Option.map_eq_some_iff.1 hbuffer.symm
        simp only [Ledger.next, htie]
      rw [hrefused, hledger]
      exact h

/-- **The run.** -/
theorem Recorded.led (h : Recorded start s l) (history : List (Workspace × Call)) :
    Recorded start (s.led history) (history.foldl (Ledger.next start) l) := by
  induction history generalizing s l with
  | nil => exact h
  | cons x history ih => exact ih (h.perform x.1 x.2)

/-- What the two files are of an open session. -/
theorem Recorded.agrees_iff (h : Recorded start s l) (hb : s.buffer = some b) :
    s.file = b.file ↔ l.Agrees := by
  obtain ⟨tie?, last?⟩ := l
  have hbuffer := h.buffer
  rw [hb] at hbuffer
  obtain ⟨t, rfl, hfile⟩ := Option.map_eq_some_iff.1 hbuffer.symm
  rw [h.file, ← hfile]
  constructor
  · intro hsame
    cases t with
    | loose =>
      obtain rfl : last? = none := hsame
      exact .loose
    | tied place => exact .tied place last?
    | torn place =>
      obtain rfl : last? = some place := hsame
      exact .torn place
  · intro hagrees
    cases hagrees with
    | loose => rfl
    | tied place => exact h.tied place rfl
    | torn place => rfl

/-- **The file of a session is that of its open buffer** exactly if the buffer is connected, or it
has no file and the session was never connected, or the client has failed to attach the very place
where the session was last connected. This holds behind any calls, with the directories, the files
and the client as they may be at each of them. So it is true of a session that is entered for the
first time unless the client fails, and false as soon as a session that was connected is open
without being connected again. -/
theorem file_eq_iff (block : Block) (blocks : List Block) (settings : Settings) (docDir : Path)
    (history : List (Workspace × Call)) (b : Buffer) :
    let start := closed block blocks settings docDir
    let s := start.led history
    let l := history.foldl (Ledger.next start) {}
    s.buffer = some b →
      s.file = l.last? ∧ l.tie?.map Tie.file = some b.file ∧ (s.file = b.file ↔ l.Agrees) := by
  intro start s l hb
  have hstart : Recorded start start {} := ⟨.refl start, ⟨.closed, rfl, rfl⟩, rfl, rfl, nofun⟩
  have h : Recorded start s l := hstart.led history
  refine ⟨h.file, ?_, h.agrees_iff hb⟩
  rw [← h.buffer, hb]
  rfl

/-- A session is connected; it is entered again without being connected; and the client of another
one fails. -/
theorem file_eq_iff_entered_again :
    let ws : Workspace := ⟨⟨⟨[]⟩, .ofText (Text.lit "/")⟩, .ofStrategy .eglot⟩
    let failing : Workspace := { ws with client := { ws.client with hook := some fun _ => false } }
    let before : Block := { Block.bare (Text.lit "1") (Text.lit "a") with
      target := some (Text.lit "x.py") }
    let block : Block := { Block.bare (Text.lit "2") (Text.lit "b") with
      target := some (Text.lit "x.py") }
    let start := closed block [before, block] {} (.ofText [])
    let connected : List (Workspace × Call) := [(ws, .enter true)]
    let again := connected ++ [(ws, .exit), (ws, .enter false)]
    let torn : List (Workspace × Call) := [(failing, .enter true)]
    (∃ b, (start.led connected).buffer = some b ∧ (start.led connected).file = b.file) ∧
      (∃ b, (start.led again).buffer = some b ∧ (start.led again).file ≠ b.file) ∧
      ∃ b, (start.led torn).buffer = some b ∧ (start.led torn).file ≠ b.file := by
  intro ws failing before block start connected again torn
  let place := Path.ofText (Text.lit "/x.py")
  have hopen : ∀ history ∈ [connected, again, torn], ∃ b,
      (start.led history).buffer = some b := fun history h => by
    have hsome : ∀ history ∈ [connected, again, torn],
        (start.led history).buffer.isSome = true := by decide +kernel
    exact Option.isSome_iff_exists.1 (hsome history h)
  obtain ⟨b, hb⟩ := hopen connected (by simp)
  obtain ⟨b', hb'⟩ := hopen again (by simp)
  obtain ⟨b'', hb''⟩ := hopen torn (by simp)
  have hledgers : connected.foldl (Ledger.next start) {} = ⟨some (.tied place), some place⟩ ∧
      again.foldl (Ledger.next start) {} = ⟨some .loose, some place⟩ ∧
      torn.foldl (Ledger.next start) {} = ⟨some (.torn place), none⟩ := by decide +kernel
  have h := (file_eq_iff block [before, block] {} (.ofText []) connected b hb).2.2
  have h' := (file_eq_iff block [before, block] {} (.ofText []) again b' hb').2.2
  have h'' := (file_eq_iff block [before, block] {} (.ofText []) torn b'' hb'').2.2
  refine ⟨⟨b, hb, h.2 ?_⟩, ⟨b', hb', fun heq => ?_⟩, b'', hb'', fun heq => ?_⟩
  · change (connected.foldl (Ledger.next start) {}).Agrees
    rw [hledgers.1]
    exact .tied place _
  · have hagrees : (again.foldl (Ledger.next start) {}).Agrees := h'.1 heq
    rw [hledgers.2.1] at hagrees
    cases hagrees
  · have hagrees : (torn.foldl (Ledger.next start) {}).Agrees := h''.1 heq
    rw [hledgers.2.2] at hagrees
    cases hagrees

end Session

end LiterateEdit
