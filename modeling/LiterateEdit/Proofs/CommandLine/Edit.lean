import LiterateEdit.Proofs.CommandLine.Action
import LiterateEdit.Proofs.Document.Around
import LiterateEdit.Proofs.Session.Lifecycle
import LiterateEdit.Proofs.Tangle.Files
import LiterateEdit.Proofs.Text.Utf8

/-!
# What an edit leaves as it was

The command `edit` reads a document, opens a session on one of its blocks, puts the text of a file
into it and writes the document back (`Action.ensures_editBlock`). Connecting the session may make
directories, and the file of the document is all that is written.

What stands above and below the text of the block is written back as the text that was read. These
are the bytes of the file unless carriage returns are among them: a file is read with a line feed
for each end of a line, and written with nothing but line feeds (`edit_keeps_around`).
-/

namespace LiterateEdit

open Text

variable {sh : Shell} {d : Document} {b : Block}

/-! ### What an edit does to the files -/

/-- Connecting a buffer makes directories at most. -/
theorem Workspace.changesOnly_connect (ws : Workspace) (settings : Settings)
    (buffer : Option Buffer) (block : Block) (docDir : Path) :
    World.ChangesOnly [] ws.world (ws.connect settings buffer block docDir).workspace.world := by
  unfold connect
  split
  · exact .refl [] ws.world
  · next target _ =>
    have hprovided := World.changesOnly_provideDirectory ws.world
      (Target.place ws.world.cwd (settings.baseDirectory docDir) target).parent block.mkdirp
    simp only
    split
    · exact hprovided
    · -- attaching the buffer leaves the files alone
      cases buffer <;> exact hprovided

/-- Entering a session makes directories at most. -/
theorem Session.changesOnly_enter (s : Session) (ws : Workspace) (connect : Bool) :
    World.ChangesOnly [] ws.world (s.enter ws connect).workspace.world := by
  have hconnect (s : Session) :
      World.ChangesOnly [] ws.world (s.connectBuffer ws).workspace.world := by
    have hchange := ws.changesOnly_connect s.settings s.buffer s.block s.docDir
    unfold connectBuffer
    simp only
    split <;> exact hchange
  unfold enter
  split
  · exact .refl [] ws.world
  · simp only
    split
    · exact .refl [] ws.world
    · split
      · exact hconnect _
      · exact .refl [] ws.world

namespace Action

/-- **Entering a closed session** opens it on the text of its block and makes directories at most.
-/
theorem ensures_enterSession {session : Session} (h : session.Holds .closed) (client : Client)
    (connect : Bool) (sh : Shell) :
    (enterSession session ⟨sh.world, client⟩ connect).Ensures sh fun x sh' =>
      x.1.Holds (.opened session.block.text) ∧ World.ChangesOnly [] sh.world x.2.world ∧
        sh'.world = x.2.world := by
  have hopened := (Session.enter_closed h ⟨sh.world, client⟩ connect).1
  have hchange := session.changesOnly_enter ⟨sh.world, client⟩ connect
  unfold enterSession
  refine (ensures_sessionResult _ sh).bind ?_
  rintro outcome sh' ⟨-, hworld⟩
  split
  · exact ensures_pure ⟨hopened, hchange, hworld⟩
  · -- the session is ended and the command stops
    refine Ensures.bind (Q := fun _ _ => True) ?_ fun _ _ _ => ensures_reject _ _
    exact (ensures_expectResult _ sh').bind fun _ _ _ => ensures_pure trivial
  · exact ensures_fail _

/-- **The text that an open session gives back** is the one that was put into it. -/
theorem ensures_editedText {session : Session} {u : Text} (h : session.Holds (.opened u))
    (ws : Workspace) (t : Text) (sh : Shell) :
    (editedText session ws t).Ensures sh fun t' sh' => t' = t ∧ sh'.world = ws.world := by
  obtain ⟨c, hplain, -, hopen⟩ := h
  obtain ⟨session', hreplace, hopen', -⟩ := Session.replaceText_opened hplain hopen ws t
  obtain ⟨closed, notices, hexit, -, -⟩ := Session.exit_opened hopen' ws
  rw [Session.put_all_text] at hexit
  unfold editedText
  rw [hreplace]
  refine (ensures_expectResult _ sh).bind fun _ sh' _ => ?_
  dsimp only
  rw [hexit]
  exact (ensures_expectResult _ sh').mono fun t' sh'' h => ⟨(Except.ok.inj h.1).symm, h.2⟩

/-- The settings that the options of an edit override. -/
def editOverrides (strategy : Option Strategy) (stagingDir : Option Text) : Settings.Entries :=
  [override .strategy (strategy.map fun k => .text (Text.lit k.name)),
    override .stagingDir (stagingDir.map .text)]

end Action

/-- The document that a name stands for in a shell, under settings that are overridden by others,
and the block of it that a key stands for. -/
def Shell.selected? (sh : Shell) (path key : Text) (overrides : Settings.Entries) :
    Option (Document × Block) := do
  let s ← (Settings.load sh.world sh.environment overrides).toOption
  let d ← (sh.world.openDocument (.ofText path) s.dialect).toOption
  let blocks ← d.blocks.toOption
  let i ← (select blocks.value key).value.toOption
  let b ← blocks.value[i]?
  return (d, b)

theorem Shell.selected?_eq_some_iff {path key : Text} {overrides : Settings.Entries} :
    sh.selected? path key overrides = some (d, b) ↔
      ∃ s blocks i, Settings.load sh.world sh.environment overrides = .ok s ∧
        sh.world.openDocument (.ofText path) s.dialect = .ok d ∧ d.blocks = .ok blocks ∧
        (select blocks.value key).value = .ok i ∧ blocks.value[i]? = some b := by
  have htoOption {ε α : Type} {r : Except ε α} {x : α} : r.toOption = some x ↔ r = .ok x := by
    cases r <;> simp [Except.toOption]
  unfold selected?
  simp only [Option.bind_eq_bind, Option.bind_eq_some_iff, htoOption, Option.pure_def,
    Option.some.injEq, Prod.mk.injEq]
  constructor
  · rintro ⟨s, hload, _, hopen, blocks, hblocks, i, hselect, _, hb, rfl, rfl⟩
    exact ⟨s, blocks, i, hload, hopen, hblocks, hselect, hb⟩
  · rintro ⟨s, blocks, i, hload, hopen, hblocks, hselect, hb⟩
    exact ⟨s, hload, d, hopen, blocks, hblocks, i, hselect, b, hb, rfl, rfl⟩

namespace Action

/-- The document is written where this changes it. -/
private theorem ensures_writeChange (d : Document) (updated done unchanged : Text) (sh : Shell) :
    Ensures
      (if updated = d.raw then putLine unchanged
      else do
        match (← get).world.writeText d.path updated with
        | .error e => fail (.write e)
        | .ok w =>
          update fun shell => { shell with world := w }
          putLine done) sh fun _ sh' =>
      updated = d.raw ∧ sh'.world = sh.world ∨
        sh.world.writeText d.path updated = .ok sh'.world := by
  split
  · next hsame => exact (ensures_putLine _ sh).mono fun _ _ hworld => .inl ⟨hsame, hworld⟩
  · apply Ensures.bind_get
    split
    · exact ensures_fail _
    · next w hwrite =>
      refine (ensures_update (Q := fun _ sh' => sh'.world = w) rfl).bind fun _ sh' hworld => ?_
      exact (ensures_putLine _ sh').mono fun _ _ hworld' => .inr (by rw [hwrite, hworld', hworld])

/-- **What an edit does.** The text of a file takes the place of the text of the block, and where
this changes the document it is written. Directories may be made before. -/
theorem ensures_editBlock (path key textFile : Text) (connect : Bool) (strategy : Option Strategy)
    (stagingDir : Option Text) (sh : Shell) :
    (editBlock path key textFile false connect strategy stagingDir).Ensures sh fun _ sh' =>
      ∃ d b w text updated,
        sh.selected? path key (editOverrides strategy stagingDir) = some (d, b) ∧
        World.ChangesOnly [] sh.world w ∧ w.readText (.ofText textFile) = .ok text ∧
        d.replaceBlock b text = .ok updated ∧
        (updated = d.raw ∧ sh'.world = w ∨ w.writeText d.path updated = .ok sh'.world) := by
  unfold editBlock
  refine (ensures_settings (editOverrides strategy stagingDir) sh).bind fun s sh₁ h₁ => ?_
  obtain ⟨hload, hworld⟩ := h₁
  refine (ensures_openDocument path s sh₁).bind fun x sh₂ h₂ => ?_
  obtain ⟨d, blocks⟩ := x
  obtain ⟨hopen, ⟨notices, hblocks⟩, hworld₂⟩ := h₂
  refine (ensures_selectBlock blocks key sh₂).bind fun b sh₃ h₃ => ?_
  obtain ⟨⟨i, hselect, hb⟩, hworld₃⟩ := h₃
  rw [hworld₂, hworld] at hworld₃
  rw [hworld] at hopen
  have hselected : sh.selected? path key (editOverrides strategy stagingDir) = some (d, b) :=
    Shell.selected?_eq_some_iff.2 ⟨s, _, i, hload, hopen, hblocks, hselect, hb⟩
  -- up to here nothing was written; opening the session may make directories
  apply Ensures.bind_get
  have hclosed : (Session.closed b blocks s d.path.parent).Holds .closed := ⟨rfl, rfl⟩
  refine (ensures_enterSession hclosed _ connect sh₃).bind ?_
  rintro ⟨session, ws⟩ sh₄ ⟨hopened, hchange, hworld₄⟩
  rw [hworld₃] at hchange
  refine ensures_putLine_before fun sh₅ hworld₅ => ?_
  rw [hworld₄] at hworld₅
  apply Ensures.bind_get
  split
  · exact ensures_fail _
  next text hread =>
  rw [hworld₅] at hread
  -- what was typed is the editable text, which goes back to the document
  refine (ensures_editedText hopened ws text sh₅).bind ?_
  rintro _ sh₆ ⟨rfl, hworld₆⟩
  split
  · exact ensures_fail _
  next updated hreplace =>
  rw [if_neg Bool.false_ne_true]
  refine (ensures_writeChange d updated _ _ sh₆).mono fun _ sh' hend => ?_
  rw [hworld₆] at hend
  exact ⟨d, b, _, _, updated, hselected, hchange, hread, hreplace, hend⟩

end Action

/-! ### What stands in the file -/

namespace World

variable {w : World} {p : Path} {t : Text}

/-- A text that is read was read from bytes. -/
theorem exists_of_readText_eq_ok (h : w.readText p = .ok t) :
    ∃ bytes, w.read p = .ok bytes ∧ Utf8.ReadAs bytes t := by
  unfold readText at h
  split at h
  · cases h
  · next bytes hread =>
    split at h
    · cases h
    · next u hdecode =>
      cases h
      exact ⟨bytes, hread, u, (Utf8.encode_of_decode hdecode).symm, rfl⟩

/-- A document that is opened was read from its file. -/
theorem exists_of_openDocument_eq_ok {dialect : Text} (h : w.openDocument p dialect = .ok d) :
    ∃ raw, w.readText p = .ok raw ∧ Document.parse raw p dialect = .ok d := by
  unfold openDocument at h
  split at h
  · cases h
  · next raw hread =>
    split at h
    · cases h
    · next hparse =>
      cases h
      exact ⟨raw, hread, hparse⟩

end World

/-- What the action of a command ensures holds at the end if the exit code is zero. -/
theorem Command.of_code_eq_zero {args : List Text} {c : Command} {Q : Unit → Shell → Prop}
    (hargs : ofList? args = some c) (h : c.action.Ensures sh Q) (hcode : (run args sh).code = 0) :
    Q () (run args sh).shell := by
  unfold run at hcode ⊢
  unfold Action.Ensures at h
  rw [hargs] at hcode ⊢
  dsimp only at hcode ⊢
  split at hcode
  · next hexist =>
    rw [if_pos hexist]
    -- the action returns, or it stops with the code of the run
    revert hcode h
    cases c.action.run.run sh with
    | mk outcome sh' =>
    cases outcome with
    | ok _ => exact fun h _ => h
    | error e =>
      cases e with
      | exit code => exact fun h hcode => absurd (congrArg Stop.exit hcode) h
      | failed f => exact fun _ hcode => absurd hcode Nat.one_ne_zero
  · exact absurd hcode (Nat.succ_ne_zero 1)

variable {args : List Text} {path key textFile : Text} {connect : Bool} {strategy : Option Strategy}
  {stagingDir : Option Text}

/-- **What an edit leaves as it was.** If the command `edit` ends with exit code zero, what stands
above and below the text of the block is written back as it was read. Its bytes are the same if and
only if nothing is written at all or no carriage return is among them. The lines up to the end of
the block are broken by line feeds only, and if a line closes its fence, write-back takes it for
one. -/
theorem edit_keeps_around
    (hargs : Command.ofList? args =
      some (.edit path key textFile false connect strategy stagingDir))
    (hcode : (Command.run args sh).code = 0)
    (hselected : sh.selected? path key (Action.editOverrides strategy stagingDir) = some (d, b))
    (hlines : ∀ l ∈ (Text.lines d.body).take b.stop.toNat, FeedBroken l)
    (hclosing : Document.IsClosed b → Replace.isClosingFence (d.lastOf b) = true) :
    ∃ bytes bytes' head body tail, sh.world.read (.ofText path) = .ok bytes ∧
      (Command.run args sh).shell.world.read (.ofText path) = .ok bytes' ∧
      bytes = head ++ (body ++ tail) ∧ Utf8.ReadAs head (d.above b) ∧
      Utf8.ReadAs body (d.within b) ∧ Utf8.ReadAs tail (d.below b) ∧
      (bytes' = bytes ∨
        ∃ body', bytes' = Utf8.encode (d.above b) ++ (body' ++ Utf8.encode (d.below b))) ∧
      ((∃ body', bytes' = head ++ (body' ++ tail)) ↔
        bytes' = bytes ∨ 0x0d ∉ head ∧ 0x0d ∉ tail) := by
  obtain ⟨s, blocks, i, -, hopen, hblocks, -, hi⟩ := Shell.selected?_eq_some_iff.1 hselected
  have hb := List.mem_of_getElem? hi
  obtain ⟨raw, htext, hparse⟩ := World.exists_of_openDocument_eq_ok hopen
  obtain ⟨bytes, hread, hbytes⟩ := World.exists_of_readText_eq_ok htext
  obtain ⟨-, front, -, hraw, hself, hpath, -, -⟩ := Document.of_parse_eq_ok hparse
  have hnone : '\r' ∉ d.raw := hself ▸ hbytes.not_mem
  rw [← hself, Document.raw_eq_around (hself.trans hraw) b] at hbytes
  obtain ⟨head, rest, rfl, hhead, hrest⟩ := hbytes.exists_append
  obtain ⟨body, tail, rfl, hbody, htail⟩ := hrest.exists_append
  obtain ⟨d', b', w, new, updated, hselected', hchange, hnew, hreplace, hend⟩ :=
    Command.of_code_eq_zero hargs
      (Action.ensures_editBlock path key textFile connect strategy stagingDir sh) hcode
  rw [hselected] at hselected'
  cases hselected'
  obtain ⟨mid, hmid, hreturns⟩ :=
    Document.replaceBlock_around hparse hblocks hb hlines hclosing new
  obtain ⟨_, -, hnewRead⟩ := World.exists_of_readText_eq_ok hnew
  have hreturns := hreturns hnone hnewRead.not_mem
  rw [hmid] at hreplace
  cases hreplace
  have hhere := hchange.read_eq hread
  rcases hend with ⟨-, hworld⟩ | hwrite
  · -- nothing is written
    exact ⟨_, _, head, body, tail, hread, hworld ▸ hhere, rfl, hhead, hbody, htail, .inl rfl,
      iff_of_true ⟨body, rfl⟩ (.inl rfl)⟩
  · rw [hpath] at hwrite
    have hkept := hhead.exists_encode_eq_iff htail hreturns
    refine ⟨_, _, head, body, tail, hread, World.read_writeText hwrite, rfl, hhead, hbody, htail,
      .inr ⟨Utf8.encode mid, ?_⟩, fun h => .inr (hkept.1 h), ?_⟩
    · rw [Utf8.encode_append, Utf8.encode_append]
    · rintro (hsame | h)
      · exact ⟨body, hsame⟩
      · exact hkept.2 h

/-- A document whose lines are ended by carriage returns and line feeds is edited: what stands
around the block is written back with line feeds. -/
theorem edit_keeps_around_returns :
    let args := [lit "edit", lit "doc.md", lit "1", lit "--text-file", lit "new.txt"]
    let doc := Utf8.encode (lit "a\r\n\r\n```\r\nx\r\n```\r\n")
    let sh : Shell :=
      ⟨⟨⟨[([lit "doc.md"], .file doc), ([lit "new.txt"], .file (Utf8.encode (lit "y\n")))]⟩,
        .ofText ['/']⟩, [], false, .warning, [], []⟩
    ∃ d b, (Command.ofList? args =
          some (.edit (lit "doc.md") (lit "1") (lit "new.txt") false false none none) ∧
        (Command.run args sh).code = 0 ∧
        sh.selected? (lit "doc.md") (lit "1") (Action.editOverrides none none) = some (d, b) ∧
        (∀ l ∈ (Text.lines d.body).take b.stop.toNat, FeedBroken l) ∧
        (Document.IsClosed b → Replace.isClosingFence (d.lastOf b) = true)) ∧
      ∃ bytes bytes' head body tail, sh.world.read (.ofText (lit "doc.md")) = .ok bytes ∧
        (Command.run args sh).shell.world.read (.ofText (lit "doc.md")) = .ok bytes' ∧
        bytes = head ++ (body ++ tail) ∧ Utf8.ReadAs head (d.above b) ∧
        Utf8.ReadAs body (d.within b) ∧ Utf8.ReadAs tail (d.below b) ∧
        (bytes' = bytes ∨
          ∃ body', bytes' = Utf8.encode (d.above b) ++ (body' ++ Utf8.encode (d.below b))) ∧
        ((∃ body', bytes' = head ++ (body' ++ tail)) ↔
          bytes' = bytes ∨ 0x0d ∉ head ∧ 0x0d ∉ tail) := by
  intro args doc sh
  have hargs : Command.ofList? args =
      some (.edit (lit "doc.md") (lit "1") (lit "new.txt") false false none none) := by
    decide +kernel
  have hcode : (Command.run args sh).code = 0 := by decide +kernel
  have hchecked : ((sh.selected? (lit "doc.md") (lit "1") (Action.editOverrides none none)).any
      fun x : Document × Block => decide (
        (∀ l ∈ (Text.lines x.1.body).take x.2.stop.toNat, FeedBroken l) ∧
          (Document.IsClosed x.2 → Replace.isClosingFence (x.1.lastOf x.2) = true))) = true := by
    decide +kernel
  obtain ⟨⟨d, b⟩, hselected, hchecked⟩ := (Option.any_eq_true _ _).1 hchecked
  obtain ⟨hlines, hclosing⟩ := of_decide_eq_true hchecked
  exact ⟨d, b, ⟨hargs, hcode, hselected, hlines, hclosing⟩,
    edit_keeps_around hargs hcode hselected hlines hclosing⟩

end LiterateEdit
