import LiterateEdit.Proofs.Client.Books
import LiterateEdit.Proofs.FileSystem.Tree
import LiterateEdit.Proofs.Tangle.Files
import LiterateEdit.Session.Connect

/-!
# The directory of a connected buffer

Connecting a buffer does three things that others can see: it makes the directory of the target, it
names the file of the buffer, and it attaches the file to the language client. They are done in this
order, so that nothing has happened yet while the directory can still be refused, and the directory
is there when the others happen.

`World.provideDirectory_cases` says what comes of the directory: it is there, or it is made with
what is missing above it; or it is missing and must not be made; or it may be made and a file is in
the way. The place of a target is absolute and has no double dots, however the target is spelled, so
that the walks of the file system come out as they do in a tree (`World.makeDirectoriesAt_free`,
`World.makeDirectoriesAt_blocked`).

`Workspace.connect_policy` concludes what a host sees (`Workspace.FollowsPolicy`).
-/

namespace LiterateEdit

namespace World

variable {w : World} {dir : Path}

/-- **Asking for a directory in a tree.** -/
theorem provideDirectory_cases (h : w.files.IsTree) (habs : dir.isAbsolute = true)
    (hplain : ['.', '.'] ∉ dir.parts) (mkdirp : Option Text) :
    (∃ made w' notices, w.provideDirectory dir mkdirp = ⟨.ok made, w', notices⟩ ∧
        MakesWay dir.parts w w' ∧
        (w.isDirectory dir = true ∨ allowsMaking mkdirp = true ∧ ¬w.files.Blocked dir.parts)) ∨
      (w.provideDirectory dir mkdirp = ⟨.error (.missing dir), w, []⟩ ∧
        w.isDirectory dir = false ∧ allowsMaking mkdirp = false) ∨
      ∃ e, w.provideDirectory dir mkdirp = ⟨.error (.refused e dir), w, []⟩ ∧
        w.isDirectory dir = false ∧ allowsMaking mkdirp = true ∧ w.files.Blocked dir.parts := by
  have hroot : dir.root ≠ .relative := by simpa [Path.isAbsolute] using habs
  have hrev : ['.', '.'] ∉ dir.parts.reverse.reverse := by rwa [List.reverse_reverse]
  unfold provideDirectory makeDirectories
  cases hthere : w.isDirectory dir with
  | true =>
    exact .inl ⟨false, w, [], rfl, .refl h ((isDirectory_iff h habs hplain).1 hthere), .inl rfl⟩
  | false =>
    cases hallowed : allowsMaking mkdirp with
    | false => exact .inr (.inl ⟨rfl, rfl, rfl⟩)
    | true =>
      by_cases hblocked : w.files.Blocked dir.parts
      · obtain ⟨e, hmade⟩ := makeDirectoriesAt_blocked h hroot hrev
          (by rwa [List.reverse_reverse])
        refine .inr (.inr ⟨e, ?_, rfl, rfl, hblocked⟩)
        simp only [Bool.false_eq_true, if_false, if_true, hmade]
      · obtain ⟨w', hmade, hway⟩ := makeDirectoriesAt_free h hroot hrev
          (by rwa [List.reverse_reverse])
        rw [List.reverse_reverse] at hway
        refine .inl ⟨true, w', [⟨.info, .session, Text.lit "Created directory " ++ dir.text⟩], ?_,
          hway, .inr ⟨rfl, hblocked⟩⟩
        simp only [Bool.false_eq_true, if_false, if_true, hmade]

end World

namespace Workspace

variable {ws : Workspace} {settings : Settings} {b : Buffer} {block : Block} {docDir p : Path}
  {target : Text} {c : Connection}

/-! ### The order of what happens -/

/-- Where the directory cannot be had, nothing else is done. -/
theorem connect_of_error {e : DirectoryError} {notices : List Notice}
    (htarget : block.target? = some target)
    (hp : Target.place ws.world.cwd (settings.baseDirectory docDir) target = p)
    (hdir : ws.world.provideDirectory p.parent block.mkdirp = ⟨.error e, ws.world, notices⟩) :
    ws.connect settings (some b) block docDir = ⟨.error (.directory e), some b, ws, notices⟩ := by
  unfold connect
  simp only [htarget, hp, hdir]

/-- Where it is, the buffer gets its file and the client is asked to attach it. -/
theorem connect_of_ok {made : Bool} {w' : World} {notices : List Notice}
    (htarget : block.target? = some target)
    (hp : Target.place ws.world.cwd (settings.baseDirectory docDir) target = p)
    (hdir : ws.world.provideDirectory p.parent block.mkdirp = ⟨.ok made, w', notices⟩) :
    ws.connect settings (some b) block docDir
      = ⟨match (ws.client.attach w'.cwd p).outcome with
          | .ok _ => .ok (some p)
          | .error e => .error (.attach e),
        some { b with file := some p }, ⟨w', (ws.client.attach w'.cwd p).client⟩,
        notices ++ (ws.client.attach w'.cwd p).notices⟩ := by
  unfold connect
  simp only [htarget, hp, hdir]
  rfl

/-! ### The policy -/

/-- **What comes of connecting a buffer to the place `p`**, according to the directory of `p` and to
whether the block allows to make it. -/
structure FollowsPolicy (ws : Workspace) (b : Buffer) (block : Block) (p : Path) (c : Connection) :
    Prop where
  /-- The directory is reported as missing exactly if it is and must not be made. -/
  missing_iff : ∀ dir, c.outcome = .error (.directory (.missing dir)) ↔
    dir = p.parent ∧ ws.world.isDirectory p.parent = false ∧ allowsMaking block.mkdirp = false
  /-- The file system refuses to make it exactly if a file is in the way. -/
  refused_iff : (∃ e dir, c.outcome = .error (.directory (.refused e dir))) ↔
    ws.world.isDirectory p.parent = false ∧ allowsMaking block.mkdirp = true ∧
      ws.world.files.Blocked p.parent.parts
  /-- In both cases nothing has happened. -/
  unchanged : ∀ e, c.outcome = .error (.directory e) → c.buffer = some b ∧ c.workspace = ws
  /-- Otherwise the buffer is connected if the client attaches the file. -/
  connected_iff : (∃ file, c.outcome = .ok file) ↔
    (ws.world.isDirectory p.parent = true ∨
        allowsMaking block.mkdirp = true ∧ ¬ws.world.files.Blocked p.parent.parts) ∧
      ∃ fresh, (ws.client.attach ws.world.cwd p).outcome = .ok fresh
  /-- Then the directory is there, and only what was missing on the way to it is new. -/
  connected : ∀ file, c.outcome = .ok file → file = some p ∧
    c.buffer = some { b with file := some p } ∧ p ∈ c.workspace.client.attached ∧
    c.workspace.world.isDirectory p.parent = true ∧
    World.MakesWay p.parent.parts ws.world c.workspace.world

/-- A directory that is missing and must not be made is reported, and nothing happens. -/
theorem followsPolicy_of_missing (hc : c.outcome = .error (.directory (.missing p.parent)))
    (hbuffer : c.buffer = some b) (hws : c.workspace = ws)
    (hnot : ws.world.isDirectory p.parent = false) (hforbids : allowsMaking block.mkdirp = false) :
    FollowsPolicy ws b block p c := by
  constructor
  case missing_iff =>
    intro dir
    rw [hc]
    constructor
    · intro h
      cases h
      exact ⟨rfl, hnot, hforbids⟩
    · rintro ⟨rfl, -, -⟩
      rfl
  case unchanged => exact fun _ _ => ⟨hbuffer, hws⟩
  case connected =>
    intro file h
    rw [hc] at h
    cases h
  all_goals
    simp [hc, hnot, hforbids]

/-- A directory that may be made but cannot is refused, and nothing happens. -/
theorem followsPolicy_of_refused {e : FileError}
    (hc : c.outcome = .error (.directory (.refused e p.parent)))
    (hbuffer : c.buffer = some b) (hws : c.workspace = ws)
    (hnot : ws.world.isDirectory p.parent = false) (hallows : allowsMaking block.mkdirp = true)
    (hblocked : ws.world.files.Blocked p.parent.parts) : FollowsPolicy ws b block p c := by
  rw [Path.parent_parts] at hblocked
  constructor
  case unchanged => exact fun _ _ => ⟨hbuffer, hws⟩
  case connected =>
    intro file h
    rw [hc] at h
    cases h
  all_goals
    simp [hc, hnot, hallows, hblocked]

/-- With the directory there, the outcome is that of attaching the file. -/
theorem followsPolicy_of_ok {w' : World} {notices : List Notice} (habs : p.isAbsolute = true)
    (hplain : ['.', '.'] ∉ p.parts) (hway : World.MakesWay p.parent.parts ws.world w')
    (hdir : ws.world.isDirectory p.parent = true ∨
      allowsMaking block.mkdirp = true ∧ ¬ws.world.files.Blocked p.parent.parts) :
    FollowsPolicy ws b block p
      ⟨match (ws.client.attach w'.cwd p).outcome with
          | .ok _ => .ok (some p)
          | .error e => .error (.attach e),
        some { b with file := some p }, ⟨w', (ws.client.attach w'.cwd p).client⟩, notices⟩ := by
  have hself : w'.cwd.absolute p = p := by
    rw [Path.absolute, Path.append_of_isAbsolute _ habs, Path.normal_of_plain hplain]
  have hmay : ws.world.isDirectory p.parent = false → allowsMaking block.mkdirp = true ∧
      ¬ws.world.files.Blocked p.parent.parts := by
    refine fun hnot => hdir.resolve_left fun hthere => ?_
    rw [hnot] at hthere
    cases hthere
  have hthere : w'.isDirectory p.parent = true := by
    have hplain' : ['.', '.'] ∉ p.parent.parts :=
      fun h => hplain ((List.dropLast_sublist p.parts).subset h)
    exact (World.isDirectory_iff (p := p.parent) hway.tree habs hplain').2 hway.directory
  -- an error is one of attaching, so none is about the directory
  have hno : ∀ e, (match (ws.client.attach w'.cwd p).outcome with
      | .ok _ => .ok (some p)
      | .error e => .error (.attach e) : Except ConnectError (Option Path))
        ≠ .error (.directory e) := by
    intro e h
    split at h <;> cases h
  constructor
  case missing_iff =>
    -- a directory that is not there has been made, so that making it was not forbidden
    refine fun dir => iff_of_false (hno _) ?_
    rintro ⟨-, hnot, hforbids⟩
    rw [(hmay hnot).1] at hforbids
    cases hforbids
  case refused_iff =>
    -- nor was there a file in the way
    refine iff_of_false ?_ ?_
    · rintro ⟨e, dir, h⟩
      exact hno _ h
    · rintro ⟨hnot, -, hblocked⟩
      exact (hmay hnot).2 hblocked
  case unchanged => exact fun e h => absurd h (hno e)
  case connected_iff =>
    -- attaching depends on the current directory only, and making directories leaves it
    rw [← hway.cwd]
    cases (ws.client.attach w'.cwd p).outcome with
    | ok fresh => exact iff_of_true ⟨some p, rfl⟩ ⟨hdir, fresh, rfl⟩
    | error e =>
      refine iff_of_false ?_ ?_
      · rintro ⟨file, h⟩
        cases h
      · rintro ⟨-, fresh, h⟩
        cases h
  case connected =>
    -- the client attaches the place itself, because it is absolute and has no double dots
    intro file h
    cases hout : (ws.client.attach w'.cwd p).outcome with
    | error e =>
      simp only [hout] at h
      cases h
    | ok fresh =>
      simp only [hout] at h
      cases h
      have hattached := Client.mem_attached_of_ok hout
      rw [hself] at hattached
      exact ⟨rfl, rfl, hattached, hthere, hway⟩

/-- **The directory policy of connecting.** A block without a target leaves everything alone. With a
target, whose place is `p` however it is spelled, the directory of `p` decides. It is reported as
missing exactly if it is not there and the value of `mkdirp`, without white space around it and in
lower case, is not `yes`; it cannot be made exactly if it may be and a file is in the way; in both
cases the files, the file of the buffer and the client are as they were. Where connecting succeeds,
the directory is there, what is new among the files are directories that were missing on the way to
it, and the buffer and the client have the file `p`. -/
theorem connect_policy (ws : Workspace) (settings : Settings) (b : Buffer) (block : Block)
    (docDir : Path) (htree : ws.world.files.IsTree) (hcwd : ws.world.cwd.isAbsolute = true) :
    (block.target? = none →
        ws.connect settings (some b) block docDir = ⟨.ok none, some b, ws, []⟩) ∧
      ∀ target, block.target? = some target →
        FollowsPolicy ws b block (Target.place ws.world.cwd (settings.baseDirectory docDir) target)
          (ws.connect settings (some b) block docDir) := by
  constructor
  · intro hnone
    unfold connect
    simp only [hnone]
  · intro target htarget
    obtain ⟨habs, hplain⟩ :=
      Target.place_isAbsolute_of_cwd hcwd (settings.baseDirectory docDir) target
    generalize hp : Target.place ws.world.cwd (settings.baseDirectory docDir) target = p
      at habs hplain
    have habs' : p.parent.isAbsolute = true := habs
    have hplain' : ['.', '.'] ∉ p.parent.parts :=
      fun h => hplain ((List.dropLast_sublist p.parts).subset h)
    rcases World.provideDirectory_cases htree habs' hplain' block.mkdirp with
      ⟨made, w', notices, hdir, hway, hok⟩ | ⟨hdir, hnot, hforbids⟩ |
        ⟨e, hdir, hnot, hallows, hblocked⟩
    · rw [connect_of_ok htarget hp hdir]
      exact followsPolicy_of_ok habs hplain hway hok
    · rw [connect_of_error htarget hp hdir]
      exact followsPolicy_of_missing rfl rfl rfl hnot hforbids
    · rw [connect_of_error htarget hp hdir]
      exact followsPolicy_of_refused rfl rfl rfl hnot hallows hblocked

/-- In `/w` there are the directory `d` and the file `f`. A target that goes through `d` and back is
connected, and the two directories that it needs are made; one below `f` is refused; and one in a
directory that must not be made is reported. -/
theorem connect_policy_spelled :
    let fs : FileSystem := ⟨[([Text.lit "w"], .directory),
      ([Text.lit "w", Text.lit "d"], .directory), ([Text.lit "w", Text.lit "f"], .file [])]⟩
    let ws : Workspace := ⟨⟨fs, ⟨.slash, [Text.lit "w"]⟩⟩, .ofStrategy .eglot⟩
    let block (target mkdirp : String) : Block :=
      ⟨Text.lit "a", none, some (Text.lit target), [(Text.lit "mkdirp", Text.lit mkdirp)], [], none,
        0, 0⟩
    let b := Buffer.ofText (Text.lit "x")
    let connect (block : Block) := ws.connect {} (some b) block ⟨.relative, []⟩
    let p : Path := ⟨.slash, [Text.lit "w", Text.lit "new", Text.lit "deep", Text.lit "x.py"]⟩
    let c := connect (block "d/../new/deep/x.py" " YES\n")
    c.outcome = .ok (some p) ∧ FollowsPolicy ws b (block "d/../new/deep/x.py" " YES\n") p c ∧
      c.workspace.world.files.entries = fs.entries ++
        [([Text.lit "w", Text.lit "new"], .directory),
          ([Text.lit "w", Text.lit "new", Text.lit "deep"], .directory)] ∧
      (connect (block "f/deep/x.py" "yes")).outcome
        = .error (.directory (.refused .notDirectory
            ⟨.slash, [Text.lit "w", Text.lit "f", Text.lit "deep"]⟩)) ∧
      (connect (block "new/x.py" "no")).outcome
        = .error (.directory (.missing ⟨.slash, [Text.lit "w", Text.lit "new"]⟩)) ∧
      (connect (block "new/x.py" "no")).workspace = ws := by
  intro fs ws block b connect p c
  have htree : fs.IsTree := .of_entries (by decide +kernel)
  have hpolicy := fun block => connect_policy ws {} b block ⟨.relative, []⟩ htree rfl
  have hmissing : (connect (block "new/x.py" "no")).outcome
      = .error (.directory (.missing ⟨.slash, [Text.lit "w", Text.lit "new"]⟩)) := by decide +kernel
  refine ⟨?_, ?_, ?_, ?_, hmissing, ?_⟩
  · decide +kernel
  · have hplace : Target.place ws.world.cwd (Settings.baseDirectory {} ⟨.relative, []⟩)
        (Text.lit "d/../new/deep/x.py") = p := by decide +kernel
    rw [← hplace]
    exact (hpolicy _).2 _ (by decide +kernel)
  · decide +kernel
  · decide +kernel
  · exact (((hpolicy _).2 (Text.lit "new/x.py") (by decide +kernel)).unchanged _ hmissing).2

end Workspace

end LiterateEdit
