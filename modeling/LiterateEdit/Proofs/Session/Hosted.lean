import LiterateEdit.Proofs.Script.Uncrossed
import LiterateEdit.Proofs.Session.Lifecycle

/-!
# Replacing the text of a session that a host has worked on

Between the calls of a session the buffer is the host's. It may edit it, narrow it to anything, give
up markers, add spans anywhere and lift the protection, and it leaves to the session only to splice
and unsplice (`Session.Hosted`). This file is about what replacing the text does then.

Replacing takes its stretch from the markers of the engine, or from the view if there is no context
(`Session.stretch?`). What is read back as the text of the session is the region, or the whole
buffer. With context the two are one, because the markers of the engine never cross: if one of them
is given up, replacing is refused, and otherwise the new text is the region. Without context they
differ as soon as the view is not the whole text (`Session.replaceText_sets_stretch`).
-/

namespace LiterateEdit

namespace Session

variable {start s : Session} {b b' : Buffer} {ws : Workspace} {lo hi : Int} {t : Text}

/-- The open buffer of a session as a script sees it. The host knows some markers. -/
def desk (s : Session) (b : Buffer) (names : List MarkerId) : Desk := ⟨b, s.engine, names⟩

/-- **What a host can make of a session**: it makes calls, and on the open buffer it runs any steps
other than splicing and unsplicing. Every recorded state counts, those in the middle of a group
included. -/
inductive Hosted (start : Session) : Session → Prop
  | start : Hosted start start
  | call {s : Session} (h : Hosted start s) (ws : Workspace) (c : Call) :
      Hosted start (s.perform ws c).session
  | script {s : Session} {b : Buffer} (h : Hosted start s) (hb : s.buffer = some b)
      (names : List MarkerId) (stops : Bool) (steps : List Step)
      (hsteps : ∀ x ∈ (s.desk b names).takenAll stops steps, x.step.isResplice = false)
      {r : StepRecord} (hr : r ∈ ((s.desk b names).runAll stops steps).2.1) :
      Hosted start { s with buffer := some r.desk.buffer }

/-- A single step on the buffer. -/
theorem Hosted.step (h : Hosted start s) (hb : s.buffer = some b) (names : List MarkerId)
    (step : Step) (hgroup : step.isGroup = false) (hstep : step.isResplice = false) :
    Hosted start { s with buffer := some ((s.desk b names).take step).desk.buffer } := by
  have hgoes : false = true → Desk.failure? ((s.desk b names).run step).2 = none := nofun
  refine h.script hb names false [step] (fun x hx => ?_) (r := (s.desk b names).take step) ?_
  · rw [Desk.takenAll_cons_of_ok hgoes, Desk.taken_of_take hgroup] at hx
    rw [List.mem_singleton.1 hx]
    exact hstep
  · rw [Desk.runAll_cons_of_ok hgoes, Desk.run_of_take hgroup]
    exact List.mem_singleton.2 rfl

/-- **The invariant.** A closed session has an idle engine, and the buffer of an open one is as the
engine needs it. -/
inductive Sound (s : Session) : Prop where
  | closed (hb : s.buffer = none) (he : s.engine = .unspliced)
  | opened (b : Buffer) (hb : s.buffer = some b) (h : s.engine.Sound b)

theorem Sound.engine (h : s.Sound) (hb : s.buffer = some b) : s.engine.Sound b := by
  cases h with
  | closed hb' _ =>
    rw [hb] at hb'
    cases hb'
  | opened b' hb' h =>
    rw [hb] at hb'
    cases hb'
    exact h

/-! ### The stretch that is replaced -/

/-- The stretch that replacing the text goes by: the region, or the view if there is no context. -/
def stretch? (s : Session) (b : Buffer) : Option (Int × Int) :=
  match s.engine with
  | .unspliced => some (b.low, b.high)
  | .spliced _ _ => s.engine.region? b

/-- The stretch is one of the text. -/
theorem stretch?_bounds (h : s.engine.Sound b) (hst : s.stretch? b = some (lo, hi)) :
    0 ≤ lo ∧ lo ≤ hi ∧ hi ≤ b.size := by
  unfold stretch? at hst
  split at hst
  · cases hst
    exact ⟨h.view.low_nonneg, h.view.low_le_high, h.view.high_le_size⟩
  · next start stop he =>
    rw [he] at hst
    exact (Engine.region?_eq_some_iff.1 hst).2.2

/-- **Replacing goes through exactly if there is a stretch and it may be replaced.** -/
theorem replaced_eq_ok_iff (h : s.engine.Sound b) :
    s.replaced b t = .ok b' ↔
      ∃ lo hi, s.stretch? b = some (lo, hi) ∧ b.MayReplace lo hi ∧ b' = b.put lo hi t := by
  unfold replaced stretch?
  cases he : s.engine with
  | unspliced =>
    change b.replaceRegion (.at b.low) (.at b.high) t = .ok b' ↔ _
    rw [Buffer.replaceRegion_of_le rfl rfl h.view.low_le_high]
    constructor
    · intro hrep
      exact ⟨b.low, b.high, rfl, hrep⟩
    · rintro ⟨lo, hi, hst, hrep⟩
      cases hst
      exact hrep
  | spliced start stop =>
    change b.replaceRegion (.marker start) (.marker stop) t = .ok b' ↔ _
    constructor
    · intro hrep
      -- both markers have been found, so that they are the ends of a region
      obtain ⟨lo, hi, hlo, hhi, -⟩ := Buffer.replaceRegion_eq_ok_iff.1 hrep
      have hregion : (Engine.spliced start stop).region? b = some (lo, hi) :=
        (h.uncrossed start stop he).region? h.markers (Buffer.locate_marker_eq_ok.1 hlo)
          (Buffer.locate_marker_eq_ok.1 hhi)
      have hle : lo ≤ hi := (Engine.region?_eq_some_iff.1 hregion).2.2.2.1
      exact ⟨lo, hi, hregion, (Buffer.replaceRegion_of_le hlo hhi hle).1 hrep⟩
    · rintro ⟨lo, hi, hregion, hrep⟩
      obtain ⟨hlo, hhi, -, hle, -⟩ := Engine.region?_eq_some_iff.1 hregion
      exact (Buffer.replaceRegion_of_le (Buffer.locate_marker hlo) (Buffer.locate_marker hhi) hle).2
        hrep

/-! ### What a session goes through -/

/-- A session whose buffer an operation other than one of the engine has changed. -/
theorem Sound.becomes (h : s.engine.Sound b) (hb : b.Becomes b') :
    ({ s with buffer := some b' } : Session).Sound := .opened b' rfl (h.becomes hb)

theorem Sound.connectBuffer (hb : s.buffer = some b) (h : s.engine.Sound b) (ws : Workspace) :
    (s.connectBuffer ws).session.Sound := by
  obtain ⟨file, hsession⟩ := connectBuffer_session s ws
  obtain ⟨place, hbuffer⟩ := ws.connect_buffer s.settings b s.block s.docDir
  rw [hsession, hb]
  exact .opened _ hbuffer (h.congr rfl rfl rfl)

theorem Sound.enter (h : s.Sound) (ws : Workspace) (connect : Bool) :
    (s.enter ws connect).session.Sound := by
  cases h with
  | opened b hb h =>
    have hrefused : s.enter ws connect = ⟨.error (.alreadyOpen s.block.identity), s, ws, []⟩ := by
      rw [Session.enter, hb]
    rw [hrefused]
    exact .opened b hb h
  | closed hb he =>
    -- whatever splicing comes to, and whether connecting fails behind it
    have hspliced := Engine.Sound.splice s.block.text (Partition.ofBlock? s.blocks s.block).value
      s.settings.narrow
    unfold Session.enter
    simp only [hb, he]
    split
    · exact .opened _ rfl hspliced
    · split
      · exact Sound.connectBuffer rfl hspliced ws
      · exact .opened _ rfl hspliced

theorem Sound.replaceText (h : s.Sound) (ws : Workspace) (t : Text) :
    (s.replaceText ws t).session.Sound := by
  cases hb : s.buffer with
  | none =>
    have hrefused : s.replaceText ws t = ⟨.error .notOpen, s, ws, []⟩ := by
      rw [Session.replaceText, hb]
    rw [hrefused]
    exact h
  | some b =>
    have hsound := h.engine hb
    unfold Session.replaceText
    simp only [hb]
    split
    · exact h
    · next b' hrep =>
      obtain ⟨lo, hi, hst, hmay, rfl⟩ := (replaced_eq_ok_iff hsound).1 hrep
      obtain ⟨-, hle, -⟩ := stretch?_bounds hsound hst
      exact Sound.becomes hsound (.done (.single (.edit t hmay.low_le hle hmay.le_high)))

theorem Sound.exit (h : s.Sound) (ws : Workspace) : (s.exit ws).session.Sound := by
  cases hb : s.buffer with
  | none =>
    have hexit : s.exit ws = ⟨.ok s.block.text, s, ws, []⟩ := by
      rw [Session.exit, hb]
    rw [hexit]
    exact h
  | some b =>
    have hsound := h.engine hb
    have hbecomes := s.engine.unsplice_becomes b none
    unfold Session.exit
    simp only [hb]
    rcases s.engine.unsplice_cases b none with
      ⟨he, heq⟩ | ⟨start, stop, -, ⟨notices, -, heq⟩ | ⟨err, c, -, heq⟩ | ⟨c, notices, -, heq⟩⟩
    · rw [heq]
      exact .closed rfl he
    · rw [heq]
      exact .closed rfl rfl
    · -- a failure leaves the session open, with the context as it was
      rw [heq] at hbecomes ⊢
      exact Sound.becomes hsound hbecomes
    · rw [heq]
      exact .closed rfl rfl

/-- **The step**, if the host makes a call. -/
theorem Sound.perform (h : s.Sound) (ws : Workspace) (c : Call) :
    (s.perform ws c).session.Sound := by
  cases c with
  | enter connect => exact h.enter ws connect
  | replaceText t => exact h.replaceText ws t
  | exit => exact h.exit ws

/-- **The step**, if the host works on the buffer. -/
theorem Sound.script (h : s.engine.Sound b) {names : List MarkerId} {stops : Bool}
    {steps : List Step}
    (hsteps : ∀ x ∈ (s.desk b names).takenAll stops steps, x.step.isResplice = false)
    {r : StepRecord} (hr : r ∈ ((s.desk b names).runAll stops steps).2.1) :
    ({ s with buffer := some r.desk.buffer } : Session).Sound := by
  -- there is nothing that only undone steps have to keep to
  have hkeep : Desk.KeepTo (fun _ s => s.isResplice = false) (fun _ _ => True)
      ((s.desk b names).takenAll stops steps) := fun x hx => ⟨hsteps x hx, fun _ => trivial⟩
  obtain ⟨⟨-, hstates⟩, -⟩ :=
    (Desk.upholds_sound s.engine).run_and_runAll.2 _ stops steps hkeep ⟨rfl, h⟩
  exact .opened _ rfl (hstates r hr).2

/-- **The run.** -/
theorem Hosted.sound (h : Hosted start s) (hstart : start.Sound) : s.Sound := by
  induction h with
  | start => exact hstart
  | call _ ws c ih => exact ih.perform ws c
  | script _ hb names stops steps hsteps hr ih => exact Sound.script (ih.engine hb) hsteps hr

/-! ### Replacing the text -/

/-- **A new text in the place of the stretch** is the stretch. -/
theorem stretch?_put (h : s.engine.Sound b) (hst : s.stretch? b = some (lo, hi)) :
    s.stretch? (b.put lo hi t) = some (lo, lo + t.length) := by
  obtain ⟨h₀, hle, -⟩ := stretch?_bounds h hst
  unfold stretch? at hst ⊢
  cases he : s.engine with
  | spliced start stop =>
    rw [he] at hst
    exact (h.uncrossed start stop he).region?_put hst
  | unspliced =>
    rw [he] at hst
    cases hst
    -- the view shrinks and grows with the text in it
    have hlow : (b.put b.low b.high t).low = b.low := Buffer.put_low (Int.le_refl _) hle
    have hhigh : (b.put b.low b.high t).high = b.low + t.length := by
      rw [Buffer.put_high h₀ hle (Int.le_refl _)]
      omega
    simp only [hlow, hhigh]

/-- What is read back when the stretch has been replaced. With context it is the new text; without
it is all text, and the new text is all of it only if the stretch was. -/
theorem editable_put_iff (h : s.engine.Sound b) (hst : s.stretch? b = some (lo, hi)) :
    s.engine.editable (b.put lo hi t) = t ↔ s.isSpliced = true ∨ b.low = 0 ∧ b.high = b.size := by
  obtain ⟨h₀, hle, hsize⟩ := stretch?_bounds h hst
  have hput := stretch?_put (t := t) h hst
  have htext : (b.put lo hi t).text = b.text.edit lo hi t := Buffer.put_text hle hsize
  unfold isSpliced
  unfold stretch? at hst hput
  cases he : s.engine with
  | spliced start stop =>
    simp only [he] at hput
    have hread : (Engine.spliced start stop).editable (b.put lo hi t) = t := by
      rw [Engine.editable_eq hput]
      exact Buffer.slice_put h₀ hle hsize
    exact ⟨fun _ => .inl rfl, fun _ => hread⟩
  | unspliced =>
    rw [he] at hst
    cases hst
    have hfalse : ¬Engine.unspliced.isSpliced = true := Bool.false_ne_true
    change (b.put b.low b.high t).text = t ↔ _
    rw [or_iff_right hfalse, htext]
    constructor
    · intro hread
      -- as much is left around the new text as there was outside the view
      have hlen : ((b.text.edit b.low b.high t).length : Int)
          = b.size - (b.high - b.low) + t.length := Text.length_edit h₀ hle hsize
      rw [hread] at hlen
      omega
    · rintro ⟨hlow, hhigh⟩
      calc b.text.edit b.low b.high t
          = b.text.edit 0 b.size t := by rw [hlow, hhigh]
        _ = b.text.slice 0 0 ++ t ++ b.text.slice b.size b.size :=
          Text.edit_eq_slices (Int.le_refl 0) b.size_nonneg (Int.le_refl b.size)
        _ = t := by rw [Text.slice_self, Text.slice_self, List.nil_append, List.append_nil]

/-- **The stretch from `lo` to `hi` of the buffer `b` has been set to `t`**, which gives `b'`, and
nothing else has happened to the session. -/
structure SetsStretch (s : Session) (b : Buffer) (lo hi : Int) (t : Text) (ws : Workspace)
    (b' : Buffer) : Prop where
  result : s.replaceText ws t = ⟨.ok (), { s with buffer := some b' }, ws, []⟩
  /-- The text outside the stretch is as it was. -/
  text : b'.text = b.slice 0 lo ++ t ++ b.slice hi b.size
  stretch : s.stretch? b' = some (lo, lo + t.length)
  /-- The new text is what is read back, unless some text was out of sight without context. -/
  editable_iff : (s.replaceText ws t).session.editableText = t ↔
    s.isSpliced = true ∨ b.low = 0 ∧ b.high = b.size

/-- **Replacing the text sets the stretch or does nothing.** The session may be in any state that a
host leads it to, spliced or not, narrowed to anything, with any markers given up. If there is a
stretch and the view and the spans allow to replace it, its text is set and the text outside stays.
Otherwise replacing is refused and nothing at all has changed. With context the new text is always
what is read back; without it, exactly if the view was the whole text. -/
theorem replaceText_sets_stretch (block : Block) (blocks : List Block) (settings : Settings)
    (docDir : Path) (hs : Hosted (closed block blocks settings docDir) s) (hb : s.buffer = some b)
    (ws : Workspace) (t : Text) :
    (∃ lo hi b', s.stretch? b = some (lo, hi) ∧ b.MayReplace lo hi ∧
        SetsStretch s b lo hi t ws b') ∨
      (∃ e, s.replaceText ws t = ⟨.error (.edit e), s, ws, []⟩) ∧
        ∀ lo hi, s.stretch? b = some (lo, hi) → ¬b.MayReplace lo hi := by
  have hsound : s.engine.Sound b := (hs.sound (.closed rfl rfl)).engine hb
  cases hrep : s.replaced b t with
  | error e =>
    have hrefused : s.replaceText ws t = ⟨.error (.edit e), s, ws, []⟩ := by
      unfold replaceText
      simp only [hb, hrep]
    -- a stretch that may be replaced would have been
    refine .inr ⟨⟨e, hrefused⟩, fun lo hi hst hmay => ?_⟩
    have hok := (replaced_eq_ok_iff (t := t) hsound).2 ⟨lo, hi, hst, hmay, rfl⟩
    rw [hrep] at hok
    cases hok
  | ok b' =>
    obtain ⟨lo, hi, hst, hmay, rfl⟩ := (replaced_eq_ok_iff hsound).1 hrep
    obtain ⟨h₀, hle, hsize⟩ := stretch?_bounds hsound hst
    have hresult : s.replaceText ws t
        = ⟨.ok (), { s with buffer := some (b.put lo hi t) }, ws, []⟩ := by
      unfold replaceText
      simp only [hb, hrep]
    refine .inl ⟨lo, hi, b.put lo hi t, hst, hmay, ?_⟩
    constructor
    case result => exact hresult
    case text =>
      rw [Buffer.put_text hle hsize]
      exact Text.edit_eq_slices h₀ hle hsize
    case stretch => exact stretch?_put hsound hst
    case editable_iff =>
      rw [hresult]
      exact editable_put_iff hsound hst

/-- A block that is alone is opened and narrowed to its second character: only this is replaced, and
what is read back is more than the new text. A block in context is narrowed to a part of its region:
replacing is refused, where without the narrowing it sets the region. -/
theorem replaceText_sets_stretch_narrowed :
    let ws : Workspace := ⟨⟨⟨[]⟩, .ofText (Text.lit "/")⟩, .ofStrategy .eglot⟩
    let before : Block := { Block.bare (Text.lit "1") (Text.lit "a") with
      target := some (Text.lit "x.py") }
    let block : Block := { Block.bare (Text.lit "2") (Text.lit "abc\n") with
      target := some (Text.lit "x.py") }
    let opened (blocks : List Block) : Session :=
      ((closed block blocks {} (.ofText [])).perform ws (.enter false)).session
    let narrowed (s : Session) (b : Buffer) (lo hi : Int) : Session :=
      { s with buffer := some ((s.desk b []).take (.narrow (.at lo) (.at hi))).desk.buffer }
    let alone := opened [block]
    let embedded := opened [before, block]
    let b := Buffer.ofText block.text
    let c := (⟨[before], []⟩ : Partition).embed false (.ofText block.text)
    let t := Text.lit "X"
    let sets (s : Session) (b : Buffer) := ∃ lo hi b', s.stretch? b = some (lo, hi) ∧
      b.MayReplace lo hi ∧ SetsStretch s b lo hi t ws b'
    (alone.buffer = some b ∧ embedded.buffer = some c) ∧
      sets (narrowed alone b 1 2) { b with view := some (1, 2), point := 1 } ∧
      ((narrowed alone b 1 2).replaceText ws t).session.editableText = Text.lit "aXc\n" ∧
      (∃ e, (narrowed embedded c 3 4).replaceText ws t
        = ⟨.error (.edit e), narrowed embedded c 3 4, ws, []⟩) ∧
      sets embedded c ∧ (embedded.replaceText ws t).session.editableText = t := by
  intro ws before block opened narrowed alone embedded b c t sets
  have halone : alone.buffer = some b := by decide +kernel
  have hembedded : embedded.buffer = some c := by decide +kernel
  have hopened : ∀ blocks, Hosted (closed block blocks {} (.ofText [])) (opened blocks) :=
    fun blocks => .call .start ws (.enter false)
  have hnarrowed := (hopened [block]).step halone [] (.narrow (.at 1) (.at 2)) rfl rfl
  have hnarrowed' := (hopened [before, block]).step hembedded [] (.narrow (.at 3) (.at 4)) rfl rfl
  have hset : ((narrowed alone b 1 2).replaceText ws t).outcome = .ok () := by decide +kernel
  have hset' : (embedded.replaceText ws t).outcome = .ok () := by decide +kernel
  have hrefused : ((narrowed embedded c 3 4).replaceText ws t).outcome ≠ .ok () := by
    decide +kernel
  refine ⟨⟨halone, hembedded⟩, ?_, by decide +kernel, ?_, ?_, by decide +kernel⟩
  · refine (replaceText_sets_stretch block [block] {} (.ofText []) hnarrowed rfl ws t).resolve_right
      ?_
    rintro ⟨⟨e, he⟩, -⟩
    cases (congrArg Result.outcome he).symm.trans hset
  · rcases replaceText_sets_stretch block [before, block] {} (.ofText []) hnarrowed' rfl ws t with
      ⟨lo, hi, b', -, -, hsets⟩ | ⟨he, -⟩
    · exact absurd (congrArg Result.outcome hsets.result) hrefused
    · exact he
  · refine (replaceText_sets_stretch block [before, block] {} (.ofText []) (hopened _) hembedded ws
      t).resolve_right ?_
    rintro ⟨⟨e, he⟩, -⟩
    cases (congrArg Result.outcome he).symm.trans hset'

end Session

end LiterateEdit
