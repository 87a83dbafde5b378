import LiterateEdit.CommandLine.Run

/-!
# What an action ensures

A command is a sequence of actions, and each may stop it. What is said about a command that ends
with exit code zero is said step by step: an action **ensures** something (`Action.Ensures`) if it
either goes on and that holds, or stops with another exit code. A failure that is none of the
expected ones stops with another one too.

What one action ensures is what the next one starts from (`Ensures.bind`), so each action gets one
lemma, and a command is read by putting them one behind another.
-/

namespace LiterateEdit.Action

variable {α β : Type} {a : Action α} {f : α → Action β} {x : α} {sh sh' : Shell}
  {Q Q' : α → Shell → Prop} {R : β → Shell → Prop}

/-- **What an action ensures** if the command does not end with another exit code than zero: it goes
on, with a result and a shell that `Q` holds of. -/
def Ensures (a : Action α) (sh : Shell) (Q : α → Shell → Prop) : Prop :=
  match a.run.run sh with
  | (.ok x, sh') => Q x sh'
  | (.error e, _) => e ≠ .exit 0

theorem Ensures.mono (h : a.Ensures sh Q) (himp : ∀ x sh', Q x sh' → Q' x sh') :
    a.Ensures sh Q' := by
  unfold Ensures at h ⊢
  split at h
  · exact himp _ _ h
  · exact h

/-! ### Steps -/

theorem ensures_pure (h : Q x sh) : (pure x : Action α).Ensures sh Q := h

/-- One action behind another. -/
theorem Ensures.bind (h : a.Ensures sh Q) (hf : ∀ x sh', Q x sh' → (f x).Ensures sh' R) :
    (a >>= f).Ensures sh R := by
  have hrun : (a >>= f).run.run sh =
      match a.run.run sh with
      | (.ok x, sh') => (f x).run.run sh'
      | (.error e, sh') => (.error e, sh') := by
    change (ExceptT.bindCont f (a.run.run sh).1).run (a.run.run sh).2 = _
    rcases a.run.run sh with ⟨_ | _, _⟩ <;> rfl
  unfold Ensures at h ⊢
  rw [hrun]
  split at h
  · exact hf _ _ h
  · exact h

theorem Ensures.bind_get {f : Shell → Action β} (h : (f sh).Ensures sh R) :
    ((get : Action Shell) >>= f).Ensures sh R := h

theorem ensures_update {Q : Unit → Shell → Prop} {g : Shell → Shell} (h : Q () (g sh)) :
    (update g).Ensures sh Q := h

theorem ensures_fail (e : Failure) : (fail e : Action α).Ensures sh Q :=
  fun h : Stop.failed e = Stop.exit 0 => nomatch h

theorem ensures_quit {code : Nat} (h : code ≠ 0) : (quit code : Action α).Ensures sh Q :=
  fun heq : Stop.exit code = Stop.exit 0 => h (Stop.exit.inj heq)

theorem ensures_reject (what : Text) (cause : Option Text) :
    (reject what cause : Action α).Ensures sh Q := by
  unfold reject
  have hcomplain (t : Text) (sh : Shell) : (complain t).Ensures sh fun _ _ => True :=
    ensures_update trivial
  refine (hcomplain _ sh).bind fun _ _ _ => ?_
  cases cause with
  | none => exact ensures_quit Nat.one_ne_zero
  | some c => exact (hcomplain _ _).bind fun _ _ _ => ensures_quit Nat.one_ne_zero

theorem ensures_tell (ns : List Notice) (sh : Shell) :
    (tell ns).Ensures sh fun _ sh' => sh'.world = sh.world := ensures_update rfl

theorem ensures_putLine (t : Text) (sh : Shell) :
    (putLine t).Ensures sh fun _ sh' => sh'.world = sh.world := ensures_update rfl

/-- Something may be told before an action. -/
theorem ensures_putLine_before {o : Option Path} {line : Path → Text} :
    (∀ sh', sh'.world = sh.world → a.Ensures sh' Q) →
      Ensures
        (match o with
          | none => a
          | some y => do
            putLine (line y)
            a) sh Q := by
  intro h
  cases o with
  | none => exact h sh rfl
  | some y => exact (ensures_putLine _ sh).bind fun _ sh' => h sh'

/-! ### Common beginnings -/

theorem ensures_settings (overrides : Settings.Entries) (sh : Shell) :
    (settings overrides).Ensures sh fun s sh' =>
      Settings.load sh.world sh.environment overrides = .ok s ∧ sh'.world = sh.world := by
  unfold settings
  apply Ensures.bind_get
  split
  · next s hload =>
    exact (ensures_update (Q := fun _ sh' => sh'.world = _) rfl).bind fun _ _ hworld =>
      ensures_pure ⟨hload, hworld⟩
  · split
    · exact ensures_reject _ _
    · exact ensures_fail _

private theorem ensures_rejectDocument (path : Text) (e : DocumentError) :
    (rejectDocument path e : Action α).Ensures sh Q := by
  unfold rejectDocument
  split
  · exact ensures_reject _ _
  · exact ensures_fail _

theorem ensures_openDocument (path : Text) (s : Settings) (sh : Shell) :
    (openDocument path s).Ensures sh fun x sh' =>
      sh.world.openDocument (.ofText path) s.dialect = .ok x.1 ∧
        (∃ notices, x.1.blocks = .ok ⟨x.2, notices⟩) ∧ sh'.world = sh.world := by
  unfold openDocument
  apply Ensures.bind_get
  split
  · exact ensures_reject _ _
  · exact ensures_rejectDocument _ _
  · next d hopen =>
    split
    · exact ensures_rejectDocument _ _
    · next blocks hblocks =>
      exact (ensures_tell _ _).bind fun _ _ hworld =>
        ensures_pure ⟨hopen, ⟨blocks.notices, hblocks⟩, hworld⟩

theorem ensures_selectBlock (blocks : List Block) (key : Text) (sh : Shell) :
    (selectBlock blocks key).Ensures sh fun b sh' =>
      (∃ i, (select blocks key).value = .ok i ∧ blocks[i]? = some b) ∧ sh'.world = sh.world := by
  unfold selectBlock
  refine (ensures_tell _ _).bind fun _ _ hworld => ?_
  split
  · exact ensures_reject _ _
  · exact ensures_fail _
  · next i hselect =>
    split
    · next b hb => exact ensures_pure ⟨⟨i, hselect, hb⟩, hworld⟩
    · exact ensures_reject _ _

/-! ### Operations of a session -/

/-- The files are those that the operation leaves. -/
theorem ensures_sessionResult (r : Session.Result α) (sh : Shell) :
    (sessionResult r).Ensures sh fun o sh' => o = r.outcome ∧ sh'.world = r.workspace.world := by
  unfold sessionResult
  refine (ensures_update (Q := fun _ sh' => sh'.world = r.workspace.world) rfl).bind ?_
  rintro _ sh' hworld
  exact (ensures_tell _ sh').bind fun _ _ htold => ensures_pure ⟨rfl, htold.trans hworld⟩

theorem ensures_expectResult (r : Session.Result α) (sh : Shell) :
    (expectResult r).Ensures sh fun x sh' =>
      r.outcome = .ok x ∧ sh'.world = r.workspace.world := by
  unfold expectResult
  refine (ensures_sessionResult r sh).bind ?_
  rintro _ sh' ⟨rfl, hworld⟩
  split
  · next x houtcome => exact ensures_pure ⟨houtcome, hworld⟩
  · exact ensures_fail _

end LiterateEdit.Action
