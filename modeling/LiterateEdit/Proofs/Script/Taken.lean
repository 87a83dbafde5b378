import LiterateEdit.Proofs.Script.Rollback

/-!
# The steps that a script takes

Which steps of a script are taken, and on which desk, shows only while it runs: a group that is told
to stop leaves out what comes behind a failure, and what a step does goes by the desk that the steps
before it have left. `Desk.taken` lists the steps that are taken, each with its desk, and tells of
each whether it is undone later because a group around it is taken back.

Laws that hold of a run if all its steps keep to something are about this list. `Desk.Upholds` says
what a property of desks has to be closed under for that, and `Upholds.run_and_runAll` concludes
that it holds in every state. The steps that are undone may have to keep to more than the others,
because taking a group back sets back the buffer and not everything else: the law may ask of them
that they do not touch what is not set back.
-/

namespace LiterateEdit

/-- A step that is taken in a run. -/
structure Taken where
  /-- The desk that the step is taken on. -/
  desk : Desk
  /-- The step, which is no group. -/
  step : Step
  /-- Is a group around the step taken back? -/
  undone : Bool

/-- The step as one of a group that may be taken back. -/
def Taken.within (back : Bool) (t : Taken) : Taken := { t with undone := t.undone || back }

namespace Desk

/-! ### The list of them -/

mutual

/-- The steps that are taken when a step is run: itself, or those in the group. -/
def taken (d : Desk) : Step → List Taken
  | .unlocked steps stops => takenAll (d.setUnlocked true) stops steps
  | .atomic steps stops fails =>
    (takenAll d stops steps).map (Taken.within (fails || (d.runAll stops steps).2.2.isSome))
  | s => [⟨d, s, false⟩]

/-- The steps that are taken when steps are run one after another. -/
def takenAll (d : Desk) (stops : Bool) : List Step → List Taken
  | [] => []
  | s :: rest =>
    taken d s ++
      if stops && (failure? (d.run s).2).isSome then [] else takenAll (d.run s).1 stops rest

end

variable {α : Type} {d : Desk} {s : Step} {I : Desk → Prop} {C Q : Desk → Step → Prop}
  {f : Desk → α}

theorem taken_of_take (hs : s.isGroup = false) : d.taken s = [⟨d, s, false⟩] := by
  cases s with
  | unlocked steps stops => cases hs
  | atomic steps stops fails => cases hs
  | _ => rfl

/-- Behind a failure that stops the script no step is taken. -/
theorem takenAll_cons_of_failed {stops : Bool} {rest : List Step} {e : EditError}
    (hstops : stops = true) (h : failure? (d.run s).2 = some e) :
    d.takenAll stops (s :: rest) = d.taken s := by
  rw [takenAll, h, hstops]
  exact List.append_nil _

theorem takenAll_cons_of_ok {stops : Bool} {rest : List Step}
    (h : stops = true → failure? (d.run s).2 = none) :
    d.takenAll stops (s :: rest) = d.taken s ++ (d.run s).1.takenAll stops rest := by
  rw [takenAll]
  cases stops with
  | false => rfl
  | true =>
    rw [h rfl]
    rfl

/-! ### Runs whose steps keep to something -/

/-- All steps of a run keep to `C`, and those that are undone keep to `Q` as well. -/
def KeepTo (C Q : Desk → Step → Prop) (ts : List Taken) : Prop :=
  ∀ t ∈ ts, C t.desk t.step ∧ (t.undone = true → Q t.desk t.step)

theorem keepTo_append {ts ts' : List Taken} :
    KeepTo C Q (ts ++ ts') ↔ KeepTo C Q ts ∧ KeepTo C Q ts' := List.forall_mem_append

/-- What a property `I` of desks has to be closed under to hold all along a run whose steps keep to
`C`. What `f` shows of a desk is not set back when a group is taken back; a step that keeps to `Q`
leaves it alone. -/
structure Upholds (I : Desk → Prop) (C Q : Desk → Step → Prop) (f : Desk → α) : Prop where
  take : ∀ d s, C d s → I d → I (d.take s).desk
  quiet : ∀ d s, C d s → Q d s → I d → f (d.take s).desk = f d
  /-- The protection does not matter. -/
  unlocked : ∀ d on, I d → I (d.setUnlocked on)
  unlocked_shows : ∀ d on, f (d.setUnlocked on) = f d
  /-- A group that has left what `f` shows may be taken back. -/
  back : ∀ d d' : Desk, I d → d.Knows d' → f d' = f d → I (d.restoredAfter d')
  back_shows : ∀ d d' : Desk, f (d.restoredAfter d') = f d'

/-- **The run lemma** for steps that keep to something: the property holds in every state, and a run
of steps that all keep to `Q` leaves what `f` shows. -/
theorem Upholds.run_and_runAll (h : Upholds I C Q f) :
    (∀ d s, KeepTo C Q (d.taken s) → I d → Through I (d.run s).1 (d.run s).2 ∧
        ((∀ t ∈ d.taken s, Q t.desk t.step) → f (d.run s).1 = f d)) ∧
      ∀ d stops steps, KeepTo C Q (d.takenAll stops steps) → I d →
        Through I (d.runAll stops steps).1 (d.runAll stops steps).2.1 ∧
          ((∀ t ∈ d.takenAll stops steps, Q t.desk t.step) →
            f (d.runAll stops steps).1 = f d) := by
  refine And.imp (fun hrun d s => hrun s d) (fun hall d stops steps => hall steps d stops)
    (Step.induction
      (P := fun s => ∀ d, KeepTo C Q (d.taken s) → I d → Through I (d.run s).1 (d.run s).2 ∧
        ((∀ t ∈ d.taken s, Q t.desk t.step) → f (d.run s).1 = f d))
      (Q := fun steps => ∀ d stops, KeepTo C Q (d.takenAll stops steps) → I d →
        Through I (d.runAll stops steps).1 (d.runAll stops steps).2.1 ∧
          ((∀ t ∈ d.takenAll stops steps, Q t.desk t.step) →
            f (d.runAll stops steps).1 = f d))
      ?plain ?unlocked ?atomic ?nil ?cons)
  case plain =>
    intro s hs d hts hd
    rw [taken_of_take hs] at hts ⊢
    rw [run_of_take hs]
    obtain ⟨hC, -⟩ := hts _ (List.mem_singleton.2 rfl)
    have hend := h.take d s hC hd
    refine ⟨⟨hend, fun r hr => ?_⟩, fun hQ => ?_⟩
    · rw [List.mem_singleton.1 hr]
      exact hend
    · exact h.quiet d s hC (hQ _ (List.mem_singleton.2 rfl)) hd
  case unlocked =>
    intro steps stops ih d hts hd
    rw [taken] at hts ⊢
    obtain ⟨hin, hshows⟩ := ih (d.setUnlocked true) stops hts (h.unlocked d true hd)
    rw [run_unlocked]
    refine ⟨hin.close (h.unlocked _ _ hin.1) rfl, fun hQ => ?_⟩
    calc f (((d.setUnlocked true).runAll stops steps).1.setUnlocked d.buffer.unlocked)
        = f ((d.setUnlocked true).runAll stops steps).1 := h.unlocked_shows _ _
      _ = f (d.setUnlocked true) := hshows hQ
      _ = f d := h.unlocked_shows d true
  case atomic =>
    intro steps stops fails ih d hts hd
    rw [taken] at hts ⊢
    -- the steps in the group keep to what they have to keep to as steps of the run
    have hin : KeepTo C Q (d.takenAll stops steps) := by
      intro t ht
      obtain ⟨hC, hQ⟩ := hts _ (List.mem_map_of_mem ht)
      refine ⟨hC, fun hundone => hQ ?_⟩
      change (t.undone || _) = true
      rw [hundone, Bool.true_or]
    obtain ⟨hall, hshows⟩ := ih d stops hin hd
    rcases d.atomic_cases steps stops fails with ⟨hnone, hfails⟩ | hback
    · rw [run_atomic_of_ok hnone hfails]
      exact ⟨hall.close hall.1 rfl, fun hQ =>
        hshows fun t ht => hQ (t.within _) (List.mem_map_of_mem ht)⟩
    · -- all of them are undone, and so they have left what is not set back
      have hundone : (fails || (d.runAll stops steps).2.2.isSome) = true := by
        cases hfailed : (d.runAll stops steps).2.2 with
        | none => rw [hback hfailed, Bool.true_or]
        | some e => rw [Option.isSome_some, Bool.or_true]
      have hquiet : f (d.runAll stops steps).1 = f d := by
        refine hshows fun t ht => (hts _ (List.mem_map_of_mem ht)).2 ?_
        change (t.undone || _) = true
        rw [hundone, Bool.or_true]
      have hknows : d.Knows (d.runAll stops steps).1 :=
        connects_knows.run_and_runAll.2 d stops steps
      rw [run_atomic_of_failed hback]
      exact ⟨hall.close (h.back d _ hd hknows hquiet) rfl,
        fun _ => (h.back_shows d _).trans hquiet⟩
  case nil =>
    intro d stops _ hd
    exact ⟨⟨hd, fun r hr => absurd hr List.not_mem_nil⟩, fun _ => rfl⟩
  case cons =>
    intro s rest ih ih' d stops hts hd
    rcases d.cons_cases s stops with hgoes | ⟨e, hstops, hfail⟩
    · rw [takenAll_cons_of_ok hgoes] at hts ⊢
      rw [runAll_cons_of_ok hgoes]
      obtain ⟨hfirst, hmore⟩ := keepTo_append.1 hts
      obtain ⟨hin, hshows⟩ := ih d hfirst hd
      obtain ⟨hin', hshows'⟩ := ih' (d.run s).1 stops hmore hin.1
      refine ⟨hin.append hin', fun hQ => ?_⟩
      obtain ⟨hQ₁, hQ₂⟩ := List.forall_mem_append.1 hQ
      exact (hshows' hQ₂).trans (hshows hQ₁)
    · rw [takenAll_cons_of_failed hstops hfail] at hts ⊢
      rw [runAll_cons_of_failed hstops hfail]
      exact ih d hts hd

end Desk

end LiterateEdit
