import LiterateEdit.Proofs.Context.Attempt
import LiterateEdit.Proofs.Context.Layout
import LiterateEdit.Proofs.Script.Run

/-!
# What the steps of a script do to a buffer

Every step of a script that is no group either leads to the buffer behind it by a row of changes, or
it leads somewhere and is taken back (`Buffer.Becomes`, `Desk.take_becomes`).

A desk is reachable if it is the state of some record of some script on a fresh desk, the records
in the middle of a group included. In every reachable desk the view is a stretch of the text
(`Desk.Reachable.viewInText`).
-/

namespace LiterateEdit

namespace Buffer

variable {b b' c : Buffer} {n : Nat}

/-! ### Done or undone -/

/-- What an operation makes of a buffer: it leads there, or it is taken back. -/
inductive Becomes (b : Buffer) : Buffer → Prop
  | done {b' : Buffer} (h : Leads b.markers.length b b') : Becomes b b'
  | undone {b' : Buffer} (h : Leads b.markers.length b b') : Becomes b (b.restoredAfter b')

theorem Becomes.refl (b : Buffer) : b.Becomes b := .done .refl

theorem Becomes.viewInText (h : b.Becomes b') (hv : b.ViewInText) : b'.ViewInText := by
  cases h with
  | done h => exact h.viewInText hv
  | undone _ => exact hv.restoredAfter _

theorem Becomes.tracks (h : b.Becomes b') : b.Tracks b' := by
  cases h with
  | done h => exact h.tracks_self
  | undone h => exact (Tracks.refl b).restoredAfter h.tracks_self

end Buffer

/-! ### Splicing and unsplicing -/

namespace Engine

open Buffer

theorem splice_becomes (e : Engine) (b : Buffer) (p : Option Partition) (narrow : Bool)
    (fault : Option Nat) : b.Becomes (e.splice b p narrow fault).buffer := by
  rcases e.splice_cases b p narrow fault with
    ⟨notices, h⟩ | ⟨q, err, c, hrun, h⟩ | ⟨q, m, c, notices, hrun, h⟩
  · rw [h]
    exact .refl b
  · rw [h]
    exact .undone (leads_unlocked (fun c => leads_spliceText q narrow c) hrun)
  · rw [h]
    exact .done (leads_unlocked (fun c => leads_spliceText q narrow c) hrun)

theorem unsplice_becomes (e : Engine) (b : Buffer) (fault : Option Nat) :
    b.Becomes (e.unsplice b fault).buffer := by
  rcases e.unsplice_cases b fault with
    ⟨-, h⟩ | ⟨start, stop, -, ⟨notices, -, h⟩ | ⟨err, c, hrun, h⟩ | ⟨c, notices, hrun, h⟩⟩
  · rw [h]
    exact .refl b
  · -- the markers are given up, and nothing else happens
    rw [h]
    exact .done ((Relation.ReflTransGen.single (.detach b start)).tail (.detach _ stop))
  · rw [h]
    exact .undone (leads_unlocked (fun c => leads_unspliceText start stop c) hrun)
  · rw [h]
    have hleads := leads_unlocked (fun c => leads_unspliceText start stop c) hrun
    exact .done ((hleads.tail (.detach _ start)).tail (.detach _ stop))

end Engine

/-! ### Steps -/

/-- Is the step an operation that splicing and unsplicing are made of, or none that changes the
buffer? -/
def Step.isBasic : Step → Bool
  | .deleteMarker _ => false
  | .addSpan _ _ _ => false
  | .splice _ _ _ => false
  | .unsplice _ => false
  | _ => true

namespace Desk

open Buffer

variable {d : Desk} {s : Step} {I : Buffer → Prop}

/-- A step that changes the buffer if it succeeds keeps what its success keeps. -/
theorem edited_keeps {r : Except EditError (Buffer × StepResult)} (hd : I d.buffer)
    (h : ∀ b v, r = .ok (b, v) → I b) : I (d.edited r).desk.buffer := by
  rcases d.edited_cases r with ⟨e, he⟩ | ⟨b, v, hv, he⟩
  · rw [he]
    exact hd
  · rw [he]
    exact h b v hv

/-- What attempts keep is kept by the steps that they are made of. -/
theorem take_keeps {n : Nat} (h : Engine.Closed n I) (hs : s.isBasic = true) (hd : I d.buffer) :
    I (d.take s).desk.buffer := by
  cases s with
  | insert p t props =>
    refine edited_keeps hd fun b v hr => ?_
    obtain ⟨p', -, hr⟩ := bind_eq_ok.1 hr
    obtain ⟨r, hins, hr⟩ := bind_eq_ok.1 hr
    cases hr
    exact h.insert hins hd
  | delete p q =>
    refine edited_keeps hd fun b v hr => ?_
    obtain ⟨p', -, hr⟩ := bind_eq_ok.1 hr
    obtain ⟨q', -, hr⟩ := bind_eq_ok.1 hr
    obtain ⟨r, hdel, hr⟩ := bind_eq_ok.1 hr
    cases hr
    exact h.delete hdel hd
  | replaceRegion p q t =>
    refine edited_keeps hd fun b v hr => ?_
    obtain ⟨p', -, hr⟩ := bind_eq_ok.1 hr
    obtain ⟨q', -, hr⟩ := bind_eq_ok.1 hr
    obtain ⟨b', hrep, hr⟩ := bind_eq_ok.1 hr
    cases hr
    exact h.replaceRegion hrep hd
  | goto p =>
    refine edited_keeps hd fun b v hr => ?_
    obtain ⟨p', -, hr⟩ := bind_eq_ok.1 hr
    obtain ⟨b', hgoto, hr⟩ := bind_eq_ok.1 hr
    cases hr
    exact h.goto hgoto hd
  | makeMarker p advances =>
    simp only [take]
    split
    · exact hd
    · next b m hmake =>
      obtain ⟨p', -, hmake⟩ := bind_eq_ok.1 hmake
      exact h.makeMarker hmake hd
  | narrow p q =>
    simp only [take]
    split
    · exact hd
    · next p' q' _ => exact h.narrow p' q' hd
  | widen => exact h.widen hd
  | deleteMarker m => cases hs
  | addSpan p q props => cases hs
  | splice p narrow fault => cases hs
  | unsplice fault => cases hs
  | _ => exact hd -- a question or a group: nothing changes here

/-- **Every step that is no group** leads to the buffer behind it or is undone. -/
theorem take_becomes (d : Desk) (s : Step) : d.buffer.Becomes (d.take s).desk.buffer := by
  have hbasic : s.isBasic = true → d.buffer.Becomes (d.take s).desk.buffer := fun hs =>
    .done (take_keeps (Engine.closed_leads _ d.buffer) hs .refl)
  cases s with
  | deleteMarker r =>
    refine edited_keeps (.refl _) fun b v h => ?_
    split at h
    · cases h
    · next m _ =>
      cases h
      exact .done (.single (.detach _ m))
  | addSpan p q props =>
    refine edited_keeps (.refl _) fun b v h => ?_
    obtain ⟨p', -, h⟩ := bind_eq_ok.1 h
    obtain ⟨q', -, h⟩ := bind_eq_ok.1 h
    obtain ⟨r, hspan, h⟩ := bind_eq_ok.1 h
    cases h
    exact .done (leads_addSpan hspan)
  | splice p narrow fault => exact d.engine.splice_becomes d.buffer p narrow fault
  | unsplice fault => exact d.engine.unsplice_becomes d.buffer fault
  | _ => exact hbasic rfl

/-! ### Reachable desks -/

/-- A desk with a text that may stand for a file. -/
def freshFor (file : Option Path) (t : Text) : Desk :=
  { fresh t with buffer := { Buffer.ofText t with file := file } }

/-- The desk is the state of a record of some script on a fresh desk. -/
def Reachable (d : Desk) : Prop :=
  ∃ (file : Option Path) (t : Text) (stops : Bool) (steps : List Step),
    ∃ r ∈ ((freshFor file t).runAll stops steps).2.1, r.desk = d

/-- The record of a step itself is one of those that it leaves. -/
theorem exists_record_run (d : Desk) (s : Step) :
    ∃ r ∈ (d.run s).2, r.desk = (d.run s).1 := by
  cases s with
  | unlocked steps stops =>
    rw [run_unlocked]
    exact ⟨_, List.mem_append_right _ (List.mem_singleton.2 rfl), rfl⟩
  | atomic steps stops fails =>
    rcases d.atomic_cases steps stops fails with ⟨hnone, hfails⟩ | hleft
    · rw [run_atomic_of_ok hnone hfails]
      exact ⟨_, List.mem_append_right _ (List.mem_singleton.2 rfl), rfl⟩
    · rw [run_atomic_of_failed hleft]
      exact ⟨_, List.mem_append_right _ (List.mem_singleton.2 rfl), rfl⟩
  | _ => exact ⟨_, List.mem_singleton.2 rfl, rfl⟩

/-- So is the record of the last step that runs, whether the script was stopped there or not. -/
theorem exists_record_runAll (d : Desk) (stops : Bool) (s : Step) (rest : List Step) :
    ∃ r ∈ (d.runAll stops (s :: rest)).2.1, r.desk = (d.runAll stops (s :: rest)).1 := by
  induction rest generalizing d s with
  | nil =>
    obtain ⟨r, hr, hdesk⟩ := exists_record_run d s
    rcases d.cons_cases s stops with hgoes | ⟨e, hstops, hfail⟩
    · rw [runAll_cons_of_ok hgoes]
      exact ⟨r, List.mem_append_left _ hr, hdesk⟩
    · rw [runAll_cons_of_failed hstops hfail]
      exact ⟨r, hr, hdesk⟩
  | cons s' rest ih =>
    rcases d.cons_cases s stops with hgoes | ⟨e, hstops, hfail⟩
    · obtain ⟨r, hr, hdesk⟩ := ih (d.run s).1 s'
      rw [runAll_cons_of_ok hgoes]
      exact ⟨r, List.mem_append_right _ hr, hdesk⟩
    · obtain ⟨r, hr, hdesk⟩ := exists_record_run d s
      rw [runAll_cons_of_failed hstops hfail]
      exact ⟨r, hr, hdesk⟩

/-- What a script ends with is reachable. -/
theorem reachable_runAll (t : Text) (stops : Bool) (s : Step) (rest : List Step) :
    ((fresh t).runAll stops (s :: rest)).1.Reachable :=
  ⟨none, t, stops, s :: rest, exists_record_runAll (fresh t) stops s rest⟩

/-- **What every script preserves** holds of a reachable desk if it holds of the fresh ones. -/
theorem Reachable.of_preserves {I : Desk → Prop} (hd : d.Reachable)
    (h : Preserves I fun _ => True) (hstart : ∀ file t, I (freshFor file t)) : I d := by
  obtain ⟨file, t, stops, steps, r, hr, rfl⟩ := hd
  exact (h.run_and_runAll.2 _ stops steps (fun _ _ => trivial) (hstart file t)).2 r hr

/-- That the view is a stretch of the text holds all along a script. -/
theorem preserves_viewInText :
    Preserves (fun d => d.buffer.ViewInText) fun _ => True where
  take d s _ h := (d.take_becomes s).viewInText h
  unlocked _ _ _ := ⟨fun _ _ => trivial, fun _ _ h => h.congr rfl rfl⟩
  atomic _ _ _ _ := ⟨fun _ _ => trivial, fun _ _ h _ => h.restoredAfter _⟩

/-- **In a reachable desk the view is a stretch of the text.** -/
theorem Reachable.viewInText (h : d.Reachable) : d.buffer.ViewInText :=
  h.of_preserves preserves_viewInText fun _ _ => viewInText_of_none rfl

end Desk

end LiterateEdit
