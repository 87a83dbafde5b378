import LiterateEdit.Script
import LiterateEdit.Proofs.Buffer.Accepted

/-!
# Runs of a script

A script is a tree of steps: groups of steps run with protection lifted or all together or not at
all, and the steps in a group may be groups. This file packages the two inductions that laws about
scripts need, both on top of `Step.induction`.

* `Desk.Preserves` collects what a property of desks has to be closed under: the steps that are no
  group, the switch of the protection around a group, and the restoring after a group that fails.
  `Desk.Preserves.run_and_runAll` concludes that the property holds in **every** recorded state of a
  run, the ones in the middle of a group included.
* `Desk.Connects` does the same for a relation between the start of a run and its end.
* `Desk.take_edit` inverts the step of an edit: it is refused and leaves the desk as it was, or it
  is accepted (`Desk.Accepts`) and is one `Buffer.put`, possibly with a new span.
-/

namespace LiterateEdit

/-! ### Scripts -/

/-- Is the step a group of steps? -/
def Step.isGroup : Step → Bool
  | .unlocked _ _ => true
  | .atomic _ _ _ => true
  | _ => false

/-- **Induction over a script**: over the steps of a list and, for a group, over the steps in it. -/
theorem Step.induction {P : Step → Prop} {Q : List Step → Prop}
    (plain : ∀ s, s.isGroup = false → P s)
    (unlocked : ∀ steps stops, Q steps → P (.unlocked steps stops))
    (atomic : ∀ steps stops fails, Q steps → P (.atomic steps stops fails)) (nil : Q [])
    (cons : ∀ s rest, P s → Q rest → Q (s :: rest)) :
    (∀ s, P s) ∧ ∀ steps, Q steps := by
  have hstep : ∀ s, P s := by
    intro s
    induction s using Step.rec (motive_2 := Q) with
    | unlocked steps stops ih => exact unlocked steps stops ih
    | atomic steps stops fails ih => exact atomic steps stops fails ih
    | nil => exact nil
    | cons s rest ih ih' => exact cons s rest ih ih'
    | _ => exact plain _ rfl
  refine ⟨hstep, fun steps => ?_⟩
  induction steps with
  | nil => exact nil
  | cons s rest ih => exact cons s rest (hstep s) ih

namespace Desk

variable {d : Desk} {s : Step} {I : Desk → Prop} {P : Step → Prop}

/-! ### Groups -/

/-- The desk with the protection switched off or on. -/
def setUnlocked (d : Desk) (on : Bool) : Desk :=
  { d with buffer := { d.buffer with unlocked := on } }

/-- The desk behind a group that started at `d`, led to `d'` and failed. -/
def restoredAfter (d d' : Desk) : Desk := { d' with buffer := d.buffer.restoredAfter d'.buffer }

/-- A step that is no group is taken. -/
theorem run_of_take (hs : s.isGroup = false) : d.run s = ((d.take s).desk, [d.take s]) := by
  cases s with
  | unlocked steps stops => cases hs
  | atomic steps stops fails => cases hs
  | _ => rfl

/-- A group with the protection lifted, which is set back behind it. -/
theorem run_unlocked (d : Desk) (steps : List Step) (stops : Bool) :
    d.run (.unlocked steps stops)
      = (((d.setUnlocked true).runAll stops steps).1.setUnlocked d.buffer.unlocked,
          ((d.setUnlocked true).runAll stops steps).2.1 ++
            [⟨match ((d.setUnlocked true).runAll stops steps).2.2 with
                | none => .ok .nothing
                | some e => .error e,
              ((d.setUnlocked true).runAll stops steps).1.setUnlocked d.buffer.unlocked, []⟩]) := by
  rw [Desk.run]
  rfl

/-- A group that succeeds. -/
theorem run_atomic_of_ok {steps : List Step} {stops fails : Bool}
    (h : (d.runAll stops steps).2.2 = none) (hfails : fails = false) :
    d.run (.atomic steps stops fails)
      = ((d.runAll stops steps).1,
          (d.runAll stops steps).2.1 ++ [⟨.ok .nothing, (d.runAll stops steps).1, []⟩]) := by
  rw [Desk.run]
  rcases hrun : d.runAll stops steps with ⟨d', records, failed⟩
  rw [hrun] at h
  obtain rfl : failed = none := h
  rw [hfails]

/-- A group that is taken back fails with the failure of its steps, or breaks off by itself. -/
theorem run_atomic_of_failed {steps : List Step} {stops fails : Bool}
    (h : (d.runAll stops steps).2.2 = none → fails = true) :
    d.run (.atomic steps stops fails)
      = (d.restoredAfter (d.runAll stops steps).1,
          (d.runAll stops steps).2.1 ++
            [⟨.error ((d.runAll stops steps).2.2.getD .interrupted),
              d.restoredAfter (d.runAll stops steps).1, []⟩]) := by
  rw [Desk.run]
  rcases hrun : d.runAll stops steps with ⟨d', records, failed⟩
  rw [hrun] at h
  cases failed with
  | some e => rfl
  | none =>
    rw [h rfl]
    rfl

/-- A group is taken back if a step of it stopped it or it breaks off by itself. -/
theorem atomic_cases (d : Desk) (steps : List Step) (stops fails : Bool) :
    ((d.runAll stops steps).2.2 = none ∧ fails = false) ∨
      ((d.runAll stops steps).2.2 = none → fails = true) := by
  by_cases h : (d.runAll stops steps).2.2 = none → fails = true
  · exact .inr h
  · obtain ⟨hnone, hgoes⟩ := Classical.not_imp.1 h
    exact .inl ⟨hnone, eq_false_of_ne_true hgoes⟩

/-- A script that is told to stop ends with the failure of a step. -/
theorem runAll_cons_of_failed {stops : Bool} {rest : List Step} {e : EditError}
    (hstops : stops = true) (h : failure? (d.run s).2 = some e) :
    d.runAll stops (s :: rest) = ((d.run s).1, (d.run s).2, some e) := by
  rw [runAll]
  simp only [hstops, h]

/-- Otherwise the script goes on behind the step. -/
theorem runAll_cons_of_ok {stops : Bool} {rest : List Step}
    (h : stops = true → failure? (d.run s).2 = none) :
    d.runAll stops (s :: rest)
      = (((d.run s).1.runAll stops rest).1,
          (d.run s).2 ++ ((d.run s).1.runAll stops rest).2.1,
          ((d.run s).1.runAll stops rest).2.2) := by
  rw [runAll]
  cases stops with
  | false => rfl
  | true => simp only [h rfl]

theorem cons_cases (d : Desk) (s : Step) (stops : Bool) :
    (stops = true → failure? (d.run s).2 = none) ∨
      ∃ e, stops = true ∧ failure? (d.run s).2 = some e := by
  cases hfail : failure? (d.run s).2 with
  | none => exact .inl fun _ => rfl
  | some e =>
    cases stops with
    | false => exact .inl nofun
    | true => exact .inr ⟨e, rfl, rfl⟩

/-! ### Invariants of a run -/

/-- What a property `I` of desks has to be closed under to hold all along a script with steps
from `P`. -/
structure Preserves (I : Desk → Prop) (P : Step → Prop) : Prop where
  /-- A step that is no group keeps it. -/
  take : ∀ d s, P s → I d → I (d.take s).desk
  /-- The protection does not matter to it if `P` has groups that lift the protection. -/
  unlocked : ∀ steps stops, P (.unlocked steps stops) →
    (∀ s ∈ steps, P s) ∧ ∀ d on, I d → I (d.setUnlocked on)
  /-- Restoring keeps it if `P` has groups that are taken back. -/
  atomic : ∀ steps stops fails, P (.atomic steps stops fails) →
    (∀ s ∈ steps, P s) ∧ ∀ d d', I d → I d' → I (d.restoredAfter d')

/-- The states of the records, and the last one, all have a property. -/
def Through (I : Desk → Prop) (last : Desk) (records : List StepRecord) : Prop :=
  I last ∧ ∀ r ∈ records, I r.desk

theorem Through.append {last last' : Desk} {records more : List StepRecord}
    (h : Through I last records) (h' : Through I last' more) :
    Through I last' (records ++ more) := by
  refine ⟨h'.1, fun r hr => ?_⟩
  rcases List.mem_append.1 hr with hr | hr
  · exact h.2 r hr
  · exact h'.2 r hr

theorem Through.close {last last' : Desk} {records : List StepRecord} {r : StepRecord}
    (h : Through I last records) (hI : I last') (hr : r.desk = last') :
    Through I last' (records ++ [r]) := by
  refine h.append ⟨hI, fun r' hr' => ?_⟩
  rw [List.mem_singleton.1 hr', hr]
  exact hI

/-- **The run lemma.** A property that is preserved holds in every state of a run. -/
theorem Preserves.run_and_runAll (h : Preserves I P) :
    (∀ d s, P s → I d → Through I (d.run s).1 (d.run s).2) ∧
      ∀ d stops steps, (∀ s ∈ steps, P s) → I d →
        Through I (d.runAll stops steps).1 (d.runAll stops steps).2.1 := by
  refine And.imp (fun hrun d s => hrun s d) (fun hall d stops steps => hall steps d stops)
    (Step.induction (P := fun s => ∀ d, P s → I d → Through I (d.run s).1 (d.run s).2)
      (Q := fun steps => ∀ d stops, (∀ s ∈ steps, P s) → I d →
        Through I (d.runAll stops steps).1 (d.runAll stops steps).2.1)
      ?plain ?unlocked ?atomic ?nil ?cons)
  case plain =>
    intro s hs d hP hd
    rw [run_of_take hs]
    refine ⟨h.take d s hP hd, fun r hr => ?_⟩
    rw [List.mem_singleton.1 hr]
    exact h.take d s hP hd
  case unlocked =>
    intro steps stops ih d hP hd
    obtain ⟨hsteps, hon⟩ := h.unlocked steps stops hP
    have hin := ih (d.setUnlocked true) stops hsteps (hon d true hd)
    rw [run_unlocked]
    exact hin.close (hon _ _ hin.1) rfl
  case atomic =>
    intro steps stops fails ih d hP hd
    obtain ⟨hsteps, hback⟩ := h.atomic steps stops fails hP
    have hin := ih d stops hsteps hd
    -- a group is left as it was run, or taken back
    rcases d.atomic_cases steps stops fails with ⟨hnone, hfails⟩ | hleft
    · rw [run_atomic_of_ok hnone hfails]
      exact hin.close hin.1 rfl
    · rw [run_atomic_of_failed hleft]
      exact hin.close (hback d _ hd hin.1) rfl
  case nil =>
    intro d stops _ hd
    exact ⟨hd, fun r hr => absurd hr List.not_mem_nil⟩
  case cons =>
    intro s rest ih ih' d stops hP hd
    have hin := ih d (hP s List.mem_cons_self) hd
    have hmore := ih' (d.run s).1 stops (fun s' hs' => hP s' (List.mem_cons_of_mem s hs')) hin.1
    rcases d.cons_cases s stops with hgoes | ⟨e, hstops, hfail⟩
    · rw [runAll_cons_of_ok hgoes]
      exact hin.append hmore
    · rw [runAll_cons_of_failed hstops hfail]
      exact hin

/-! ### From the start of a run to its end -/

/-- What a relation `R` between desks has to be closed under to hold between the start of a script
and its end, whatever the script is. -/
structure Connects (R : Desk → Desk → Prop) : Prop where
  refl : ∀ d, R d d
  trans : ∀ {d d' d''}, R d d' → R d' d'' → R d d''
  /-- A step that is no group. -/
  take : ∀ d s, R d (d.take s).desk
  /-- A group with the protection lifted, which is set back behind it. -/
  unlocked : ∀ {d d'}, R (d.setUnlocked true) d' → R d (d'.setUnlocked d.buffer.unlocked)
  /-- A group that fails. -/
  atomic : ∀ {d d'}, R d d' → R d (d.restoredAfter d')

/-- **A relation that connects the steps connects the ends of a run.** A property of single states
could not speak of the protection, which is lifted in the middle of a group and as it was at its
end. -/
theorem Connects.run_and_runAll {R : Desk → Desk → Prop} (h : Connects R) :
    (∀ d s, R d (d.run s).1) ∧ ∀ d stops steps, R d (d.runAll stops steps).1 := by
  refine And.imp (fun hrun d s => hrun s d) (fun hall d stops steps => hall steps d stops)
    (Step.induction (P := fun s => ∀ d, R d (d.run s).1)
      (Q := fun steps => ∀ d stops, R d (d.runAll stops steps).1)
      ?plain ?unlocked ?atomic ?nil ?cons)
  case plain =>
    intro s hs d
    rw [run_of_take hs]
    exact h.take d s
  case unlocked =>
    intro steps stops ih d
    rw [run_unlocked]
    exact h.unlocked (ih (d.setUnlocked true) stops)
  case atomic =>
    intro steps stops fails ih d
    rcases d.atomic_cases steps stops fails with ⟨hnone, hfails⟩ | hleft
    · rw [run_atomic_of_ok hnone hfails]
      exact ih d stops
    · rw [run_atomic_of_failed hleft]
      exact h.atomic (ih d stops)
  case nil =>
    intro d stops
    exact h.refl d
  case cons =>
    intro s rest ih ih' d stops
    rcases d.cons_cases s stops with hgoes | ⟨e, hstops, hfail⟩
    · rw [runAll_cons_of_ok hgoes]
      exact h.trans (ih d) (ih' (d.run s).1 stops)
    · rw [runAll_cons_of_failed hstops hfail]
      exact ih d

/-! ### Edits -/

/-- The number of characters before a position that a script names. -/
def place (d : Desk) (r : Ref) : Except EditError Int := do d.buffer.locate (← d.pos r)

end Desk

/-- The positions that an edit names. -/
def Step.refs : Step → List Ref
  | .insert p _ _ => [p]
  | .delete p q => [p, q]
  | .replaceRegion p q _ => [p, q]
  | _ => []

/-- Is the step an insertion, a deletion or a replacement? -/
def Step.isEdit : Step → Bool
  | .insert _ _ _ => true
  | .delete _ _ => true
  | .replaceRegion _ _ _ => true
  | _ => false

namespace Desk

variable {d : Desk} {s : Step}

theorem run_of_isEdit (d : Desk) (hs : s.isEdit = true) :
    d.run s = ((d.take s).desk, [d.take s]) := by
  cases s with
  | unlocked steps stops => cases hs
  | atomic steps stops fails => cases hs
  | _ => rfl

/-- An edit that succeeds is recorded and the script goes on. -/
theorem runAll_of_isEdit {v : StepResult} (stops : Bool) (rest : List Step) (hs : s.isEdit = true)
    (hv : (d.take s).outcome = .ok v) :
    d.runAll stops (s :: rest)
      = (((d.take s).desk.runAll stops rest).1,
          d.take s :: ((d.take s).desk.runAll stops rest).2.1,
          ((d.take s).desk.runAll stops rest).2.2) := by
  have hfail : failure? [d.take s] = none := by simp [failure?, hv]
  rw [runAll, run_of_isEdit d hs]
  simp only [hfail]
  cases stops <;> rfl

/-- **An accepted edit** puts `t` in the place of the stretch from `i` to `j` and adds the
spans `ss`. -/
structure Accepts (d : Desk) (s : Step) (i j : Int) (t : Text) (ss : List Span) (v : StepResult) :
    Prop where
  /-- What the step leaves behind. -/
  take_eq : d.take s = ⟨.ok v, { d with buffer := (d.buffer.put i j t).addSpans ss }, []⟩
  /-- The stretch lies in the view. -/
  low_le : d.buffer.low ≤ i
  le : i ≤ j
  le_high : j ≤ d.buffer.high
  /-- No span forbids to take the stretch out. -/
  mayDelete : i ≠ j → d.buffer.MayDelete i j
  /-- No span forbids to put the text in. -/
  mayInsert : t ≠ [] → (d.buffer.cut i j).MayInsert i
  /-- A new span covers the text that is put in. -/
  covers : ∀ s ∈ ss, t ≠ [] ∧ s.start = i ∧ s.stop = i + t.length
  /-- The stretch lies between the positions that the step names. -/
  within : ∀ lo hi, (∀ r ∈ s.refs, ∃ n, d.place r = .ok n ∧ lo ≤ n ∧ n ≤ hi) → lo ≤ i ∧ j ≤ hi

/-- A step that changes the buffer if it succeeds either fails and changes nothing or succeeds. -/
theorem edited_cases (d : Desk) (r : Except EditError (Buffer × StepResult)) :
    (∃ e, d.edited r = ⟨.error e, d, []⟩) ∨
      ∃ b v, r = .ok (b, v) ∧ d.edited r = ⟨.ok v, { d with buffer := b }, []⟩ := by
  cases r with
  | error e => exact .inl ⟨e, rfl⟩
  | ok bv => exact .inr ⟨bv.1, bv.2, rfl, rfl⟩

theorem take_cases (d : Desk) {r : Except EditError (Buffer × StepResult)}
    (h : d.take s = d.edited r) :
    (∃ e, d.take s = ⟨.error e, d, []⟩) ∨
      ∃ b v, r = .ok (b, v) ∧ d.take s = ⟨.ok v, { d with buffer := b }, []⟩ := by
  rw [h]
  exact d.edited_cases r

theorem place_eq {r : Ref} {p : Pos} {n : Int} (hp : d.pos r = .ok p)
    (hn : d.buffer.locate p = .ok n) : d.place r = .ok n := by
  rw [place, hp]
  exact hn

/-- Inserting is refused, or it puts the text, with its span, at the place that is named. -/
theorem take_insert_cases (d : Desk) (p : Ref) (t : Text) (props : Option Props) :
    (∃ e, d.take (.insert p t props) = ⟨.error e, d, []⟩) ∨
      ∃ i v, d.place p = .ok i ∧ (d.buffer.low ≤ i ∧ i ≤ d.buffer.high) ∧ d.buffer.MayInsert i ∧
        d.take (.insert p t props) = ⟨.ok v, { d with
          buffer := (d.buffer.put i i t).addSpans (Buffer.newSpan i t props).toList }, []⟩ := by
  rcases d.take_cases (s := .insert p t props) rfl with h | ⟨b, v, hr, h⟩
  · exact .inl h
  obtain ⟨p', hp, hr⟩ := bind_eq_ok.1 hr
  obtain ⟨⟨b', s⟩, hins, hr⟩ := bind_eq_ok.1 hr
  obtain ⟨i, hi, hv, hm, hb⟩ := Buffer.insert_eq_ok_iff.1 hins
  cases hr
  cases hb
  exact .inr ⟨i, _, place_eq hp hi, hv, hm, h⟩

/-- The place of a position that is known to lie between two bounds does so. -/
private theorem between {r : Ref} {n lo hi : Int} (hr : d.place r = .ok n)
    (h : ∃ m, d.place r = .ok m ∧ lo ≤ m ∧ m ≤ hi) : lo ≤ n ∧ n ≤ hi := by
  obtain ⟨m, hm, hlo, hhi⟩ := h
  rw [hr] at hm
  cases hm
  exact ⟨hlo, hhi⟩

/-- **An edit is refused and leaves the desk as it was, or it is accepted.** -/
theorem take_edit (d : Desk) (hs : s.isEdit = true) :
    (∃ e, d.take s = ⟨.error e, d, []⟩) ∨ ∃ i j t ss v, d.Accepts s i j t ss v := by
  cases s with
  | insert p t props =>
    rcases d.take_insert_cases p t props with h | ⟨i, v, hplace, hv, hm, h⟩
    · exact .inl h
    refine .inr ⟨i, i, t, _, v, h, hv.1, Int.le_refl i, hv.2, absurd rfl, fun _ => ?_,
      fun s hs => Buffer.of_mem_newSpan hs, ?_⟩
    · rwa [Buffer.cut_self]
    · intro lo hi hin
      exact between hplace (hin p List.mem_cons_self)
  | delete p q =>
    rcases d.take_cases (s := .delete p q) rfl with h | ⟨b, v, hr, h⟩
    · exact .inl h
    obtain ⟨p', hp, hr⟩ := bind_eq_ok.1 hr
    obtain ⟨q', hq, hr⟩ := bind_eq_ok.1 hr
    obtain ⟨⟨b', t⟩, hdel, hr⟩ := bind_eq_ok.1 hr
    obtain ⟨x, y, hx, hy, hv, hm, hb⟩ := Buffer.delete_eq_ok_iff.1 hdel
    cases hr
    cases hb
    -- deleting is putting nothing in its place
    refine .inr ⟨min x y, max x y, [], [], .text (d.buffer.slice (min x y) (max x y)), ?_, hv.1,
      by omega, hv.2, fun hn => hm (by omega), absurd rfl,
      fun s hs => absurd hs List.not_mem_nil, ?_⟩
    · rw [Buffer.addSpans_nil, Buffer.put_nil]
      exact h
    · intro lo hi hin
      have h₁ := between (place_eq hp hx) (hin p List.mem_cons_self)
      have h₂ := between (place_eq hq hy) (hin q (List.mem_cons_of_mem p List.mem_cons_self))
      omega
  | replaceRegion p q t =>
    rcases d.take_cases (s := .replaceRegion p q t) rfl with h | ⟨b, v, hr, h⟩
    · exact .inl h
    obtain ⟨p', hp, hr⟩ := bind_eq_ok.1 hr
    obtain ⟨q', hq, hr⟩ := bind_eq_ok.1 hr
    obtain ⟨b', hrep, hr⟩ := bind_eq_ok.1 hr
    obtain ⟨x, y, hx, hy, hv, hd, hm, hb⟩ := Buffer.replaceRegion_eq_ok_iff.1 hrep
    cases hr
    cases hb
    -- what is replaced starts at the smaller position, but ends at the second one
    refine .inr ⟨min x y, y, t, [], .nothing, ?_, hv.1, by omega, hv.2, hd, fun _ => hm,
      fun s hs => absurd hs List.not_mem_nil, ?_⟩
    · rw [Buffer.addSpans_nil]
      exact h
    · intro lo hi hin
      have h₁ := between (place_eq hp hx) (hin p List.mem_cons_self)
      have h₂ := between (place_eq hq hy) (hin q (List.mem_cons_of_mem p List.mem_cons_self))
      omega
  | _ => cases hs

end Desk

end LiterateEdit
