import LiterateEdit.Proofs.Buffer.Rename
import LiterateEdit.Proofs.Context.Attempt

/-!
# Splicing under other names of markers

The engine holds the names of the two markers of the region. Splicing and unsplicing do the same to
two buffers that differ in the names of the markers only, with an engine that holds the two names by
which each of them knows its markers (`splice_agrees`, `unsplice_agrees`).

Attempts agree (`Agreed`) if they fail alike or succeed alike, and in either case leave buffers that
differ in the names only: an attempt that breaks off leaves a buffer, too. The functions of the
engine are rows of attempts, so that they agree if the operations in the row do.
-/

namespace LiterateEdit

namespace Engine

open Buffer

variable {α β γ δ : Type} {σ : MarkerId → MarkerId} {b b' c c' : Buffer} {fault : Option Nat}

/-- The engine that holds the other names. -/
def rename (σ : MarkerId → MarkerId) : Engine → Engine
  | .unspliced => .unspliced
  | .spliced start stop => .spliced (σ start) (σ stop)

@[simp] theorem isSpliced_rename (e : Engine) : (e.rename σ).isSpliced = e.isSpliced := by
  cases e with
  | unspliced => rfl
  | spliced start stop => rfl

theorem region?_rename (e : Engine) (h : b.Renamed σ b') :
    (e.rename σ).region? b' = e.region? b := by
  cases e with
  | unspliced => rfl
  | spliced start stop =>
    simp only [rename, region?, h.markerPosition, h.size]

theorem editable_rename (e : Engine) (h : b.Renamed σ b') :
    (e.rename σ).editable b' = e.editable b := by
  rw [editable, editable, region?_rename e h, h.same]
  rfl

/-! ### Rows of attempts -/

/-- Two attempts that agree: their answers belong together by `g`. -/
structure Agreed (σ : MarkerId → MarkerId) (g : α → β) (x : Attempt α) (y : Attempt β) : Prop where
  outcome : y.1 = x.1.map g
  buffer : x.2.Renamed σ y.2

section Rows

variable {g : α → β} {k : γ → δ} {x : Attempt α} {y : Attempt β}

/-- Attempts that agree fail alike or succeed alike. -/
theorem Agreed.cases (h : Agreed σ g x y) :
    (∃ err c c', c.Renamed σ c' ∧ x = (.error err, c) ∧ y = (.error err, c')) ∨
      ∃ a c c', c.Renamed σ c' ∧ x = (.ok a, c) ∧ y = (.ok (g a), c') := by
  obtain ⟨r, c⟩ := x
  obtain ⟨r', c'⟩ := y
  obtain ⟨hr, hc⟩ := h
  cases r with
  | error err =>
    left
    exact ⟨err, c, c', hc, rfl, congrArg (·, c') hr⟩
  | ok a =>
    right
    exact ⟨a, c, c', hc, rfl, congrArg (·, c') hr⟩

theorem Agreed.andThen {f : α → Buffer → Attempt γ} {f' : β → Buffer → Attempt δ}
    (h : Agreed σ g x y)
    (hf : ∀ a c c', c.Renamed σ c' → Agreed σ k (f a c) (f' (g a) c')) :
    Agreed σ k (andThen x f) (andThen y f') := by
  rcases h.cases with ⟨err, c, c', hc, rfl, rfl⟩ | ⟨a, c, c', hc, rfl, rfl⟩
  · -- what comes behind a failure is left out in both rows
    exact ⟨rfl, hc⟩
  · exact hf a c c' hc

theorem agreed_attempt {r : Except EditError (Buffer × α)} {r' : Except EditError (Buffer × β)}
    (h : b.Renamed σ b') (hr : Agree σ g r r') : Agreed σ g (attempt b r) (attempt b' r') := by
  cases hr with
  | error e => exact ⟨rfl, h⟩
  | ok hc a => exact ⟨rfl, hc⟩

/-- An attempt with the protection lifted that is taken back if it fails. -/
theorem agreed_atomically {f : Buffer → Attempt α} {f' : Buffer → Attempt β} (h : b.Renamed σ b')
    (hf : ∀ c c' : Buffer, c.Renamed σ c' → Agreed σ g (f c) (f' c')) :
    Agreed σ g (b.atomically fun c => c.withUnlocked f)
      (b'.atomically fun c => c.withUnlocked f') := by
  obtain ⟨hr, hc⟩ := hf _ _ (h.setUnlocked true)
  unfold atomically withUnlocked
  simp only
  rw [hr, h.unlocked]
  rcases hrun : f { b with unlocked := true } with ⟨r, c⟩
  rw [hrun] at hc
  cases r with
  | error e => exact ⟨rfl, h.restoredAfter (hc.setUnlocked _)⟩
  | ok a => exact ⟨rfl, hc.setUnlocked _⟩

end Rows

/-! ### The operations in the rows -/

theorem agreed_moveTo (h : b.Renamed σ b') (p : Pos) :
    Agreed σ id (moveTo p b) (moveTo (p.rename σ) b') := agreed_attempt h (h.goto p ())

theorem agreed_insertBefore (h : b.Renamed σ b') (m : MarkerId) (k : Nat) (blocks : List Block) :
    Agreed σ id (insertBefore fault m k b blocks) (insertBefore fault (σ m) k b' blocks) := by
  -- one block after another; the two buffers and the number of the next edit vary
  induction blocks generalizing b b' k with
  | nil => exact ⟨rfl, h⟩
  | cons block rest ih =>
    rw [insertBefore_cons, insertBefore_cons]
    by_cases hk : fault = some k
    · rw [if_pos hk, if_pos hk]
      exact ⟨rfl, h⟩
    · rw [if_neg hk, if_neg hk]
      exact (agreed_attempt h (h.insert (.marker m) _ _)).andThen fun _ c c' hc => ih hc (k + 1)

theorem agreed_insertAfter (h : b.Renamed σ b') (spot : Int) (k : Nat) (blocks : List Block) :
    Agreed σ id (insertAfter fault spot k b blocks) (insertAfter fault spot k b' blocks) := by
  induction blocks generalizing b b' k spot with
  | nil => exact ⟨rfl, h⟩
  | cons block rest ih =>
    rw [insertAfter_cons, insertAfter_cons]
    by_cases hk : fault = some k
    · rw [if_pos hk, if_pos hk]
      exact ⟨rfl, h⟩
    · rw [if_neg hk, if_neg hk]
      exact (agreed_attempt h (h.insert (.at spot) _ _)).andThen fun _ c c' hc => ih hc _ (k + 1)

theorem agreed_deleteStep (h : b.Renamed σ b') (k : Nat) (p q : Pos) :
    Agreed σ id (deleteStep fault k p q b)
      (deleteStep fault k (p.rename σ) (q.rename σ) b') := by
  rw [deleteStep_eq, deleteStep_eq]
  by_cases hk : fault = some k
  · rw [if_pos hk, if_pos hk]
    exact ⟨rfl, h⟩
  · rw [if_neg hk, if_neg hk]
    exact (agreed_attempt h (h.delete p q)).andThen fun _ c c' hc => ⟨rfl, hc⟩

theorem agreed_openRegion (h : b.Renamed σ b') :
    Agreed σ (Prod.map σ σ) (openRegion b) (openRegion b') := by
  unfold openRegion
  -- the ends of the view are numbers, so that they are the same in both buffers
  rw [h.low]
  refine (agreed_attempt h (h.makeMarker (.at b.low) true)).andThen fun start c c' hc => ?_
  rw [hc.high]
  exact (agreed_attempt hc (hc.makeMarker (.at c.high) true)).andThen fun stop e e' he =>
    ⟨rfl, he⟩

theorem agreed_fillBehind (h : b.Renamed σ b') (start stop : MarkerId) (k : Nat)
    (blocks : List Block) :
    Agreed σ id (fillBehind fault start stop k b blocks)
      (fillBehind fault (σ start) (σ stop) k b' blocks) := by
  have hstay := (h.setAdvances start false).setAdvances stop false
  have hwhere : Agreed σ id (whereIs (.marker stop) ((b.setAdvances start false).setAdvances stop
      false)) (whereIs (.marker (σ stop)) ((b'.setAdvances (σ start) false).setAdvances (σ stop)
      false)) := by
    refine ⟨?_, hstay⟩
    change locate _ ((Pos.marker stop).rename σ) = _
    rw [hstay.locate, Except.map_id]
    rfl
  -- from here on the place is a number, and no name is needed until the stop is turned back
  refine hwhere.andThen fun spot c c' hc => ?_
  exact (agreed_insertAfter hc spot k blocks).andThen fun _ e e' he =>
    ⟨rfl, he.setAdvances stop true⟩

theorem agreed_enterRegion (h : b.Renamed σ b') (narrow : Bool) (start stop : MarkerId) :
    Agreed σ id (enterRegion narrow start stop b) (enterRegion narrow (σ start) (σ stop) b') := by
  have hview :
      Agreed σ id (enclose narrow start stop b) (enclose narrow (σ start) (σ stop) b') := by
    cases narrow with
    | false => exact ⟨rfl, h⟩
    | true =>
      obtain ⟨hr, hc⟩ := h.narrow (.marker start) (.marker stop)
      refine ⟨?_, hc⟩
      rw [Except.map_id]
      exact hr
  exact hview.andThen fun _ c c' hc => agreed_moveTo hc (.marker start)

theorem agreed_spliceText (h : b.Renamed σ b') (p : Partition) (narrow : Bool) :
    Agreed σ (Prod.map σ σ) (spliceText fault p narrow b) (spliceText fault p narrow b') := by
  rw [spliceText_eq, spliceText_eq]
  refine (agreed_openRegion h).andThen fun m c c' hc => ?_
  refine (agreed_insertBefore hc m.1 1 p.before).andThen fun k c c' hc => ?_
  refine (agreed_fillBehind hc m.1 m.2 k p.after).andThen fun _ c c' hc => ?_
  exact (agreed_enterRegion hc narrow m.1 m.2).andThen fun _ c c' hc => ⟨rfl, hc⟩

theorem agreed_unspliceText (h : b.Renamed σ b') (start stop : MarkerId) :
    Agreed σ id (unspliceText fault start stop b)
      (unspliceText fault (σ start) (σ stop) b') := by
  rw [unspliceText_eq, unspliceText_eq, h.widen.size]
  refine (agreed_deleteStep h.widen 1 (.marker stop) (.at b.widen.size)).andThen fun _ c c' hc => ?_
  refine (agreed_deleteStep hc 2 (.at 0) (.marker start)).andThen fun _ c c' hc => ?_
  exact agreed_moveTo hc (.at 0)

/-! ### Splicing and unsplicing -/

/-- Two results that agree. -/
structure Result.Agreed (σ : MarkerId → MarkerId) (r r' : Result) : Prop where
  outcome : r'.outcome = r.outcome
  buffer : r.buffer.Renamed σ r'.buffer
  engine : r'.engine = r.engine.rename σ
  notices : r'.notices = r.notices

/-- **Splicing** does the same under other names, and tells the same. -/
theorem splice_agrees (e : Engine) (h : b.Renamed σ b') (p : Option Partition) (narrow : Bool)
    (fault : Option Nat) :
    Result.Agreed σ (e.splice b p narrow fault) ((e.rename σ).splice b' p narrow fault) := by
  cases e with
  | spliced start stop => exact ⟨rfl, h, rfl, rfl⟩
  | unspliced =>
    cases p with
    | none => exact ⟨rfl, h, rfl, rfl⟩
    | some p =>
      unfold splice
      by_cases hp : p.isEmpty = true
      · simp only [rename, hp, if_true]
        exact ⟨rfl, h, rfl, rfl⟩
      · simp only [rename, hp, Bool.false_eq_true, if_false]
        have hagreed : Agreed σ (Prod.map σ σ)
            (b.atomically fun c => c.withUnlocked (spliceText fault p narrow))
            (b'.atomically fun c => c.withUnlocked (spliceText fault p narrow)) :=
          agreed_atomically h fun c c' hc => agreed_spliceText hc p narrow
        rcases hagreed.cases with ⟨err, c, c', hc, hrun, hrun'⟩ |
          ⟨⟨start, stop⟩, c, c', hc, hrun, hrun'⟩
        · rw [hrun, hrun']
          exact ⟨rfl, hc, rfl, rfl⟩
        · rw [hrun, hrun']
          refine ⟨rfl, hc, rfl, ?_⟩
          -- what is told are the places of the markers, not their names
          simp only [Prod.map, hc.markerPosition]

/-- **Unsplicing** does the same under other names. -/
theorem unsplice_agrees (e : Engine) (h : b.Renamed σ b') (fault : Option Nat) :
    Result.Agreed σ (e.unsplice b fault) ((e.rename σ).unsplice b' fault) := by
  have hregion := region?_rename e h
  cases e with
  | unspliced => exact ⟨rfl, h, rfl, rfl⟩
  | spliced start stop =>
    unfold unsplice
    simp only [rename] at hregion ⊢
    rw [hregion]
    cases (Engine.spliced start stop).region? b with
    | none => exact ⟨rfl, (h.deleteMarker start).deleteMarker stop, rfl, rfl⟩
    | some lohi =>
      simp only
      have hagreed : Agreed σ id
          (b.atomically fun c => c.withUnlocked (unspliceText fault start stop))
          (b'.atomically fun c => c.withUnlocked (unspliceText fault (σ start) (σ stop))) :=
        agreed_atomically h fun c c' hc => agreed_unspliceText hc start stop
      rcases hagreed.cases with ⟨err, c, c', hc, hrun, hrun'⟩ | ⟨u, c, c', hc, hrun, hrun'⟩
      · rw [hrun, hrun']
        exact ⟨rfl, hc, rfl, rfl⟩
      · rw [hrun, hrun']
        refine ⟨rfl, (hc.deleteMarker start).deleteMarker stop, rfl, ?_⟩
        -- what is told is how many characters are left
        simp only [hc.size]

end Engine

end LiterateEdit
