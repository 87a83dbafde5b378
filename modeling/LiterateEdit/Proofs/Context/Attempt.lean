import LiterateEdit.Proofs.Buffer.Change
import LiterateEdit.Context.Splice

/-!
# Attempts in a row

Splicing and unsplicing are rows of operations that may each break off; what comes then is left out
and the buffer is what the row has led to so far. `Engine.andThen` puts two attempts in a row and
`Engine.attempt` makes one of an operation that answers with the buffer it makes. The two functions
of the engine are written with them here (`spliceText_eq`, `unspliceText_eq`), so that a law about
attempts needs to be proved for `andThen` and for the operations only.

The first such law is that an attempt keeps what its operations keep, whether it succeeds or not
(`Closed.spliceText`, `Closed.unspliceText`). So it leads from the buffer before it to the one
behind it by a row of changes (`leads_spliceText`, `leads_unspliceText`).
-/

namespace LiterateEdit

namespace Engine

open Buffer

variable {α β γ : Type} {b b' : Buffer} {n : Nat} {fault : Option Nat}

/-! ### Rows -/

/-- An attempt and what is done with its answer if there is one. -/
def andThen (x : Attempt α) (f : α → Buffer → Attempt β) : Attempt β :=
  match x with
  | (.error e, b) => (.error e, b)
  | (.ok a, b) => f a b

/-- An operation on `b` that leaves `b` if it fails. -/
def attempt (b : Buffer) (r : Except EditError (Buffer × α)) : Attempt α :=
  match r with
  | .error e => (.error e, b)
  | .ok (b', a) => (.ok a, b')

@[simp] theorem andThen_ok (a : α) (b : Buffer) (f : α → Buffer → Attempt β) :
    andThen (.ok a, b) f = f a b := rfl

@[simp] theorem andThen_error (e : EditError) (b : Buffer) (f : α → Buffer → Attempt β) :
    andThen (.error e, b) f = (.error e, b) := rfl

/-- The question where a position is, as an operation that leaves the buffer. -/
def whereIs (p : Pos) (b : Buffer) : Attempt Int := (b.locate p, b)

/-- The operation that moves the point. -/
def moveTo (p : Pos) (b : Buffer) : Attempt Unit := attempt b do return (← b.goto p, ())

/-- The operation that confines the user to the region, if it is asked for. -/
def enclose (narrow : Bool) (start stop : MarkerId) (b : Buffer) : Attempt Unit :=
  if narrow then b.narrow (.marker start) (.marker stop) else (.ok (), b)

theorem insertBefore_cons (start : MarkerId) (k : Nat) (b : Buffer) (block : Block)
    (rest : List Block) :
    insertBefore fault start k b (block :: rest)
      = if fault = some k then (.error .interrupted, b)
        else andThen (attempt b (b.insert (.marker start) block.segmentBefore (some contextProps)))
          fun _ c => insertBefore fault start (k + 1) c rest := by
  rw [insertBefore]
  cases b.insert (.marker start) block.segmentBefore (some contextProps) with
  | error e => rfl
  | ok r => rfl

theorem insertAfter_cons (spot : Int) (k : Nat) (b : Buffer) (block : Block) (rest : List Block) :
    insertAfter fault spot k b (block :: rest)
      = if fault = some k then (.error .interrupted, b)
        else andThen (attempt b (b.insert (.at spot) block.segmentAfter (some contextProps)))
          fun _ c => insertAfter fault (spot + block.segmentAfter.length) (k + 1) c rest := by
  rw [insertAfter]
  cases b.insert (.at spot) block.segmentAfter (some contextProps) with
  | error e => rfl
  | ok r => rfl

theorem deleteStep_eq (k : Nat) (p q : Pos) (b : Buffer) :
    deleteStep fault k p q b
      = if fault = some k then (.error .interrupted, b)
        else andThen (attempt b (b.delete p q)) fun _ c => (.ok (), c) := by
  rw [deleteStep]
  cases b.delete p q with
  | error e => rfl
  | ok r => rfl

/-- The markers that splicing makes at the ends of the view. -/
def openRegion (b : Buffer) : Attempt (MarkerId × MarkerId) :=
  andThen (attempt b (b.makeMarker (.at b.low) true)) fun start b =>
  andThen (attempt b (b.makeMarker (.at b.high) true)) fun stop b => (.ok (start, stop), b)

/-- The blocks behind the region, put in while its markers stay. -/
def fillBehind (fault : Option Nat) (start stop : MarkerId) (k : Nat) (b : Buffer)
    (blocks : List Block) : Attempt Unit :=
  let b := (b.setAdvances start false).setAdvances stop false
  andThen (whereIs (.marker stop) b) fun spot b =>
  andThen (insertAfter fault spot k b blocks) fun _ b => (.ok (), b.setAdvances stop true)

/-- The view and the point, set to the region. -/
def enterRegion (narrow : Bool) (start stop : MarkerId) (b : Buffer) : Attempt Unit :=
  andThen (enclose narrow start stop b) fun _ b => moveTo (.marker start) b

/-- **Splicing**: the markers are made, both sides are filled, and the region is entered. -/
theorem spliceText_eq (fault : Option Nat) (p : Partition) (narrow : Bool) (b : Buffer) :
    spliceText fault p narrow b
      = andThen (openRegion b) fun m b =>
        andThen (insertBefore fault m.1 1 b p.before) fun k b =>
        andThen (fillBehind fault m.1 m.2 k b p.after) fun _ b =>
        andThen (enterRegion narrow m.1 m.2 b) fun _ b => (.ok m, b) := by
  unfold spliceText openRegion fillBehind enterRegion
  -- one operation after another: either it fails and both sides end there, or both go on
  cases b.makeMarker (.at b.low) true with
  | error e => rfl
  | ok r =>
    obtain ⟨b₁, start⟩ := r
    simp only [attempt, andThen_ok]
    cases b₁.makeMarker (.at b₁.high) true with
    | error e => rfl
    | ok r =>
      obtain ⟨b₂, stop⟩ := r
      simp only [andThen_ok]
      rcases insertBefore fault start 1 b₂ p.before with ⟨r | k, b₃⟩
      · rfl
      simp only [andThen_ok, whereIs]
      cases ((b₃.setAdvances start false).setAdvances stop false).locate (.marker stop) with
      | error e => rfl
      | ok spot =>
        simp only [andThen_ok]
        rcases insertAfter fault spot k ((b₃.setAdvances start false).setAdvances stop false)
          p.after with ⟨r | u, b₄⟩
        · rfl
        simp only [andThen_ok, enclose]
        rcases (if narrow then (b₄.setAdvances stop true).narrow (.marker start) (.marker stop)
          else (.ok (), b₄.setAdvances stop true)) with ⟨r | u, b₅⟩
        · rfl
        simp only [andThen_ok, moveTo]
        cases b₅.goto (.marker start) with
        | error e => rfl
        | ok b₆ => rfl

/-- **Unsplicing**: the view is given up, the tail and the head are cut off, and the point goes to
the start. -/
theorem unspliceText_eq (fault : Option Nat) (start stop : MarkerId) (b : Buffer) :
    unspliceText fault start stop b
      = andThen (deleteStep fault 1 (.marker stop) (.at b.widen.size) b.widen) fun _ b =>
        andThen (deleteStep fault 2 (.at 0) (.marker start) b) fun _ b => moveTo (.at 0) b := by
  unfold unspliceText
  simp only
  rcases deleteStep fault 1 (.marker stop) (.at b.widen.size) b.widen with ⟨r | u, b₁⟩
  · rfl
  simp only [andThen_ok]
  rcases deleteStep fault 2 (.at 0) (.marker start) b₁ with ⟨r | u, b₂⟩
  · rfl
  simp only [andThen_ok, moveTo]
  cases b₂.goto (.at 0) with
  | error e => rfl
  | ok b₃ => rfl

/-! ### What attempts keep -/

/-- **A property of buffers that attempts keep** if they begin with `n` markers: it is closed under
the operations that splicing and unsplicing are made of, of which only new markers are told whether
they advance. -/
structure Closed (n : Nat) (I : Buffer → Prop) : Prop where
  insert : ∀ {b : Buffer} {p : Pos} {t : Text} {props : Option Props} {r : Buffer × Option Span},
    b.insert p t props = .ok r → I b → I r.1
  delete : ∀ {b : Buffer} {p q : Pos} {r : Buffer × Text}, b.delete p q = .ok r → I b → I r.1
  makeMarker : ∀ {b : Buffer} {p : Pos} {advances : Bool} {r : Buffer × MarkerId},
    b.makeMarker p advances = .ok r → I b → I r.1
  turn : ∀ {b : Buffer} {m : MarkerId} (advances : Bool), n ≤ m → I b → I (b.setAdvances m advances)
  goto : ∀ {b b' : Buffer} {p : Pos}, b.goto p = .ok b' → I b → I b'
  narrow : ∀ {b : Buffer} (p q : Pos), I b → I (b.narrow p q).2
  widen : ∀ {b : Buffer}, I b → I b.widen

/-- The markers of the region are made by splicing itself. -/
theorem le_of_openRegion {m : MarkerId × MarkerId} (h : openRegion b = (.ok m, b')) :
    b.markers.length ≤ m.1 ∧ b.markers.length ≤ m.2 := by
  unfold openRegion at h
  cases hstart : b.makeMarker (.at b.low) true with
  | error e =>
    rw [hstart] at h
    cases h
  | ok r =>
    obtain ⟨b₁, start⟩ := r
    rw [hstart] at h
    simp only [attempt, andThen_ok] at h
    cases hstop : b₁.makeMarker (.at b₁.high) true with
    | error e =>
      rw [hstop] at h
      cases h
    | ok r =>
      obtain ⟨b₂, stop⟩ := r
      rw [hstop] at h
      cases h
      obtain ⟨x, -, -, hr⟩ := makeMarker_eq_ok_iff.1 hstart
      obtain ⟨y, -, -, hr'⟩ := makeMarker_eq_ok_iff.1 hstop
      obtain ⟨hb₁, hstart'⟩ := Prod.mk.inj hr
      obtain ⟨-, hstop'⟩ := Prod.mk.inj hr'
      have hlen : b₁.markers.length = b.markers.length + 1 := by
        rw [hb₁, List.length_append, List.length_singleton]
      change b.markers.length ≤ start ∧ b.markers.length ≤ stop
      rw [hstart', hstop', hlen]
      exact ⟨Nat.le_refl _, Nat.le_succ _⟩

/-- A row keeps what its first attempt keeps and what is done with the answer keeps. -/
theorem kept_andThen {I : Buffer → Prop} {x : Attempt α} {f : α → Buffer → Attempt β} (hx : I x.2)
    (hf : ∀ a c, x = (.ok a, c) → I c → I (f a c).2) : I (andThen x f).2 := by
  rcases x with ⟨e | a, c⟩
  · exact hx
  · exact hf a c rfl hx

theorem kept_attempt {I : Buffer → Prop} {r : Except EditError (Buffer × α)} (hb : I b)
    (hr : ∀ c a, r = .ok (c, a) → I c) : I (attempt b r).2 := by
  cases r with
  | error e => exact hb
  | ok ca => exact hr ca.1 ca.2 rfl

namespace Closed

variable {I : Buffer → Prop}

theorem insertBefore (h : Closed n I) (m : MarkerId) (k : Nat) (blocks : List Block) (hb : I b) :
    I (Engine.insertBefore fault m k b blocks).2 := by
  induction blocks generalizing b k with
  | nil => exact hb
  | cons block rest ih =>
    rw [insertBefore_cons]
    by_cases hk : fault = some k
    · rw [if_pos hk] -- broken off here
      exact hb
    · rw [if_neg hk]
      exact kept_andThen (kept_attempt hb fun _ _ hins => h.insert hins hb) fun _ _ _ => ih (k + 1)

theorem insertAfter (h : Closed n I) (spot : Int) (k : Nat) (blocks : List Block) (hb : I b) :
    I (Engine.insertAfter fault spot k b blocks).2 := by
  induction blocks generalizing b k spot with
  | nil => exact hb
  | cons block rest ih =>
    rw [insertAfter_cons]
    by_cases hk : fault = some k
    · rw [if_pos hk]
      exact hb
    · rw [if_neg hk]
      exact kept_andThen (kept_attempt hb fun _ _ hins => h.insert hins hb)
        fun _ _ _ => ih _ (k + 1)

theorem deleteStep (h : Closed n I) (k : Nat) (p q : Pos) (hb : I b) :
    I (Engine.deleteStep fault k p q b).2 := by
  rw [deleteStep_eq]
  by_cases hk : fault = some k
  · rw [if_pos hk]
    exact hb
  · rw [if_neg hk]
    exact kept_andThen (kept_attempt hb fun _ _ hdel => h.delete hdel hb) fun _ _ _ hc => hc

theorem moveTo (h : Closed n I) (p : Pos) (hb : I b) : I (Engine.moveTo p b).2 := by
  refine kept_attempt hb fun c u hc => ?_
  obtain ⟨c', hgoto, hc⟩ := bind_eq_ok.1 hc
  cases hc
  exact h.goto hgoto hb

theorem openRegion (h : Closed n I) (hb : I b) : I (Engine.openRegion b).2 :=
  kept_andThen (kept_attempt hb fun _ _ hmake => h.makeMarker hmake hb) fun _ _ _ hc =>
    kept_andThen (kept_attempt hc fun _ _ hmake => h.makeMarker hmake hc) fun _ _ _ hc => hc

theorem fillBehind (h : Closed n I) {start stop : MarkerId} (hstart : n ≤ start) (hstop : n ≤ stop)
    (k : Nat) (blocks : List Block) (hb : I b) :
    I (Engine.fillBehind fault start stop k b blocks).2 := by
  have hstay : I ((b.setAdvances start false).setAdvances stop false) :=
    h.turn false hstop (h.turn false hstart hb)
  -- the stop is turned back behind the row, if the row succeeds
  refine kept_andThen hstay fun spot c _ hc => ?_
  exact kept_andThen (h.insertAfter spot k blocks hc) fun _ _ _ hc => h.turn true hstop hc

theorem enterRegion (h : Closed n I) (narrow : Bool) (start stop : MarkerId) (hb : I b) :
    I (Engine.enterRegion narrow start stop b).2 := by
  have hview : I (enclose narrow start stop b).2 := by
    cases narrow with
    | false => exact hb
    | true => exact h.narrow _ _ hb
  exact kept_andThen hview fun _ _ _ hc => h.moveTo _ hc

/-- Replacing is a deletion and an insertion. -/
theorem replaceRegion (h : Closed n I) {p q : Pos} {t : Text}
    (hrep : b.replaceRegion p q t = .ok b') (hb : I b) : I b' := by
  obtain ⟨x, -, hrep⟩ := bind_eq_ok.1 hrep
  obtain ⟨y, -, hrep⟩ := bind_eq_ok.1 hrep
  obtain ⟨⟨b₁, removed⟩, hdel, hrep⟩ := bind_eq_ok.1 hrep
  obtain ⟨⟨b₂, s⟩, hins, hrep⟩ := bind_eq_ok.1 hrep
  cases hrep
  exact h.insert hins (h.delete hdel hb)

/-- Splicing tells no markers but those that it made itself whether they advance. -/
theorem spliceText (p : Partition) (narrow : Bool) (h : Closed b.markers.length I) (hb : I b) :
    I (Engine.spliceText fault p narrow b).2 := by
  rw [spliceText_eq]
  refine kept_andThen (h.openRegion hb) fun m b₁ hopen h₁ => ?_
  obtain ⟨hstart, hstop⟩ := le_of_openRegion hopen
  refine kept_andThen (h.insertBefore m.1 1 p.before h₁) fun k b₂ _ h₂ => ?_
  refine kept_andThen (h.fillBehind hstart hstop k p.after h₂) fun _ b₃ _ h₃ => ?_
  exact kept_andThen (h.enterRegion narrow m.1 m.2 h₃) fun _ _ _ h₄ => h₄

theorem unspliceText (start stop : MarkerId) (h : Closed n I) (hb : I b) :
    I (Engine.unspliceText fault start stop b).2 := by
  rw [unspliceText_eq]
  refine kept_andThen (h.deleteStep 1 _ _ (h.widen hb)) fun _ b₁ _ h₁ => ?_
  exact kept_andThen (h.deleteStep 2 _ _ h₁) fun _ b₂ _ h₂ => h.moveTo _ h₂

end Closed

/-! ### Where attempts lead -/

/-- That a row of changes has led to a buffer is kept by what leads on from it. -/
theorem closed_leads (n : Nat) (b : Buffer) : Closed n (Leads n b) where
  insert h hb := hb.trans (leads_insert h)
  delete h hb := hb.trans (leads_delete h)
  makeMarker h hb := hb.trans (leads_makeMarker h)
  turn advances hm hb := hb.tail (.turn _ hm advances)
  goto h hb := hb.trans (leads_goto h)
  narrow p q hb := hb.trans (leads_narrow _ p q)
  widen hb := hb.tail (.release _)

theorem leads_spliceText (p : Partition) (narrow : Bool) (b : Buffer) :
    Leads b.markers.length b (spliceText fault p narrow b).2 :=
  (closed_leads _ b).spliceText p narrow .refl

theorem leads_unspliceText (start stop : MarkerId) (b : Buffer) :
    Leads n b (unspliceText fault start stop b).2 :=
  (closed_leads n b).unspliceText start stop .refl

/-- What an attempt leads to with the protection lifted. -/
theorem leads_unlocked {f : Buffer → Attempt α} {r : Except EditError α}
    (hf : ∀ c : Buffer, Leads c.markers.length c (f c).2)
    (hrun : f { b with unlocked := true } = (r, b')) :
    Leads b.markers.length b { b' with unlocked := b.unlocked } := by
  have hleads : Leads b.markers.length { b with unlocked := true }
      (f { b with unlocked := true }).2 := hf { b with unlocked := true }
  rw [hrun] at hleads
  exact hleads.withUnlocked

/-! ### What splicing and unsplicing come to -/

/-- **Splicing** is refused, or the attempt fails and is taken back, or it succeeds and the engine
takes note of the markers. -/
theorem splice_cases (e : Engine) (b : Buffer) (p : Option Partition) (narrow : Bool)
    (fault : Option Nat) :
    (∃ notices, e.splice b p narrow fault = ⟨.ok false, b, e, notices⟩) ∨
      (∃ q err c, spliceText fault q narrow { b with unlocked := true } = (.error err, c) ∧
        e.splice b p narrow fault
          = ⟨.error err, b.restoredAfter { c with unlocked := b.unlocked }, e, []⟩) ∨
      ∃ q m c notices, spliceText fault q narrow { b with unlocked := true } = (.ok m, c) ∧
        e.splice b p narrow fault
          = ⟨.ok true, { c with unlocked := b.unlocked }, .spliced m.1 m.2, notices⟩ := by
  unfold splice
  cases e with
  | spliced start stop => exact .inl ⟨_, rfl⟩
  | unspliced =>
    cases p with
    | none => exact .inl ⟨_, rfl⟩
    | some p =>
      by_cases hp : p.isEmpty = true
      · simp only [hp, if_true]
        exact .inl ⟨_, rfl⟩
      simp only [hp, Bool.false_eq_true, if_false, atomically, withUnlocked]
      right
      rcases hrun : spliceText fault p narrow { b with unlocked := true } with ⟨err | m, c⟩
      · exact .inl ⟨p, err, c, hrun, rfl⟩
      · exact .inr ⟨p, m, c, _, hrun, rfl⟩

/-- **Unsplicing** does nothing without context, gives up markers that make no region, or makes an
attempt as splicing does. -/
theorem unsplice_cases (e : Engine) (b : Buffer) (fault : Option Nat) :
    (e = .unspliced ∧ e.unsplice b fault = ⟨.ok false, b, e, []⟩) ∨
      ∃ start stop, e = .spliced start stop ∧
        ((∃ notices, e.region? b = none ∧ e.unsplice b fault
            = ⟨.ok false, (b.deleteMarker start).deleteMarker stop, .unspliced, notices⟩) ∨
          (∃ err c, unspliceText fault start stop { b with unlocked := true } = (.error err, c) ∧
            e.unsplice b fault
              = ⟨.error err, b.restoredAfter { c with unlocked := b.unlocked }, e, []⟩) ∨
          ∃ c notices, unspliceText fault start stop { b with unlocked := true } = (.ok (), c) ∧
            e.unsplice b fault
              = ⟨.ok true, ((({ c with unlocked := b.unlocked } : Buffer).deleteMarker
                  start).deleteMarker stop), .unspliced, notices⟩) := by
  unfold unsplice
  cases e with
  | unspliced => exact .inl ⟨rfl, rfl⟩
  | spliced start stop =>
    refine .inr ⟨start, stop, rfl, ?_⟩
    cases (Engine.spliced start stop).region? b with
    | none => exact .inl ⟨_, rfl, rfl⟩
    | some r =>
      simp only [atomically, withUnlocked]
      right
      rcases hrun : unspliceText fault start stop { b with unlocked := true } with ⟨err | u, c⟩
      · exact .inl ⟨err, c, rfl, rfl⟩
      · exact .inr ⟨c, _, rfl, rfl⟩

end Engine

end LiterateEdit
