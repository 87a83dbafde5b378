import LiterateEdit.Proofs.Context.Attempt
import LiterateEdit.Proofs.Context.Strip

/-!
# Breaking off while context is put in or taken away

A host may break off at any edit of splicing or unsplicing. Splicing makes an insertion for each
block of the partition, those before the region first, and unsplicing makes two deletions, the tail
first; `Engine.inserts` and `Engine.deletes` count them.

**A fault is hit.** That a fault at the `k`-th edit is hit if there are that many edits is not clear
from the counting alone, because an edit before it could be refused. None is while the view is a
stretch of the text: the two markers of the region go along with the text that is put in and stay in
the view (`Between`), each side is filled at one of them, and then the region can be entered
(`spliceText_ok`). A row of attempts that succeeds without a fault breaks off at the edit with the
fault, and only there (`insertBefore_hit`, `insertBefore_unhit` and their like).

**It is taken back.** Both attempts run so that nothing is left of them if they fail, and the engine
takes note of the region only behind them. So it is as it was, and the buffer is taken back from one
that still knows the markers (`splice_hit`, `unsplice_hit`).
-/

namespace LiterateEdit

namespace Buffer

variable {b : Buffer} {m m' : MarkerId} {k : Marker}

/-- A marker with a place has been made. -/
theorem lt_of_markerPosition {x : Int} (h : b.markerPosition m = some x) :
    m < b.markers.length := by
  by_contra hm
  rw [markerPosition, List.getElem?_eq_none (Nat.not_lt.1 hm)] at h
  cases h

theorem markers_setAdvances_self (h : b.markers[m]? = some k) (on : Bool) :
    (b.setAdvances m on).markers[m]? = some { k with advances := on } := by
  change (b.markers.modify m _)[m]? = _
  rw [List.getElem?_modify_eq, h]
  rfl

theorem markers_setAdvances_of_ne (h : m' ≠ m) (on : Bool) :
    (b.setAdvances m on).markers[m']? = b.markers[m']? := by
  change (b.markers.modify m _)[m']? = _
  rw [List.getElem?_modify_ne _ _ h.symm]

theorem markers_insertText_getElem? (h : b.markers[m]? = some k) (i : Int) (t : Text) :
    (b.insertText i t).markers[m]? = some (k.inserted i t.length) := by
  change (b.markers.map _)[m]? = _
  rw [List.getElem?_map, h, Option.map_some]

/-- **Two markers enclose a stretch of the text**, and text that is put in at either of them: the
first one stays and the second one advances. -/
def Encloses (b : Buffer) (start stop : MarkerId) : Prop :=
  ∃ lo hi, b.markers[start]? = some ⟨some lo, false⟩ ∧ b.markers[stop]? = some ⟨some hi, true⟩ ∧
    lo ≤ hi

/-! ### What splicing makes -/

/-- The buffer with markers at the ends of its view that advance. -/
def marked (b : Buffer) : Buffer :=
  { b with markers := b.markers ++ [⟨some b.low, true⟩, ⟨some b.high, true⟩] }

/-- The buffer with context texts put in one behind another, each under a span of its own. -/
def putRow (b : Buffer) (i : Int) (ts : List Text) : Buffer :=
  (b.insertText i ts.flatten).addSpans (contextSpans i ts)

/-- The buffer with context around what is in its view, and with markers between the two. -/
def surround (b : Buffer) (p : Partition) : Buffer :=
  let start := b.markers.length
  let front := (b.marked.putRow b.low p.segmentsBefore).setAdvances start false
  ((front.setAdvances (start + 1) false).putRow (b.high + p.textBefore.length)
    p.segmentsAfter).setAdvances (start + 1) true

end Buffer

namespace Engine

open Buffer

variable {α β : Type} {b c : Buffer} {e : Engine} {m : MarkerId × MarkerId} {k n : Nat}
  {lo hi : Int} {p : Partition} {narrow : Bool}

/-! ### Counting the edits -/

/-- How many insertions splicing makes. -/
def inserts (e : Engine) : Option Partition → Nat
  | none => 0
  | some p => if e.isSpliced then 0 else p.before.length + p.after.length

/-- How many deletions unsplicing makes. -/
def deletes (e : Engine) (b : Buffer) : Nat := if (e.region? b).isSome then 2 else 0

theorem eq_unspliced_of_inserts {p : Option Partition} (h : 0 < e.inserts p) : e = .unspliced := by
  cases e with
  | unspliced => rfl
  | spliced start stop =>
    cases p with
    | none => exact absurd h (Nat.lt_irrefl 0)
    | some p => exact absurd h (Nat.lt_irrefl 0)

theorem region?_isSome_of_deletes (h : 0 < e.deletes b) : (e.region? b).isSome := by
  by_contra hnone
  rw [deletes, if_neg hnone] at h
  exact Nat.lt_irrefl 0 h

/-! ### Rows that succeed -/

theorem andThen_eq_ok {x : Attempt α} {f : α → Buffer → Attempt β} {r : β} :
    andThen x f = (.ok r, c) ↔ ∃ a c', x = (.ok a, c') ∧ f a c' = (.ok r, c) := by
  rcases x with ⟨err | a, c'⟩
  · constructor
    · intro h
      cases h
    · rintro ⟨a, c', h, -⟩
      cases h
  · constructor
    · intro h
      exact ⟨a, c', rfl, h⟩
    · rintro ⟨a', c'', h, h'⟩
      cases h
      exact h'

/-- Rows that begin alike and go on alike where they succeed. -/
theorem andThen_congr {x : Attempt α} {f f' : α → Buffer → Attempt β}
    (h : ∀ a c, x = (.ok a, c) → f a c = f' a c) : andThen x f = andThen x f' := by
  rcases x with ⟨err | a, c⟩
  · rfl
  · exact h a c rfl

theorem moveTo_ok {x : Int} {q : Pos} (h : b.locate q = .ok x) :
    moveTo q b = (.ok (), { b with point := b.clamp x }) := by
  rw [moveTo, goto_eq h]
  rfl

/-! ### Faults in a row of insertions -/

/-- The number of the next edit counts the blocks that have been put in. -/
theorem insertBefore_ok_count {start : MarkerId} {blocks : List Block}
    (h : insertBefore none start n b blocks = (.ok k, c)) : k = n + blocks.length := by
  induction blocks generalizing b n with
  | nil =>
    cases h
    rfl
  | cons block rest ih =>
    rw [insertBefore_cons, if_neg nofun] at h
    obtain ⟨s, c', -, h⟩ := andThen_eq_ok.1 h
    rw [ih h, List.length_cons]
    omega

/-- A fault that is not at one of the edits does not matter. -/
theorem insertBefore_unhit {start : MarkerId} {blocks : List Block}
    (h : k < n ∨ n + blocks.length ≤ k) :
    insertBefore (some k) start n b blocks = insertBefore none start n b blocks := by
  -- the numbers of the edits go up from `n`, and none of them is `k`
  induction blocks generalizing b n with
  | nil => rfl
  | cons block rest ih =>
    have hne : ¬ some k = some n := by
      rw [Option.some.injEq]
      rw [List.length_cons] at h
      omega
    rw [insertBefore_cons, insertBefore_cons, if_neg hne, if_neg nofun]
    refine andThen_congr fun _ c _ => ih ?_
    rw [List.length_cons] at h
    omega

/-- A fault at one of the edits is hit if there is nothing else that the row fails at. -/
theorem insertBefore_hit {start : MarkerId} {blocks : List Block} {r : Nat}
    (h : insertBefore none start n b blocks = (.ok r, c)) (hn : n ≤ k)
    (hk : k < n + blocks.length) :
    ∃ c', insertBefore (some k) start n b blocks = (.error .interrupted, c') := by
  -- the row without the fault tells what the buffer is when the edit `k` comes
  induction blocks generalizing b n with
  | nil =>
    rw [List.length_nil] at hk
    omega
  | cons block rest ih =>
    rw [insertBefore_cons, if_neg nofun] at h
    obtain ⟨s, c', hins, h⟩ := andThen_eq_ok.1 h
    rw [insertBefore_cons]
    by_cases heq : k = n
    · exact ⟨b, if_pos (congrArg some heq)⟩
    · -- the fault comes later, and this insertion succeeds as it did without it
      rw [if_neg fun hsome => heq (Option.some.inj hsome), hins]
      rw [List.length_cons] at hk
      exact ih h (by omega) (by omega)

theorem insertAfter_unhit {spot : Int} {blocks : List Block} (h : k < n ∨ n + blocks.length ≤ k) :
    insertAfter (some k) spot n b blocks = insertAfter none spot n b blocks := by
  induction blocks generalizing b n spot with
  | nil => rfl
  | cons block rest ih =>
    have hne : ¬ some k = some n := by
      rw [Option.some.injEq]
      rw [List.length_cons] at h
      omega
    rw [insertAfter_cons, insertAfter_cons, if_neg hne, if_neg nofun]
    refine andThen_congr fun _ c _ => ih ?_
    rw [List.length_cons] at h
    omega

theorem insertAfter_hit {spot : Int} {blocks : List Block}
    (h : insertAfter none spot n b blocks = (.ok (), c)) (hn : n ≤ k)
    (hk : k < n + blocks.length) :
    ∃ c', insertAfter (some k) spot n b blocks = (.error .interrupted, c') := by
  induction blocks generalizing b n spot with
  | nil =>
    rw [List.length_nil] at hk
    omega
  | cons block rest ih =>
    rw [insertAfter_cons, if_neg nofun] at h
    obtain ⟨s, c', hins, h⟩ := andThen_eq_ok.1 h
    rw [insertAfter_cons]
    by_cases heq : k = n
    · exact ⟨b, if_pos (congrArg some heq)⟩
    · rw [if_neg fun hsome => heq (Option.some.inj hsome), hins]
      rw [List.length_cons] at hk
      exact ih h (by omega) (by omega)

/-! ### Splicing succeeds -/

/-- **The region while context is put in**: its two markers are in the view and in order. `starts`
and `stops` say whether they advance. -/
structure Between (b : Buffer) (m : MarkerId × MarkerId) (lo hi : Int) (starts stops : Bool) :
    Prop where
  ne : m.1 ≠ m.2
  start : b.markers[m.1]? = some ⟨some lo, starts⟩
  stop : b.markers[m.2]? = some ⟨some hi, stops⟩
  low_le : b.low ≤ lo
  le : lo ≤ hi
  le_high : hi ≤ b.high
  view : b.ViewInText
  unlocked : b.unlocked = true

theorem openRegion_eq (hv : b.ViewInText) :
    openRegion b = (.ok (b.markers.length, b.markers.length + 1), b.marked) := by
  have hlow := hv.low_nonneg
  have hle := hv.low_le_high
  have hhigh := hv.high_le_size
  let b₁ : Buffer := { b with markers := b.markers ++ [⟨some b.low, true⟩] }
  have hlen : b₁.markers.length = b.markers.length + 1 := List.length_append
  have hstart : b.makeMarker (.at b.low) true = .ok (b₁, b.markers.length) :=
    makeMarker_eq_ok_iff.2 ⟨b.low, rfl, ⟨hlow, Int.le_trans hle hhigh⟩, rfl⟩
  have hstop : b₁.makeMarker (.at b₁.high) true
      = .ok ({ b₁ with markers := b₁.markers ++ [⟨some b.high, true⟩] }, b₁.markers.length) :=
    makeMarker_eq_ok_iff.2 ⟨b.high, rfl, ⟨Int.le_trans hlow hle, hhigh⟩, rfl⟩
  have hmarked : { b₁ with markers := b₁.markers ++ [⟨some b.high, true⟩] } = b.marked := by
    change ({ b with markers := b.markers ++ [_] ++ [_] } : Buffer) = _
    rw [List.append_assoc]
    rfl
  rw [openRegion, hstart, attempt, andThen_ok, hstop, attempt, andThen_ok, hmarked, hlen]

/-- The markers of the region are made at the ends of the view. -/
theorem between_marked (hv : b.ViewInText) (hu : b.unlocked = true) :
    Between b.marked (b.markers.length, b.markers.length + 1) b.low b.high true true where
  ne := Nat.ne_of_lt (Nat.lt_succ_self _)
  start := by
    change (b.markers ++ _)[b.markers.length]? = _
    rw [List.getElem?_append_right (Nat.le_refl _), Nat.sub_self]
    rfl
  stop := by
    change (b.markers ++ _)[b.markers.length + 1]? = _
    rw [List.getElem?_append_right (Nat.le_add_right _ 1), Nat.add_sub_cancel_left]
    rfl
  low_le := Int.le_refl _
  le := hv.low_le_high
  le_high := Int.le_refl _
  view := hv.congr rfl rfl
  unlocked := hu

namespace Between

variable {i : Int} {starts stops : Bool} {blocks : List Block}

theorem bounds (h : Between b m lo hi starts stops) : 0 ≤ lo ∧ hi ≤ b.size :=
  ⟨Int.le_trans h.view.low_nonneg h.low_le, Int.le_trans h.le_high h.view.high_le_size⟩

theorem markerPosition (h : Between b m lo hi starts stops) :
    b.markerPosition m.1 = some lo ∧ b.markerPosition m.2 = some hi :=
  ⟨by rw [Buffer.markerPosition, h.start], by rw [Buffer.markerPosition, h.stop]⟩

theorem region? (h : Between b m lo hi starts stops) :
    (Engine.spliced m.1 m.2).region? b = some (lo, hi) := by
  obtain ⟨h₀, hsize⟩ := h.bounds
  exact region?_eq_some_iff.2 ⟨h.markerPosition.1, h.markerPosition.2, h₀, h.le, hsize⟩

theorem turnStart (h : Between b m lo hi starts stops) (on : Bool) :
    Between (b.setAdvances m.1 on) m lo hi on stops where
  ne := h.ne
  start := by rw [markers_setAdvances_self h.start]
  stop := by rw [markers_setAdvances_of_ne h.ne.symm, h.stop]
  low_le := h.low_le
  le := h.le
  le_high := h.le_high
  view := h.view.congr rfl rfl
  unlocked := h.unlocked

theorem turnStop (h : Between b m lo hi starts stops) (on : Bool) :
    Between (b.setAdvances m.2 on) m lo hi starts on where
  ne := h.ne
  start := by rw [markers_setAdvances_of_ne h.ne, h.start]
  stop := by rw [markers_setAdvances_self h.stop]
  low_le := h.low_le
  le := h.le
  le_high := h.le_high
  view := h.view.congr rfl rfl
  unlocked := h.unlocked

/-- An insertion in the view moves the region along, whichever way its markers are turned. -/
theorem insertText {on : Bool} (h : Between b m lo hi on on) (hlow : b.low ≤ i)
    (hhigh : i ≤ b.high) (t : Text) (ss : List Span) :
    Between ((b.insertText i t).addSpans ss) m (afterInsert i t.length on lo)
      (afterInsert i t.length on hi) on on := by
  have hlen : (0 : Int) ≤ t.length := Int.natCast_nonneg _
  have h₀ : 0 ≤ i := Int.le_trans h.view.low_nonneg hlow
  constructor
  case ne => exact h.ne
  case start => exact markers_insertText_getElem? h.start i t
  case stop => exact markers_insertText_getElem? h.stop i t
  case low_le =>
    calc (b.insertText i t).low = b.low := insertText_low hlow
      _ ≤ lo := h.low_le
      _ ≤ afterInsert i t.length on lo := le_afterInsert hlen
  case le => exact afterInsert_mono h.le hlen
  case le_high =>
    calc afterInsert i t.length on hi ≤ hi + t.length := afterInsert_le hlen
      _ ≤ b.high + t.length := Int.add_le_add_right h.le_high _
      _ = (b.insertText i t).high := (insertText_high h₀ hhigh).symm
  case view => exact (h.view.insertText hlow hhigh t).congr rfl rfl
  case unlocked => exact h.unlocked

/-- The blocks before go in at the start, and the whole region moves behind them. -/
theorem insertBefore (h : Between b m lo hi true true) (k : Nat) (blocks : List Block) :
    let ts := blocks.map Block.segmentBefore
    Engine.insertBefore none m.1 k b blocks = (.ok (k + blocks.length), b.putRow lo ts) ∧
      Between (b.putRow lo ts) m (lo + ts.flatten.length) (hi + ts.flatten.length) true true := by
  intro ts
  obtain ⟨h₀, hsize⟩ := h.bounds
  have hhigh : lo ≤ b.high := Int.le_trans h.le h.le_high
  have hrow := insertBefore_eq k h.start h.unlocked h.low_le hhigh h₀ (Int.le_trans h.le hsize)
    blocks
  have hmoved := h.insertText h.low_le hhigh ts.flatten (contextSpans lo ts)
  rw [afterInsert_of_ge (Int.le_refl lo), afterInsert_of_ge h.le] at hmoved
  exact ⟨hrow, hmoved⟩

/-- The blocks behind go in at the stop, and the region stays where it is. -/
theorem insertAfter (h : Between b m lo hi false false) (k : Nat) (blocks : List Block) :
    let ts := blocks.map Block.segmentAfter
    Engine.insertAfter none hi k b blocks = (.ok (), b.putRow hi ts) ∧
      Between (b.putRow hi ts) m lo hi false false := by
  intro ts
  obtain ⟨h₀, hsize⟩ := h.bounds
  have hlow : b.low ≤ hi := Int.le_trans h.low_le h.le
  have hrow := insertAfter_eq k h.unlocked hlow h.le_high (Int.le_trans h₀ h.le) hsize blocks
  have hmoved := h.insertText hlow h.le_high ts.flatten (contextSpans hi ts)
  rw [afterInsert_of_le h.le, afterInsert_of_le (Int.le_refl hi)] at hmoved
  exact ⟨hrow, hmoved⟩

theorem fillBehind (h : Between b m lo hi true true) (k : Nat) (blocks : List Block) :
    let c := (((b.setAdvances m.1 false).setAdvances m.2 false).putRow hi
      (blocks.map Block.segmentAfter)).setAdvances m.2 true
    Engine.fillBehind none m.1 m.2 k b blocks = (.ok (), c) ∧ Between c m lo hi false true := by
  intro c
  -- both markers are told to stay, the blocks go in, and the stop is told to advance again
  have hstay := (h.turnStart false).turnStop false
  obtain ⟨hafter, hc⟩ := hstay.insertAfter k blocks
  refine ⟨?_, hc.turnStop true⟩
  have hstop : ((b.setAdvances m.1 false).setAdvances m.2 false).locate (.marker m.2) = .ok hi :=
    locate_marker hstay.markerPosition.2
  rw [Engine.fillBehind, whereIs, hstop, andThen_ok, hafter, andThen_ok]

/-- Entering the region moves the view and the point only. -/
theorem enterRegion (h : Between b m lo hi starts stops) (narrow : Bool) :
    ∃ view point, Engine.enterRegion narrow m.1 m.2 b
      = (.ok (), { b with view := view, point := point }) := by
  obtain ⟨h₀, hsize⟩ := h.bounds
  obtain ⟨hstart, hstop⟩ := h.markerPosition
  unfold Engine.enterRegion enclose
  cases narrow with
  | false =>
    rw [if_neg Bool.false_ne_true, andThen_ok]
    exact ⟨b.view, _, moveTo_ok (locate_marker hstart)⟩
  | true =>
    have hnarrow := narrow_eq (locate_marker hstart) (locate_marker hstop) h₀ h.le hsize
    rw [if_pos rfl, hnarrow, andThen_ok]
    -- narrowing has moved the point, and the markers are where they were
    exact ⟨some (lo, hi), _, moveTo_ok (x := lo) (locate_marker hstart)⟩

end Between

/-- **Splicing succeeds** wherever the view is a stretch of the text. It surrounds what is in the
view and moves the view and the point to the region. -/
theorem spliceText_surround (hv : b.ViewInText) (hu : b.unlocked = true) (p : Partition)
    (narrow : Bool) :
    ∃ view point, spliceText none p narrow b
        = (.ok (b.markers.length, b.markers.length + 1),
            { b.surround p with view := view, point := point }) ∧
      Between (b.surround p) (b.markers.length, b.markers.length + 1)
        (b.low + p.textBefore.length) (b.high + p.textBefore.length) false true := by
  obtain ⟨hbefore, h₁⟩ := (between_marked hv hu).insertBefore 1 p.before
  obtain ⟨hafter, h₂⟩ := h₁.fillBehind (1 + p.before.length) p.after
  obtain ⟨view, point, henter⟩ := h₂.enterRegion narrow
  refine ⟨view, point, ?_, h₂⟩
  rw [spliceText_eq, openRegion_eq hv, andThen_ok, hbefore, andThen_ok, hafter, andThen_ok, henter,
    andThen_ok]
  rfl

/-- The markers that splicing makes enclose the region. -/
theorem spliceText_ok (hv : b.ViewInText) (hu : b.unlocked = true) (p : Partition) (narrow : Bool) :
    ∃ m c, spliceText none p narrow b = (.ok m, c) ∧ c.Encloses m.1 m.2 := by
  obtain ⟨view, point, hsplice, hbetween⟩ := spliceText_surround hv hu p narrow
  exact ⟨_, _, hsplice, _, _, hbetween.start, hbetween.stop, hbetween.le⟩

/-! ### Faults in splicing and unsplicing -/

/-- A fault at one of the insertions is hit. -/
theorem spliceText_hit (h : spliceText none p narrow b = (.ok m, c)) (hk : 1 ≤ k)
    (hle : k ≤ p.before.length + p.after.length) :
    ∃ c', spliceText (some k) p narrow b = (.error .interrupted, c') := by
  rw [spliceText_eq] at h
  obtain ⟨m, b₁, hopen, h⟩ := andThen_eq_ok.1 h
  obtain ⟨j, b₂, hbefore, h⟩ := andThen_eq_ok.1 h
  obtain ⟨u, b₃, hfill, -⟩ := andThen_eq_ok.1 h
  have hj : j = 1 + p.before.length := insertBefore_ok_count hbefore
  rw [spliceText_eq, hopen, andThen_ok]
  by_cases hside : k < 1 + p.before.length
  · -- the fault is before the region
    obtain ⟨c', hc⟩ := insertBefore_hit hbefore hk hside
    rw [hc, andThen_error]
    exact ⟨c', rfl⟩
  · -- it is behind the region, and the blocks before have been put in
    have hge : 1 + p.before.length ≤ k := Nat.not_lt.1 hside
    rw [insertBefore_unhit (.inr hge), hbefore, andThen_ok]
    obtain ⟨spot, b', hspot, hfill⟩ := andThen_eq_ok.1 hfill
    obtain ⟨u', c₁, hafter, -⟩ := andThen_eq_ok.1 hfill
    obtain ⟨c', hc⟩ := insertAfter_hit hafter (hj ▸ hge) (by omega)
    rw [fillBehind, hspot, andThen_ok, hc, andThen_error, andThen_error]
    exact ⟨c', rfl⟩

/-- A fault elsewhere does not matter. -/
theorem spliceText_unhit (h : k < 1 ∨ p.before.length + p.after.length < k) :
    spliceText (some k) p narrow b = spliceText none p narrow b := by
  rw [spliceText_eq, spliceText_eq]
  refine andThen_congr fun m b₁ _ => ?_
  rw [insertBefore_unhit (h.imp_right fun h => by omega)]
  refine andThen_congr fun j b₂ hbefore => ?_
  have hj : j = 1 + p.before.length := insertBefore_ok_count hbefore
  have hfill : fillBehind (some k) m.1 m.2 j b₂ p.after
      = fillBehind none m.1 m.2 j b₂ p.after := by
    refine andThen_congr fun spot b' _ => ?_
    rw [insertAfter_unhit (by omega)]
  rw [hfill]

/-- The markers of a splice that succeeds enclose the region. -/
theorem encloses_of_spliceText {fault : Option Nat} (hv : b.ViewInText) (hu : b.unlocked = true)
    (h : spliceText fault p narrow b = (.ok m, c)) : c.Encloses m.1 m.2 := by
  obtain ⟨m', c', hok, henclosed⟩ := spliceText_ok hv hu p narrow
  have hnone : spliceText none p narrow b = (.ok m, c) := by
    cases fault with
    | none => exact h
    | some k =>
      by_cases hk : k < 1 ∨ p.before.length + p.after.length < k
      · rw [← spliceText_unhit hk]
        exact h
      · -- it would have been broken off
        obtain ⟨c'', hhit⟩ := spliceText_hit (k := k) hok (by omega) (by omega)
        rw [h] at hhit
        cases hhit
  rw [hok] at hnone
  cases hnone
  exact henclosed

theorem deleteStep_hit (k : Nat) (x y : Pos) (b : Buffer) :
    deleteStep (some k) k x y b = (.error .interrupted, b) := if_pos rfl

theorem deleteStep_unhit (h : k ≠ n) (x y : Pos) (b : Buffer) :
    deleteStep (some k) n x y b = deleteStep none n x y b := by
  rw [deleteStep, if_neg fun heq => h (Option.some.inj heq), deleteStep,
    if_neg (Option.some_ne_none n).symm]

/-- A fault at one of the two deletions is hit. -/
theorem unspliceText_hit (h : unspliceText none m.1 m.2 b = (.ok (), c)) (hk : 1 ≤ k)
    (hle : k ≤ 2) : ∃ c', unspliceText (some k) m.1 m.2 b = (.error .interrupted, c') := by
  rw [unspliceText_eq] at h
  obtain ⟨u, b₁, htail, -⟩ := andThen_eq_ok.1 h
  rw [unspliceText_eq]
  by_cases hfirst : k = 1
  · rw [hfirst, deleteStep_hit, andThen_error]
    exact ⟨_, rfl⟩
  · have hsecond : k = 2 := by omega
    rw [deleteStep_unhit hfirst, htail, andThen_ok, hsecond, deleteStep_hit, andThen_error]
    exact ⟨_, rfl⟩

theorem unspliceText_unhit (h : k < 1 ∨ 2 < k) :
    unspliceText (some k) m.1 m.2 b = unspliceText none m.1 m.2 b := by
  rw [unspliceText_eq, unspliceText_eq, deleteStep_unhit (by omega)]
  refine andThen_congr fun _ b₁ _ => ?_
  rw [deleteStep_unhit (by omega)]

/-! ### What is left of an attempt that breaks off -/

/-- **Splicing that breaks off** is taken back, and the engine is as it was. -/
theorem splice_hit {p : Option Partition} (hv : b.ViewInText) (hk : 1 ≤ k)
    (hle : k ≤ e.inserts p) (narrow : Bool) :
    ∃ b', e.splice b p narrow (some k) = ⟨.error .interrupted, b.restoredAfter b', e, []⟩ ∧
      b.Tracks b' := by
  have hpos : 0 < e.inserts p := Nat.lt_of_lt_of_le hk hle
  obtain rfl := eq_unspliced_of_inserts hpos
  cases p with
  | none => exact absurd hpos (Nat.lt_irrefl 0)
  | some p =>
    change 0 < p.before.length + p.after.length at hpos
    have hp : p.isEmpty = false := by
      rw [Partition.isEmpty, Bool.and_eq_false_iff, List.isEmpty_eq_false_iff,
        List.isEmpty_eq_false_iff, ← List.length_pos_iff, ← List.length_pos_iff]
      exact Nat.add_pos_iff_pos_or_pos.1 hpos
    have hv' : ({ b with unlocked := true } : Buffer).ViewInText := hv.congr rfl rfl
    obtain ⟨m, c, hok, -⟩ := spliceText_ok hv' rfl p narrow
    obtain ⟨c', hhit⟩ := spliceText_hit hok hk hle
    have hleads := leads_unlocked (fun c => leads_spliceText p narrow c) hhit
    refine ⟨_, ?_, hleads.tracks_self⟩
    simp only [splice, hp, Bool.false_eq_true, if_false, atomically, withUnlocked, hhit]

/-- A fault that is at none of the insertions does not matter. -/
theorem splice_unhit {p : Option Partition} (h : ¬(1 ≤ k ∧ k ≤ e.inserts p)) (b : Buffer)
    (narrow : Bool) : e.splice b p narrow (some k) = e.splice b p narrow none := by
  cases e with
  | spliced start stop => rfl
  | unspliced =>
    cases p with
    | none => rfl
    | some p =>
      have hside : k < 1 ∨ p.before.length + p.after.length < k := by
        change ¬(1 ≤ k ∧ k ≤ p.before.length + p.after.length) at h
        omega
      have hsame : spliceText (some k) p narrow = spliceText none p narrow :=
        funext fun b => spliceText_unhit hside
      simp only [splice, hsame]

/-- **Unsplicing that breaks off** is taken back, and the engine is as it was. -/
theorem unsplice_hit (hk : 1 ≤ k) (hle : k ≤ e.deletes b) :
    ∃ b', e.unsplice b (some k) = ⟨.error .interrupted, b.restoredAfter b', e, []⟩ ∧
      b.Tracks b' := by
  obtain ⟨r, hregion⟩ :=
    Option.isSome_iff_exists.1 (region?_isSome_of_deletes (Nat.lt_of_lt_of_le hk hle))
  cases e with
  | unspliced => cases hregion
  | spliced start stop =>
    rw [deletes, hregion] at hle
    obtain ⟨c', hhit⟩ := unspliceText_hit (m := (start, stop)) (unspliceText_ok hregion) hk hle
    have hleads := leads_unlocked (fun c => leads_unspliceText start stop c) hhit
    refine ⟨_, ?_, hleads.tracks_self⟩
    simp only [unsplice, hregion, atomically, withUnlocked, hhit]

theorem unsplice_unhit (h : ¬(1 ≤ k ∧ k ≤ e.deletes b)) :
    e.unsplice b (some k) = e.unsplice b none := by
  cases e with
  | unspliced => rfl
  | spliced start stop =>
    cases hregion : (Engine.spliced start stop).region? b with
    | none => simp only [unsplice, hregion]
    | some r =>
      have hside : k < 1 ∨ 2 < k := by
        rw [deletes, hregion] at h
        change ¬(1 ≤ k ∧ k ≤ 2) at h
        omega
      have hsame : unspliceText (some k) start stop = unspliceText none start stop :=
        funext fun b => unspliceText_unhit (m := (start, stop)) hside
      simp only [unsplice, hregion, hsame]

end Engine

end LiterateEdit
