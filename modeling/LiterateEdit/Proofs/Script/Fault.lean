import LiterateEdit.Proofs.Context.Fault
import LiterateEdit.Proofs.Script.Rename
import LiterateEdit.Proofs.Script.Rollback

/-!
# A failed splice never happened

When a host breaks off in the middle of splicing or unsplicing, the desk is as it was before, and so
is everything that happens afterwards: a later script, such as one that tries again, runs as if
there had been no attempt (`Desk.NeverHappened`, `Desk.failed_splice_never_happened`).

The second half is not a matter of the buffer being equal to the one before, because it is not. The
markers that a failed attempt made for its region are given up, but their names are used, so that
the next marker gets another name than it would have got. Names are what the engine and the script
hold. The desk behind the attempt is therefore the desk before under a renaming, which leaves the
names that there were and skips those that are used up (`skip`), and no script can tell two such
desks apart. This needs that the script only holds names that have been given out
(`Desk.Reachable.named`), and so does the engine.
-/

namespace LiterateEdit

/-! ### Skipping names -/

/-- The renaming that leaves the first `n` names and skips the next `k` ones. -/
def skip (n k m : Nat) : Nat := if m < n then m else m + k

section Skip

variable {n k m m' : Nat}

theorem skip_of_lt (h : m < n) : skip n k m = m := if_pos h

theorem skip_of_le (h : n ≤ m) : skip n k m = m + k := if_neg (Nat.not_lt.2 h)

theorem skip_injective (n k : Nat) : Function.Injective (skip n k) := by
  intro m m' h
  by_cases hm : m < n
  · by_cases hm' : m' < n
    · rwa [skip_of_lt hm, skip_of_lt hm'] at h
    · rw [skip_of_lt hm, skip_of_le (Nat.not_lt.1 hm')] at h
      omega
  · by_cases hm' : m' < n
    · rw [skip_of_le (Nat.not_lt.1 hm), skip_of_lt hm'] at h
      omega
    · rw [skip_of_le (Nat.not_lt.1 hm), skip_of_le (Nat.not_lt.1 hm')] at h
      exact Nat.add_right_cancel h

/-- A table that has grown knows its markers by the names that they had, and its next names come
later. -/
theorem names_append (ms gone : List Marker) :
    Names (skip ms.length gone.length) ms (ms ++ gone) where
  injective := skip_injective _ _
  lookup m := by
    by_cases hm : m < ms.length
    · rw [skip_of_lt hm, List.getElem?_append_left hm]
    · have hge : ms.length ≤ m := Nat.not_lt.1 hm
      have hlen : (ms ++ gone).length ≤ m + gone.length := by
        rw [List.length_append]
        exact Nat.add_le_add_right hge _
      rw [skip_of_le hge, List.getElem?_eq_none hlen, List.getElem?_eq_none hge]
  next j := by
    rw [skip_of_le (Nat.le_add_right _ _), List.length_append, Nat.add_right_comm]

end Skip

/-- **A buffer that is taken back** is the one before under other names. -/
theorem Buffer.Tracks.renamed {b b' : Buffer} (h : b.Tracks b') :
    ∃ k, b.Renamed (skip b.markers.length k) (b.restoredAfter b') := by
  rw [h.restoredAfter_eq]
  exact ⟨_, .intro (names_append _ _)⟩

/-- The markers of a region have been made. -/
theorem Engine.rename_skip {e : Engine} {b : Buffer} (h : (e.region? b).isSome) (k : Nat) :
    e.rename (skip b.markers.length k) = e := by
  cases e with
  | unspliced => rfl
  | spliced start stop =>
    obtain ⟨⟨lo, hi⟩, hregion⟩ := Option.isSome_iff_exists.1 h
    obtain ⟨hstart, hstop, -⟩ := region?_eq_some_iff.1 hregion
    rw [rename, skip_of_lt (Buffer.lt_of_markerPosition hstart),
      skip_of_lt (Buffer.lt_of_markerPosition hstop)]

namespace Desk

open Buffer

variable {d : Desk} {s : Step}

/-! ### The names that a script holds -/

/-- The markers of the script have been made. -/
def Named (d : Desk) : Prop := ∀ m ∈ d.markers, m < d.buffer.markers.length

/-- That a script holds only names that have been given out holds all along it. -/
theorem preserves_named : Preserves Named fun _ => True where
  take d s _ h := by
    obtain ⟨made, hmade, hnew⟩ := d.take_made s
    have hlen := (d.take_becomes s).tracks.length_le
    intro m hm
    rw [hmade] at hm
    rcases List.mem_append.1 hm with hold | hm
    · exact Nat.lt_of_lt_of_le (h m hold) hlen
    · exact (hnew m hm).2
  unlocked _ _ _ := ⟨fun _ _ => trivial, fun _ _ h => h⟩
  atomic _ _ _ _ := by
    refine ⟨fun _ _ => trivial, fun d d' _ h' m hm => ?_⟩
    -- a group that is taken back keeps the names that were given out in it
    change m < (d'.buffer.markers.mapIdx d.buffer.reattached).length
    rw [List.length_mapIdx]
    exact h' m hm

theorem Reachable.named (h : d.Reachable) : d.Named :=
  h.of_preserves preserves_named fun _ _ _ hm => absurd hm List.not_mem_nil

/-! ### Steps that never happened -/

/-- **The step breaks off and has never happened.** -/
structure NeverHappened (d : Desk) (s : Step) : Prop where
  outcome : (d.take s).outcome = .error .interrupted
  notices : (d.take s).notices = []
  /-- A script that is told to stop ends with the failure. -/
  propagates : ∀ rest, d.runAll true (s :: rest)
    = ((d.take s).desk, [d.take s], some .interrupted)
  buffer : d.buffer.AsBefore (d.take s).desk.buffer
  engine : (d.take s).desk.engine = d.engine
  markers : (d.take s).desk.markers = d.markers
  /-- No script can tell whether there was the attempt. -/
  later : ∀ stops steps, SameRun (d.runAll stops steps) ((d.take s).desk.runAll stops steps)

/-- A step that breaks off and is taken back has never happened. -/
theorem neverHappened {b' : Buffer} (hs : s.isGroup = false) (hnamed : d.Named)
    (htake : d.take s = ⟨.error .interrupted,
      { d with buffer := d.buffer.restoredAfter b' }, []⟩)
    (htracks : d.buffer.Tracks b')
    (hengine : ∀ k, d.engine.rename (skip d.buffer.markers.length k) = d.engine) :
    d.NeverHappened s := by
  have hfail : failure? [d.take s] = some .interrupted := by
    rw [htake]
    rfl
  have hrun : d.run s = ((d.take s).desk, [d.take s]) := run_of_take hs
  -- the desk behind the step is `d` under the names that skip those that the step used up
  obtain ⟨k, hbuffer⟩ := htracks.renamed
  have hrenamed : d.Renamed (skip d.buffer.markers.length k) (d.take s).desk := by
    rw [htake]
    refine ⟨hbuffer, (hengine k).symm, ?_⟩
    -- the script's own markers are among those that there were
    have hids : ∀ m ∈ d.markers, skip d.buffer.markers.length k m = m := fun m hm =>
      skip_of_lt (hnamed m hm)
    exact ((List.map_congr_left hids).trans (List.map_id' _)).symm
  constructor
  case outcome => rw [htake]
  case notices => rw [htake]
  case propagates =>
    intro rest
    have hfail' : failure? (d.run s).2 = some .interrupted := by rw [hrun, hfail]
    rw [runAll_cons_of_failed rfl hfail', hrun]
  case buffer =>
    rw [htake]
    exact htracks.asBefore
  case engine => rw [htake]
  case markers => rw [htake]
  case later => exact hrenamed.sameRun

/-- **Splicing that breaks off.** -/
theorem splice_neverHappened (hv : d.buffer.ViewInText) (hnamed : d.Named) {p : Option Partition}
    {n : Nat} (hn : 1 ≤ n) (hle : n ≤ d.engine.inserts p) (narrow : Bool) :
    d.NeverHappened (.splice p narrow (some n)) := by
  obtain ⟨b', hsplice, htracks⟩ := Engine.splice_hit hv hn hle narrow
  refine neverHappened rfl hnamed ?_ htracks fun k => ?_
  · rw [take, hsplice]
    rfl
  · rw [Engine.eq_unspliced_of_inserts (Nat.lt_of_lt_of_le hn hle)]
    rfl

/-- **Unsplicing that breaks off.** -/
theorem unsplice_neverHappened (hnamed : d.Named) {n : Nat} (hn : 1 ≤ n)
    (hle : n ≤ d.engine.deletes d.buffer) : d.NeverHappened (.unsplice (some n)) := by
  obtain ⟨b', hunsplice, htracks⟩ := Engine.unsplice_hit hn hle
  refine neverHappened rfl hnamed ?_ htracks ?_
  · rw [take, hunsplice]
    rfl
  · exact Engine.rename_skip (Engine.region?_isSome_of_deletes (Nat.lt_of_lt_of_le hn hle))

/-- **A failed splice or unsplice never happened.** If the host breaks off at any of the insertions
that splicing makes, or at any of the deletions that unsplicing makes, then the desk is as it was
before, now and for every script that follows. A fault at another number is at none of them, and the
step does what it does without a fault. -/
theorem failed_splice_never_happened (hd : d.Reachable) :
    (∀ p narrow n, 1 ≤ n → n ≤ d.engine.inserts p →
        d.NeverHappened (.splice p narrow (some n))) ∧
      (∀ n, 1 ≤ n → n ≤ d.engine.deletes d.buffer → d.NeverHappened (.unsplice (some n))) ∧
      (∀ p narrow n, ¬(1 ≤ n ∧ n ≤ d.engine.inserts p) →
        d.take (.splice p narrow (some n)) = d.take (.splice p narrow none)) ∧
      ∀ n, ¬(1 ≤ n ∧ n ≤ d.engine.deletes d.buffer) →
        d.take (.unsplice (some n)) = d.take (.unsplice none) := by
  refine ⟨?_, ?_, ?_, ?_⟩
  · intro p narrow n hn hle
    exact splice_neverHappened hd.viewInText hd.named hn hle narrow
  · intro n hn hle
    exact unsplice_neverHappened hd.named hn hle
  · intro p narrow n hout
    rw [take, Engine.splice_unhit hout, take]
  · intro n hout
    rw [take, Engine.unsplice_unhit hout, take]

/-- The last insertion of a splice on a narrowed desk with a marker fails and the splice is tried
again; then the last deletion of unsplicing fails. -/
theorem failed_splice_never_happened_retried :
    let p := Partition.between (Text.lit "x") (Text.lit "y")
    let start : List Step := [.insert (.at 0) (Text.lit "abcd") (some contextProps),
      .makeMarker (.at 2) true, .narrow (.at 1) (.at 3)]
    let d := ((fresh []).runAll false start).1
    let d' := ((fresh []).runAll false (start ++ [.splice (some p) true none])).1
    (d.engine.inserts (some p) = 2 ∧ d'.engine.deletes d'.buffer = 2) ∧
      d'.buffer.visible = Text.lit "bc" ∧ d'.buffer.size = 8 ∧
      d.NeverHappened (.splice (some p) true (some 2)) ∧
      d'.NeverHappened (.unsplice (some 2)) ∧
      ((d.take (.splice (some p) true (some 2))).desk.runAll false
        [.splice (some p) true none]).1.buffer.text = d'.buffer.text := by
  intro p start d d'
  have hd : d.Reachable := reachable_runAll [] false _ _
  have hd' : d'.Reachable := reachable_runAll [] false _ _
  have hcount : d.engine.inserts (some p) = 2 ∧ d'.engine.deletes d'.buffer = 2 := by
    decide +kernel
  have hshown : d'.buffer.visible = Text.lit "bc" ∧ d'.buffer.size = 8 := by decide +kernel
  have hfailed := (failed_splice_never_happened hd).1 (some p) true 2 (by decide)
    (Nat.le_of_eq hcount.1.symm)
  have hfailed' := (failed_splice_never_happened hd').2.1 2 (by decide)
    (Nat.le_of_eq hcount.2.symm)
  refine ⟨hcount, hshown.1, hshown.2, hfailed, hfailed', ?_⟩
  -- what the second attempt makes is what it would have made without the first one
  rw [(hfailed.later false [.splice (some p) true none]).last.buffer]
  decide +kernel

end Desk

end LiterateEdit
