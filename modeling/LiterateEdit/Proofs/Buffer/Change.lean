import LiterateEdit.Proofs.Buffer.Accepted
import Mathlib.Logic.Relation

/-!
# Changes of a buffer

All that is ever done to a buffer is done by a few kinds of changes. `Buffer.Change` lists them,
each with what the operations check before they carry it out, and `Buffer.Leads` is a row of them.
The operations are opened once, in the second section, to see that each of them leads from the
buffer before it to the one behind it; what holds of every change holds of every operation then.

Two things are derived in this way:

* `ViewInText`, that the view is a stretch of the text. An edit is only asked whether it lies in the
  view, so this is what makes it an edit of the text.
* `Tracks b b'`, that `b'` still knows the markers of `b`: the table of markers has only grown,
  markers that had no place have none, and nobody has touched them. It is what taking a buffer back
  relies on (`Tracks.restoredAfter_eq`), because only markers that had a place are set back.

The parameter `n` of a change is the number of markers that there were when the operation began.
An operation may only say of markers that it made itself whether they advance.
-/

namespace LiterateEdit

namespace Buffer

variable {b b' b'' c : Buffer} {n : Nat} {i j x y : Int} {p q : Pos} {t : Text}

/-! ### The changes -/

/-- One change of a buffer by an operation that began with `n` markers. -/
inductive Change (n : Nat) : Buffer → Buffer → Prop
  /-- An edit in the view. -/
  | edit {b : Buffer} {i j : Int} (t : Text) (hi : b.low ≤ i) (hij : i ≤ j) (hj : j ≤ b.high) :
      Change n b (b.put i j t)
  /-- More spans. -/
  | cover (b : Buffer) (ss : List Span) : Change n b (b.addSpans ss)
  /-- A new marker in the text. -/
  | mark {b : Buffer} {x : Int} (advances : Bool) (h₀ : 0 ≤ x) (hx : x ≤ b.size) :
      Change n b { b with markers := b.markers ++ [⟨some x, advances⟩] }
  /-- A marker is given up. -/
  | detach (b : Buffer) (m : MarkerId) : Change n b (b.deleteMarker m)
  /-- A marker of the operation is told to advance or to stay. -/
  | turn (b : Buffer) {m : MarkerId} (hm : n ≤ m) (advances : Bool) :
      Change n b (b.setAdvances m advances)
  /-- The point moves. -/
  | move (b : Buffer) (x : Int) : Change n b { b with point := x }
  /-- The user is confined to a stretch of the text. -/
  | confine {b : Buffer} {x y : Int} (h₀ : 0 ≤ x) (hxy : x ≤ y) (hy : y ≤ b.size) :
      Change n b { b with view := some (x, y) }
  /-- The view is given up. -/
  | release (b : Buffer) : Change n b b.widen

/-- A row of changes. -/
abbrev Leads (n : Nat) : Buffer → Buffer → Prop := Relation.ReflTransGen (Change n)

theorem put_setUnlocked (b : Buffer) (i j : Int) (t : Text) (on : Bool) :
    ({ b with unlocked := on } : Buffer).put i j t = { b.put i j t with unlocked := on } := by
  unfold put cut
  split
  · rfl
  · rfl

/-- No change looks at the protection. -/
theorem Change.setUnlocked (h : Change n b b') (on : Bool) :
    Change n { b with unlocked := on } { b' with unlocked := on } := by
  cases h with
  | edit t hi hij hj =>
    rw [← put_setUnlocked]
    exact .edit t hi hij hj
  | cover ss => exact .cover _ ss
  | mark advances h₀ hx => exact .mark advances h₀ hx
  | detach m => exact .detach _ m
  | turn hm advances => exact .turn _ hm advances
  | move x => exact .move _ x
  | confine h₀ hxy hy => exact .confine h₀ hxy hy
  | release => exact .release _

/-- What leads somewhere with the protection lifted leads there with the protection as it was. -/
theorem Leads.withUnlocked (h : Leads n { b with unlocked := true } b') :
    Leads n b { b' with unlocked := b.unlocked } :=
  Relation.ReflTransGen.lift (fun c : Buffer => { c with unlocked := b.unlocked })
    (fun _ _ hc => hc.setUnlocked b.unlocked) _ _ h

/-! ### What the operations do -/

theorem leads_insert {props : Option Props} {r : Buffer × Option Span}
    (h : b.insert p t props = .ok r) : Leads n b r.1 := by
  obtain ⟨i, -, ⟨hlow, hhigh⟩, -, rfl⟩ := insert_eq_ok_iff.1 h
  exact .trans (.single (.edit t hlow (Int.le_refl i) hhigh)) (.single (.cover _ _))

theorem leads_delete {r : Buffer × Text} (h : b.delete p q = .ok r) : Leads n b r.1 := by
  obtain ⟨x, y, -, -, ⟨hlow, hhigh⟩, -, rfl⟩ := delete_eq_ok_iff.1 h
  rw [← put_nil]
  exact .single (.edit [] hlow (by omega) hhigh)

/-- A marker is made in the text, and its name is the number of those that there were. -/
theorem makeMarker_eq_ok_iff {advances : Bool} {r : Buffer × MarkerId} :
    b.makeMarker p advances = .ok r ↔
      ∃ x, b.locate p = .ok x ∧ (0 ≤ x ∧ x ≤ b.size) ∧
        r = ({ b with markers := b.markers ++ [⟨some x, advances⟩] }, b.markers.length) := by
  unfold makeMarker
  rw [bind_eq_ok]
  refine exists_congr fun x => and_congr_right fun _ => ?_
  by_cases hx : 0 ≤ x ∧ x ≤ b.size
  · rw [if_pos hx, pure_eq_ok, and_iff_right hx, eq_comm]
  · rw [if_neg hx]
    constructor
    · intro h
      cases h
    · intro h
      exact absurd h.1 hx

theorem leads_makeMarker {advances : Bool} {r : Buffer × MarkerId}
    (h : b.makeMarker p advances = .ok r) : Leads n b r.1 := by
  obtain ⟨x, -, ⟨h₀, hx⟩, rfl⟩ := makeMarker_eq_ok_iff.1 h
  exact .single (.mark advances h₀ hx)

theorem leads_goto (h : b.goto p = .ok b') : Leads n b b' := by
  obtain ⟨x, -, hx⟩ := bind_eq_ok.1 h
  cases hx
  exact .single (.move b _)

theorem leads_addSpan {props : Props} {r : Buffer × Span} (h : b.addSpan p q props = .ok r) :
    Leads n b r.1 := by
  obtain ⟨x, -, h⟩ := bind_eq_ok.1 h
  obtain ⟨y, -, h⟩ := bind_eq_ok.1 h
  cases h
  exact .single (.cover b _)

/-- Half a narrowing gives up the view, and may have made a marker. -/
theorem leads_halfNarrowed (b : Buffer) (x : Int) : Leads n b (b.halfNarrowed x) := by
  have hrelease : Leads n b b.widen := .single (.release b)
  by_cases hx : 0 ≤ x ∧ x ≤ b.size
  · rw [halfNarrowed_in hx]
    exact hrelease.tail (.mark (b := b.widen) false hx.1 hx.2)
  · rw [halfNarrowed_outside hx]
    exact hrelease

theorem leads_narrow (b : Buffer) (p q : Pos) : Leads n b (b.narrow p q).2 := by
  rcases b.narrow_cases p q with ⟨-, e, h⟩ | ⟨x, y, -, -, ⟨h₀, hle, h⟩ | ⟨-, z, -, -, h⟩⟩
  · rw [h]
  · rw [h]
    have hconfine : Change n b { b with view := some (min x y, max x y) } :=
      .confine h₀ (by omega) hle
    exact (Relation.ReflTransGen.single hconfine).tail (.move _ _)
  · rw [h]
    exact leads_halfNarrowed b _

/-! ### The view -/

/-- The view is a stretch of the text. -/
structure ViewInText (b : Buffer) : Prop where
  low_nonneg : 0 ≤ b.low
  low_le_high : b.low ≤ b.high
  high_le_size : b.high ≤ b.size

theorem viewInText_of_none (h : b.view = none) : b.ViewInText := by
  have hlow : b.low = 0 := by rw [low, h]
  have hhigh : b.high = b.size := by rw [high, h]
  refine ⟨Int.le_of_eq hlow.symm, ?_, Int.le_of_eq hhigh⟩
  rw [hlow, hhigh]
  exact size_nonneg b

/-- What has the same view and a text of the same length has its view in the text, too. -/
theorem ViewInText.congr (h : b.ViewInText) (hview : b'.view = b.view) (hsize : b'.size = b.size) :
    b'.ViewInText := by
  have hlow : b'.low = b.low := by rw [low, low, hview]
  have hhigh : b'.high = b.high := by rw [high, high, hview, hsize]
  constructor
  · rw [hlow]
    exact h.low_nonneg
  · rw [hlow, hhigh]
    exact h.low_le_high
  · rw [hhigh, hsize]
    exact h.high_le_size

/-- An edit in the view moves its ends and the end of the text alike. -/
theorem ViewInText.put (h : b.ViewInText) (hi : b.low ≤ i) (hij : i ≤ j) (hj : j ≤ b.high) :
    (b.put i j t).ViewInText := by
  have h₀ : 0 ≤ i := Int.le_trans h.low_nonneg hi
  have hend := h.high_le_size
  have hsize : (b.put i j t).size = b.size - (j - i) + t.length :=
    put_size h₀ hij (Int.le_trans hj hend)
  have hlow : (b.put i j t).low = b.low := put_low hi hij
  have hhigh : (b.put i j t).high = b.high - (j - i) + t.length := put_high h₀ hij hj
  constructor
  · rw [hlow]
    exact h.low_nonneg
  · rw [hlow, hhigh]
    omega
  · rw [hhigh, hsize]
    omega

theorem ViewInText.insertText (h : b.ViewInText) (hlow : b.low ≤ i) (hhigh : i ≤ b.high)
    (t : Text) : (b.insertText i t).ViewInText := by
  rw [← put_self]
  exact h.put hlow (Int.le_refl i) hhigh

theorem Change.viewInText (h : Change n b b') (hv : b.ViewInText) : b'.ViewInText := by
  cases h with
  | edit t hi hij hj => exact hv.put hi hij hj
  | confine h₀ hxy hy => exact ⟨h₀, hxy, hy⟩
  | release => exact viewInText_of_none rfl
  | cover ss => exact hv.congr rfl rfl
  | mark advances h₀ hx => exact hv.congr rfl rfl
  | detach m => exact hv.congr rfl rfl
  | turn hm advances => exact hv.congr rfl rfl
  | move x => exact hv.congr rfl rfl

theorem Leads.viewInText (h : Leads n b b') (hv : b.ViewInText) : b'.ViewInText := by
  induction h with
  | refl => exact hv
  | tail _ hlast ih => exact hlast.viewInText ih

/-! ### The markers that there were -/

/-- **The buffer `b'` still knows the markers of `b`.** -/
structure Tracks (b b' : Buffer) : Prop where
  /-- No marker is forgotten. -/
  length_le : b.markers.length ≤ b'.markers.length
  /-- A marker without a place is left alone. -/
  detached : ∀ (m : MarkerId) (k : Marker),
    b.markers[m]? = some k → k.position = none → b'.markers[m]? = some k
  unlocked : b'.unlocked = b.unlocked
  file : b'.file = b.file

theorem Tracks.refl (b : Buffer) : b.Tracks b := ⟨Nat.le_refl _, fun _ _ h _ => h, rfl, rfl⟩

theorem Tracks.trans (h : b.Tracks b') (h' : b'.Tracks b'') : b.Tracks b'' where
  length_le := Nat.le_trans h.length_le h'.length_le
  detached m k hm hk := h'.detached m k (h.detached m k hm hk) hk
  unlocked := h'.unlocked.trans h.unlocked
  file := h'.file.trans h.file

/-- What changes no marker keeps track of them. -/
theorem Tracks.congr (h : c.Tracks b) (hmarkers : b'.markers = b.markers)
    (hunlocked : b'.unlocked = b.unlocked) (hfile : b'.file = b.file) : c.Tracks b' where
  length_le := hmarkers ▸ h.length_le
  detached m k hm hk := hmarkers ▸ h.detached m k hm hk
  unlocked := hunlocked.trans h.unlocked
  file := hfile.trans h.file

/-- Changing one marker keeps track of them all if it is a new one or the change does nothing to a
marker without a place. -/
theorem Tracks.modifyMarker (h : c.Tracks b) {m : MarkerId} {f : Marker → Marker}
    (hf : c.markers.length ≤ m ∨ ∀ k : Marker, k.position = none → f k = k) :
    c.Tracks (b.modifyMarker m f) where
  length_le := by
    change c.markers.length ≤ (b.markers.modify m f).length
    rw [List.length_modify]
    exact h.length_le
  detached m' k hm' hk := by
    change (b.markers.modify m f)[m']? = some k
    rw [List.getElem?_modify, h.detached m' k hm' hk, Option.map_eq_map, Option.map_some]
    by_cases heq : m = m'
    · rw [if_pos heq]
      rcases hf with hnew | hsame
      · -- a marker of `c` has a smaller name than a new one
        obtain ⟨hlt, -⟩ := List.getElem?_eq_some_iff.1 hm'
        exact absurd (heq ▸ hnew) (Nat.not_le.2 hlt)
      · rw [hsame k hk]
    · rw [if_neg heq]
  unlocked := h.unlocked
  file := h.file

theorem Change.tracks (h : Change n b b') (hn : c.markers.length ≤ n) (ht : c.Tracks b) :
    c.Tracks b' := by
  cases h with
  | edit t hi hij hj =>
    refine ⟨?_, fun m k hm hk => ?_, put_unlocked.trans ht.unlocked, put_file.trans ht.file⟩
    · rw [put_markers, List.length_map]
      exact ht.length_le
    · rw [markers_put_getElem? (ht.detached m k hm hk), Marker.put, hk, Option.map_none, ← hk]
  | mark advances h₀ hx =>
    refine ⟨?_, fun m k hm hk => ?_, ht.unlocked, ht.file⟩
    · rw [List.length_append]
      exact Nat.le_trans ht.length_le (Nat.le_add_right _ _)
    · have hold := ht.detached m k hm hk
      obtain ⟨hlt, -⟩ := List.getElem?_eq_some_iff.1 hold
      exact (List.getElem?_append_left hlt).trans hold
  | detach m =>
    refine ht.modifyMarker (.inr fun k hk => ?_)
    rw [Marker.detached, ← hk]
  | turn hm advances => exact ht.modifyMarker (.inl (Nat.le_trans hn hm))
  | cover ss => exact ht.congr rfl rfl rfl
  | move x => exact ht.congr rfl rfl rfl
  | confine h₀ hxy hy => exact ht.congr rfl rfl rfl
  | release => exact ht.congr rfl rfl rfl

theorem Leads.tracks (h : Leads n b b') (hn : c.markers.length ≤ n) (ht : c.Tracks b) :
    c.Tracks b' := by
  induction h with
  | refl => exact ht
  | tail _ hlast ih => exact hlast.tracks hn ih

/-- An operation knows the markers that there were when it began. -/
theorem Leads.tracks_self (h : Leads b.markers.length b b') : b.Tracks b' :=
  h.tracks (Nat.le_refl _) (.refl b)

/-! ### Taking a buffer back -/

/-- The markers of `b` are set back and those made since are detached. -/
theorem Tracks.reattached (h : b.Tracks b') :
    b'.markers.mapIdx b.reattached
      = b.markers ++ (b'.markers.drop b.markers.length).map Marker.detached := by
  refine List.ext_getElem? fun m => ?_
  rw [List.getElem?_mapIdx]
  have hlen := h.length_le
  by_cases hm : m < b.markers.length
  · -- a marker of `b` had a place, which it gets back, or had none and has been left alone
    have hm' : m < b'.markers.length := Nat.lt_of_lt_of_le hm hlen
    have hold : b.markers[m]? = some b.markers[m] := List.getElem?_eq_getElem hm
    rw [List.getElem?_append_left hm, hold, List.getElem?_eq_getElem hm', Option.map_some,
      Buffer.reattached, hold]
    by_cases hplace : b.markers[m].position.isSome
    · simp only [hplace, if_true]
    · have hnone : b.markers[m].position = none := Option.not_isSome_iff_eq_none.1 hplace
      have hsame := h.detached m _ hold hnone
      rw [List.getElem?_eq_getElem hm', Option.some.injEq] at hsame
      simp only [hplace, Bool.false_eq_true, if_false, hsame, Marker.detached, ← hnone]
  · -- the others are not in the table of `b`
    have hm' : b.markers.length ≤ m := Nat.not_lt.1 hm
    have hnone : b.markers[m]? = none := List.getElem?_eq_none hm'
    have hnew : ∀ k, b.reattached m k = k.detached := fun k => by rw [Buffer.reattached, hnone]
    rw [List.getElem?_append_right hm', List.getElem?_map, List.getElem?_drop,
      Nat.add_sub_cancel' hm', funext hnew]

/-- **A buffer taken back** is the one that it is taken back to, with the markers made since as
detached ones. -/
theorem Tracks.restoredAfter_eq (h : b.Tracks b') :
    b.restoredAfter b'
      = { b with
          markers := b.markers ++ (b'.markers.drop b.markers.length).map Marker.detached } := by
  rw [restoredAfter, h.reattached, h.unlocked, h.file]

/-- A buffer that is taken back keeps track of every buffer that both of them do. -/
theorem Tracks.restoredAfter (h : c.Tracks b) (h' : c.Tracks b') :
    c.Tracks (b.restoredAfter b') where
  length_le := by
    change c.markers.length ≤ (b'.markers.mapIdx b.reattached).length
    rw [List.length_mapIdx]
    exact h'.length_le
  detached m k hm hk := by
    change (b'.markers.mapIdx b.reattached)[m]? = some k
    have hdetached : k.detached = k := by rw [Marker.detached, ← hk]
    rw [List.getElem?_mapIdx, h'.detached m k hm hk, Option.map_some, Buffer.reattached,
      h.detached m k hm hk]
    simp only [hk, Option.isSome_none, Bool.false_eq_true, if_false, hdetached]
  unlocked := h'.unlocked
  file := h'.file

/-- A buffer that an operation leads to and that is taken back has the view and the text that it
had. -/
theorem ViewInText.restoredAfter (h : b.ViewInText) (b' : Buffer) :
    (b.restoredAfter b').ViewInText := h.congr rfl rfl

end Buffer

end LiterateEdit
