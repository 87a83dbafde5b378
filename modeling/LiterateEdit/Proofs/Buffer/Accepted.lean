import LiterateEdit.Proofs.Buffer.Edit

/-!
# When a buffer accepts an edit

The operations of a buffer check a request before they carry it out. This file inverts them:

* `insert_eq_ok_iff`, `delete_eq_ok_iff` and `replaceRegion_eq_ok_iff` say that an edit is accepted
  exactly when its positions have a place, the stretch lies in the view and no span forbids it
  (`MayInsert`, `MayDelete`), and that the buffer behind it is then a `put`;
* `replaceRegion` takes its stretch from the smaller one of its positions to the **second** one, so
  that nothing is taken out if they are given in descending order.

Replacing checks its insertion in the buffer that the deletion leaves. That the place of the
insertion still lies in the view there needs no check (`cut_view_contains`).
-/

namespace LiterateEdit

/-! ### Computations that may fail -/

theorem bind_eq_ok {ε α β : Type} {x : Except ε α} {f : α → Except ε β} {c : β} :
    x >>= f = .ok c ↔ ∃ a, x = .ok a ∧ f a = .ok c := by
  cases x with
  | error e =>
    constructor
    · intro h
      cases h
    · rintro ⟨a, ha, -⟩
      cases ha
  | ok a =>
    constructor
    · intro h
      exact ⟨a, rfl, h⟩
    · rintro ⟨a', ha, h⟩
      cases ha
      exact h

theorem pure_eq_ok {ε α : Type} {a c : α} : (pure a : Except ε α) = .ok c ↔ a = c :=
  Except.ok.injEq a c ▸ Iff.rfl

namespace Buffer

variable {b b' : Buffer} {i j x y : Int} {p q : Pos} {t u : Text} {props : Option Props}

/-! ### Permission -/

/-- No span keeps a text from being inserted at a position, or protection is lifted. -/
def MayInsert (b : Buffer) (i : Int) : Prop :=
  b.unlocked = true ∨ ∀ s ∈ b.spans, s.forbidsInsert i = false

/-- No span keeps a stretch from being deleted, or protection is lifted. -/
def MayDelete (b : Buffer) (i j : Int) : Prop :=
  b.unlocked = true ∨ ∀ s ∈ b.spans, s.forbidsDelete i j = false

@[simp] theorem locate_at (b : Buffer) (n : Int) : b.locate (.at n) = .ok n := rfl

theorem locate_marker_eq_ok {m : MarkerId} :
    b.locate (.marker m) = .ok x ↔ b.markerPosition m = some x := by
  unfold locate markerPosition
  cases hm : b.markers[m]? with
  | none => simp only [hm, reduceCtorEq]
  | some k =>
    simp only [hm]
    cases k.position with
    | none => simp only [reduceCtorEq]
    | some y => simp only [Except.ok.injEq, Option.some.injEq]

theorem locate_marker {m : MarkerId} (h : b.markerPosition m = some x) :
    b.locate (.marker m) = .ok x := locate_marker_eq_ok.2 h

theorem checkView_eq_ok : b.checkView i j = .ok () ↔ b.low ≤ i ∧ i ≤ j ∧ j ≤ b.high := by
  unfold checkView
  split
  · next h => exact ⟨fun _ => h, fun _ => rfl⟩
  · next h =>
    constructor
    · intro h'
      cases h'
    · intro h'
      exact absurd h' h

theorem checkInsert_eq_ok : b.checkInsert i = .ok () ↔ b.MayInsert i := by
  unfold checkInsert MayInsert
  split
  · next h => exact ⟨fun _ => .inl h, fun _ => rfl⟩
  · next h =>
    rw [or_iff_right h]
    cases hf : b.spans.find? fun s => s.forbidsInsert i with
    | none => simpa using List.find?_eq_none.1 hf
    | some s =>
      refine ⟨nofun, fun h' => ?_⟩
      have hs := List.find?_some hf
      rw [h' s (List.mem_of_find?_eq_some hf)] at hs
      cases hs

theorem checkDelete_eq_ok : b.checkDelete i j = .ok () ↔ b.MayDelete i j := by
  unfold checkDelete MayDelete
  split
  · next h => exact ⟨fun _ => .inl h, fun _ => rfl⟩
  · next h =>
    rw [or_iff_right h]
    cases hf : b.spans.find? fun s => s.forbidsDelete i j with
    | none => simpa using List.find?_eq_none.1 hf
    | some s =>
      refine ⟨nofun, fun h' => ?_⟩
      have hs := List.find?_some hf
      rw [h' s (List.mem_of_find?_eq_some hf)] at hs
      cases hs

/-- **What the spans allow is away from the read-only ones**, unless it does nothing at all: an
edit that takes the stretch from `i` to `j` out and puts a text in has each of them on one side. -/
theorem away_of_may {s : Span} (hlocked : b.unlocked = false) (hdel : i ≠ j → b.MayDelete i j)
    (hins : t ≠ [] → (b.cut i j).MayInsert i) (hsome : i ≠ j ∨ t ≠ []) (hs : s ∈ b.spans)
    (hread : s.props.readOnly = true) : s.stop ≤ i ∨ j ≤ s.start := by
  have hopen : ¬ b.unlocked = true := by
    rw [hlocked]
    exact Bool.false_ne_true
  by_cases hij : i = j
  · subst hij
    have hmay := hins (hsome.resolve_left fun hne => hne rfl)
    rw [cut_self] at hmay
    have hforbids := hmay.resolve_left hopen s hs
    simp only [Span.forbidsInsert, hread, Bool.true_and, Bool.or_eq_false_iff,
      Bool.and_eq_false_iff, decide_eq_false_iff_not] at hforbids
    omega
  · have hforbids := (hdel hij).resolve_left hopen s hs
    simp only [Span.forbidsDelete, hread, Bool.true_and, Bool.and_eq_false_iff,
      decide_eq_false_iff_not] at hforbids
    omega

/-! ### The operations, inverted -/

/-- The span that an insertion makes: none for an empty text or without properties. -/
def newSpan (i : Int) (t : Text) (props : Option Props) : Option Span :=
  if t = [] then none else props.map fun ps => ⟨i, i + t.length, ps⟩

@[simp] theorem newSpan_none (i : Int) (t : Text) : newSpan i t none = none := by
  rw [newSpan, Option.map_none, ite_self]

theorem of_mem_newSpan {s : Span} (h : s ∈ (newSpan i t props).toList) :
    t ≠ [] ∧ s.start = i ∧ s.stop = i + t.length := by
  unfold newSpan at h
  by_cases ht : t = []
  · rw [if_pos ht] at h
    cases h
  · rw [if_neg ht, Option.mem_toList, Option.map_eq_some_iff] at h
    obtain ⟨ps, -, rfl⟩ := h
    exact ⟨ht, rfl, rfl⟩

@[simp] theorem addSpans_nil (b : Buffer) : b.addSpans [] = b := by
  rw [addSpans, List.append_nil]

/-- Insertion checks the view and the spans and is a `put`, an empty text included. -/
theorem insert_eq (b : Buffer) (p : Pos) (t : Text) (props : Option Props) :
    b.insert p t props = (do
      let i ← b.locate p
      b.checkView i i
      b.checkInsert i
      return ((b.put i i t).addSpans (newSpan i t props).toList, newSpan i t props)) := by
  unfold insert
  refine bind_congr fun i => bind_congr fun _ => bind_congr fun _ => ?_
  rw [put_self]
  -- an empty text is answered early, and putting it in would change nothing
  cases t with
  | nil => simp [newSpan, insertText_nil]
  | cons c t =>
    cases props with
    | none => simp [newSpan]
    | some ps => simp [newSpan, addSpans]

/-- **Insertion.** It is accepted where the view and the spans allow it. -/
theorem insert_eq_ok_iff {r : Buffer × Option Span} :
    b.insert p t props = .ok r ↔
      ∃ i, b.locate p = .ok i ∧ (b.low ≤ i ∧ i ≤ b.high) ∧ b.MayInsert i ∧
        r = ((b.put i i t).addSpans (newSpan i t props).toList, newSpan i t props) := by
  rw [insert_eq, bind_eq_ok]
  refine exists_congr fun i => and_congr_right fun _ => ?_
  rw [bind_eq_ok]
  constructor
  · rintro ⟨_, hv, h⟩
    obtain ⟨_, hi, h⟩ := bind_eq_ok.1 h
    obtain ⟨h₁, -, h₂⟩ := checkView_eq_ok.1 hv
    exact ⟨⟨h₁, h₂⟩, checkInsert_eq_ok.1 hi, (pure_eq_ok.1 h).symm⟩
  · rintro ⟨hv, hi, rfl⟩
    refine ⟨(), checkView_eq_ok.2 ⟨hv.1, Int.le_refl i, hv.2⟩, ?_⟩
    exact bind_eq_ok.2 ⟨(), checkInsert_eq_ok.2 hi, rfl⟩

/-- **Deletion.** It is accepted if the stretch between the positions lies in the view and the spans
allow it; an empty stretch may be deleted anywhere in the view. -/
theorem delete_eq_ok_iff {r : Buffer × Text} :
    b.delete p q = .ok r ↔
      ∃ x y, b.locate p = .ok x ∧ b.locate q = .ok y ∧
        (b.low ≤ min x y ∧ max x y ≤ b.high) ∧ (x ≠ y → b.MayDelete (min x y) (max x y)) ∧
        r = (b.cut (min x y) (max x y), b.slice (min x y) (max x y)) := by
  have hne : ∀ x y : Int, min x y = max x y ↔ x = y := by omega
  unfold delete
  rw [bind_eq_ok]
  refine exists_congr fun x => ?_
  rw [bind_eq_ok, ← exists_and_left]
  refine exists_congr fun y => and_congr_right fun _ => and_congr_right fun _ => ?_
  rw [bind_eq_ok]
  constructor
  · rintro ⟨_, hv, h⟩
    obtain ⟨h₁, -, h₂⟩ := checkView_eq_ok.1 hv
    refine ⟨⟨h₁, h₂⟩, ?_⟩
    -- an empty stretch is answered before the spans are looked at
    split at h
    · next heq =>
      have hxy := (hne x y).1 heq
      refine ⟨fun hn => absurd hxy hn, (pure_eq_ok.1 h).symm.trans ?_⟩
      rw [heq, cut_self, slice, Text.slice_self]
    · next hn =>
      obtain ⟨_, hd, h⟩ := bind_eq_ok.1 h
      refine ⟨fun _ => checkDelete_eq_ok.1 hd, (pure_eq_ok.1 h).symm.trans ?_⟩
      rw [cut, if_neg hn]
  · rintro ⟨hv, hd, rfl⟩
    refine ⟨(), checkView_eq_ok.2 ⟨hv.1, by omega, hv.2⟩, ?_⟩
    split
    · next heq =>
      rw [heq, cut_self, slice, Text.slice_self]
      rfl
    · next hn =>
      refine bind_eq_ok.2 ⟨(), checkDelete_eq_ok.2 (hd fun h => hn ((hne x y).2 h)), ?_⟩
      rw [cut, if_neg hn]
      rfl

/-- The place of a deletion in the view lies in the view that the deletion leaves. -/
theorem cut_view_contains (hi : b.low ≤ i) (hij : i ≤ j) (hj : j ≤ b.high) :
    (b.cut i j).low ≤ i ∧ i ≤ (b.cut i j).high := by
  unfold cut
  split
  · next h => exact ⟨hi, h ▸ hj⟩
  · cases hv : b.view with
    | none =>
      -- the view is the text, which gets shorter behind `i` only
      simp only [low, high, deleteText, size, hv, Option.map_none, List.length_append,
        List.length_take, List.length_drop] at hi hj ⊢
      omega
    | some v =>
      simp only [low, high, hv] at hi hj
      simp only [low, high, deleteText, hv, Option.map_some, afterDelete]
      -- the end of the view is behind the stretch and moves with what follows it
      constructor
      · split <;> omega
      · rw [if_pos hj]
        omega

/-- **Replacing.** It is a deletion from the smaller position to the second one, and an insertion
there that the spans behind the deletion allow. -/
theorem replaceRegion_eq_ok_iff :
    b.replaceRegion p q t = .ok b' ↔
      ∃ x y, b.locate p = .ok x ∧ b.locate q = .ok y ∧
        (b.low ≤ min x y ∧ y ≤ b.high) ∧ (min x y ≠ y → b.MayDelete (min x y) y) ∧
        (b.cut (min x y) y).MayInsert (min x y) ∧ b' = b.put (min x y) y t := by
  have hmin : ∀ x y : Int, min (min x y) y = min x y ∧ max (min x y) y = y := by omega
  unfold replaceRegion
  rw [bind_eq_ok]
  refine exists_congr fun x => ?_
  rw [bind_eq_ok, ← exists_and_left]
  refine exists_congr fun y => and_congr_right fun _ => and_congr_right fun hy => ?_
  rw [bind_eq_ok]
  constructor
  · rintro ⟨⟨c, removed⟩, hdel, h⟩
    obtain ⟨⟨d, s⟩, hins, h⟩ := bind_eq_ok.1 h
    -- both operations find the positions at the same places again
    obtain ⟨x', y', hx', hy', hv, hd, hr⟩ := delete_eq_ok_iff.1 hdel
    obtain rfl : min x y = x' := Except.ok.inj hx'
    obtain rfl : y = y' := Except.ok.inj (hy.symm.trans hy')
    rw [(hmin x y).1, (hmin x y).2] at hv hd hr
    obtain ⟨rfl, -⟩ := Prod.mk.inj hr
    obtain ⟨i, hi, -, hm, hr⟩ := insert_eq_ok_iff.1 hins
    obtain rfl : min x y = i := Except.ok.inj hi
    obtain ⟨rfl, -⟩ := Prod.mk.inj hr
    -- the second one was asked in the buffer that the first one left, and made no span
    refine ⟨hv, hd, hm, (pure_eq_ok.1 h).symm.trans ?_⟩
    simp only [newSpan, Option.map_none, ite_self, Option.toList_none, addSpans_nil, put_self]
    rfl
  · rintro ⟨hv, hd, hm, rfl⟩
    have hle : min x y ≤ y := by omega
    refine ⟨(b.cut (min x y) y, b.slice (min x y) y), delete_eq_ok_iff.2 ?_, ?_⟩
    · refine ⟨min x y, y, rfl, hy, ?_⟩
      rw [(hmin x y).1, (hmin x y).2]
      exact ⟨hv, hd, rfl⟩
    · refine bind_eq_ok.2 ⟨(b.put (min x y) y t, none), insert_eq_ok_iff.2 ?_, rfl⟩
      refine ⟨min x y, rfl, cut_view_contains hv.1 hle hv.2, hm, ?_⟩
      simp only [newSpan, Option.map_none, ite_self, Option.toList_none, addSpans_nil, put_self]
      rfl

/-- The view and the spans let a user replace a stretch. -/
structure MayReplace (b : Buffer) (i j : Int) : Prop where
  low_le : b.low ≤ i
  le_high : j ≤ b.high
  mayDelete : i ≠ j → b.MayDelete i j
  mayInsert : (b.cut i j).MayInsert i

/-- Replacing between positions in order. -/
theorem replaceRegion_of_le (hp : b.locate p = .ok i) (hq : b.locate q = .ok j) (hij : i ≤ j) :
    b.replaceRegion p q t = .ok b' ↔ b.MayReplace i j ∧ b' = b.put i j t := by
  have hmin : min i j = i := by omega
  rw [replaceRegion_eq_ok_iff]
  constructor
  · rintro ⟨x, y, hx, hy, hview, hdel, hins, hput⟩
    cases hp.symm.trans hx
    cases hq.symm.trans hy
    rw [hmin] at hview hdel hins hput
    exact ⟨⟨hview.1, hview.2, hdel, hins⟩, hput⟩
  · rintro ⟨hmay, hput⟩
    refine ⟨i, j, hp, hq, ?_⟩
    rw [hmin]
    exact ⟨⟨hmay.low_le, hmay.le_high⟩, hmay.mayDelete, hmay.mayInsert, hput⟩

/-! ### Moving the point and the view -/

theorem goto_eq (hp : b.locate p = .ok i) : b.goto p = .ok { b with point := b.clamp i } := by
  rw [goto, hp]
  rfl

theorem makeMarker_in (h : 0 ≤ x ∧ x ≤ b.size) (advances : Bool) :
    b.makeMarker (.at x) advances
      = .ok ({ b with markers := b.markers ++ [⟨some x, advances⟩] }, b.markers.length) := if_pos h

theorem makeMarker_outside (h : ¬(0 ≤ x ∧ x ≤ b.size)) (advances : Bool) :
    b.makeMarker (.at x) advances = .error (.outsideText x b.text.length) := if_neg h

/-- The markers that a refused narrowing has made before it was refused: one at the start of the new
view if that is in the text. -/
def strays (b : Buffer) (x : Int) : List Marker :=
  if 0 ≤ x ∧ x ≤ b.size then [⟨some x, false⟩] else []

/-- The buffer that is left by a narrowing that was refused half way. -/
def halfNarrowed (b : Buffer) (x : Int) : Buffer :=
  { b.widen with markers := b.markers ++ b.strays x }

theorem halfNarrowed_in (h : 0 ≤ x ∧ x ≤ b.size) :
    b.halfNarrowed x = { b.widen with markers := b.markers ++ [⟨some x, false⟩] } := by
  rw [halfNarrowed, strays, if_pos h]

theorem halfNarrowed_outside (h : ¬(0 ≤ x ∧ x ≤ b.size)) : b.halfNarrowed x = b.widen := by
  rw [halfNarrowed, strays, if_neg h, List.append_nil]
  rfl

/-- **Narrowing.** If one of its ends has no place nothing happens. Otherwise the old view is given
up first, and then the new one is made if it lies in the text; if it does not, the failure names an
end that is outside, and the buffer is left without a view and with what was made of the new one. -/
theorem narrow_cases (b : Buffer) (p q : Pos) :
    ((∀ x y, b.locate p = .ok x → b.locate q ≠ .ok y) ∧ ∃ e, b.narrow p q = (.error e, b)) ∨
      ∃ x y, b.locate p = .ok x ∧ b.locate q = .ok y ∧
        ((0 ≤ min x y ∧ max x y ≤ b.size ∧ b.narrow p q
            = (.ok (), { b with
                view := some (min x y, max x y)
                point := min (max b.point (min x y)) (max x y) })) ∨
          ¬(0 ≤ min x y ∧ max x y ≤ b.size) ∧ ∃ z, (z = min x y ∨ z = max x y) ∧
            ¬(0 ≤ z ∧ z ≤ b.size) ∧
            b.narrow p q
              = (.error (.outsideText z b.text.length), b.halfNarrowed (min x y))) := by
  cases hp : b.locate p with
  | error e =>
    refine .inl ⟨nofun, e, ?_⟩
    rw [narrow, hp]
    rfl
  | ok x =>
    cases hq : b.locate q with
    | error e =>
      refine .inl ⟨nofun, e, ?_⟩
      rw [narrow, hp, hq]
      rfl
    | ok y =>
      refine .inr ⟨x, y, rfl, rfl, ?_⟩
      unfold narrow
      simp only [hp, hq, bind, Except.bind, pure, Except.pure]
      -- the smaller end is asked for first
      by_cases hlow : 0 ≤ min x y ∧ min x y ≤ b.size
      · have hstart : b.widen.makeMarker (.at (min x y)) false
            = .ok (b.halfNarrowed (min x y), b.markers.length) := by
          rw [halfNarrowed_in hlow]
          exact makeMarker_in (b := b.widen) hlow false
        by_cases hhigh : 0 ≤ max x y ∧ max x y ≤ b.size
        · have hstop := makeMarker_in (b := b.halfNarrowed (min x y)) hhigh true
          simp only [hstart, hstop]
          exact .inl ⟨hlow.1, hhigh.2, rfl⟩
        · have hstop := makeMarker_outside (b := b.halfNarrowed (min x y)) hhigh true
          simp only [hstart, hstop]
          exact .inr ⟨by omega, max x y, .inr rfl, hhigh, rfl⟩
      · have hstart := makeMarker_outside (b := b.widen) hlow false
        simp only [hstart, halfNarrowed_outside hlow]
        exact .inr ⟨by omega, min x y, .inl rfl, hlow, rfl⟩

/-- A view with ascending ends in the text can be made. -/
theorem narrow_eq (hp : b.locate p = .ok i) (hq : b.locate q = .ok j) (h₀ : 0 ≤ i) (hij : i ≤ j)
    (hj : j ≤ b.size) :
    b.narrow p q = (.ok (), { b with view := some (i, j), point := min (max b.point i) j }) := by
  have hmin : min i j = i := by omega
  have hmax : max i j = j := by omega
  rcases b.narrow_cases p q with ⟨hnone, -⟩ | ⟨x, y, hx, hy, h⟩
  · exact absurd hq (hnone i j hp)
  · rw [hp] at hx
    rw [hq] at hy
    cases hx
    cases hy
    rw [hmin, hmax] at h
    rcases h with ⟨-, -, h⟩ | ⟨hout, -⟩
    · exact h
    · exact absurd ⟨h₀, hj⟩ hout

end Buffer

end LiterateEdit
