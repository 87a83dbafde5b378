import LiterateEdit.Proofs.Script.Refused

/-!
# Replacing, in either order

Replacing is given two positions and puts a text in the place of what is between them. It looks for
the smaller one, but then deletes up to the **second** one. If the second one is the smaller one
there is nothing in between, and replacing is an insertion there (`Desk.take_replaceRegion_of_ge`):
the stretch that was to be replaced stays, and where the first position is does not matter at all.

So replacing does what it says for positions in ascending order, and for positions in descending
order only at the end of the text, behind which there is nothing to delete. Exchanging two different
positions never gives the same again (`Desk.replaceRegion_only_ascending`).
-/

namespace LiterateEdit

/-- Is this about the view or the protection of a stretch, and not about a position? -/
def EditError.isRefusal : EditError → Bool
  | .outsideView _ _ _ _ => true
  | .readOnly _ _ => true
  | _ => false

/-! ### Why an edit is refused -/

/-- Nothing but the view and the protection makes the computation fail. -/
def Refuses {α : Type} (r : Except EditError α) : Prop := ∀ e, r = .error e → e.isRefusal = true

section Refuses

variable {α β : Type} {r : Except EditError α}

theorem refuses_of_eq_ok {a : α} (h : r = .ok a) : Refuses r := by
  intro e he
  cases h.symm.trans he

theorem Refuses.bind {f : α → Except EditError β} (hr : Refuses r)
    (hf : ∀ a, r = .ok a → Refuses (f a)) : Refuses (r >>= f) := by
  intro e he
  cases r with
  | error _ =>
    cases he
    exact hr e rfl
  | ok a => exact hf a rfl e he

end Refuses

namespace Buffer

variable {x y : Int} {p q : Pos} {t : Text}

theorem refuses_checkView (b : Buffer) (i j : Int) : Refuses (b.checkView i j) := by
  intro e he
  unfold checkView at he
  split at he
  · cases he
  · cases he
    rfl

theorem refuses_checkInsert (b : Buffer) (i : Int) : Refuses (b.checkInsert i) := by
  intro e he
  unfold checkInsert at he
  split at he
  · cases he
  · split at he
    · cases he
    · cases he
      rfl

theorem refuses_checkDelete (b : Buffer) (i j : Int) : Refuses (b.checkDelete i j) := by
  intro e he
  unfold checkDelete at he
  split at he
  · cases he
  · split at he
    · cases he
    · cases he
      rfl

theorem refuses_insert {b : Buffer} (hp : b.locate p = .ok x) (t : Text) (props : Option Props) :
    Refuses (b.insert p t props) := by
  rw [insert_eq]
  refine (refuses_of_eq_ok hp).bind fun i _ => (b.refuses_checkView i i).bind fun _ _ => ?_
  exact (b.refuses_checkInsert i).bind fun _ _ => refuses_of_eq_ok rfl

theorem refuses_delete {b : Buffer} (hp : b.locate p = .ok x) (hq : b.locate q = .ok y) :
    Refuses (b.delete p q) := by
  unfold delete
  refine (refuses_of_eq_ok hp).bind fun i _ => (refuses_of_eq_ok hq).bind fun j _ => ?_
  refine (b.refuses_checkView _ _).bind fun _ _ => ?_
  split
  · exact refuses_of_eq_ok rfl
  · exact (b.refuses_checkDelete _ _).bind fun _ _ => refuses_of_eq_ok rfl

/-- **Replacing** is refused by the view or by a span, at its deletion or at its insertion. -/
theorem refuses_replaceRegion {b : Buffer} (hp : b.locate p = .ok x) (hq : b.locate q = .ok y)
    (t : Text) : Refuses (b.replaceRegion p q t) := by
  unfold replaceRegion
  refine (refuses_of_eq_ok hp).bind fun i _ => (refuses_of_eq_ok hq).bind fun j _ => ?_
  refine (refuses_delete (locate_at b _) hq).bind fun r _ => ?_
  exact (refuses_insert (locate_at r.1 _) t none).bind fun _ _ => refuses_of_eq_ok rfl

/-- **Positions in descending order**: replacing is an insertion at the second one. -/
theorem replaceRegion_of_ge {b : Buffer} (hp : b.locate p = .ok x) (hq : b.locate q = .ok y)
    (h : y ≤ x) (t : Text) : b.replaceRegion p q t = Prod.fst <$> b.insert q t none := by
  have hmin : min x y = y := Int.min_eq_right h
  -- the deletion asks for a place in the view, as the insertion does after it
  have hdel : b.delete (.at y) q = (fun _ => (b, [])) <$> b.checkView y y := by
    unfold delete
    rw [locate_at, hq]
    change (do
      b.checkView (min y y) (max y y)
      if min y y = max y y then return (b, []) else _) = _
    rw [Int.min_self, Int.max_self, if_pos rfl]
    rfl
  have hins : b.insert q t none = b.insert (.at y) t none := by
    rw [insert_eq, insert_eq, hq, locate_at]
  unfold replaceRegion
  rw [hp, hq, hins]
  change (do
    let r ← b.delete (.at (min x y)) q
    let r' ← r.1.insert (.at (min x y)) t none
    return r'.1) = _
  rw [hmin, hdel]
  cases hview : b.checkView y y with
  | error e =>
    rw [insert_eq, locate_at]
    change _ = Prod.fst <$> (do
      b.checkView y y
      _)
    rw [hview]
    rfl
  | ok u =>
    -- the deletion has done nothing, and the insertion runs in the buffer as it was
    change (do
      let r' ← b.insert (.at y) t none
      return r'.1) = _
    cases b.insert (.at y) t none <;> rfl

end Buffer

namespace Desk

open Buffer

variable {d : Desk} {p q : Ref} {x y : Int} {t : Text}

theorem exists_pos (h : d.place p = .ok x) : ∃ p', d.pos p = .ok p' ∧ d.buffer.locate p' = .ok x :=
  bind_eq_ok.1 h

theorem take_replaceRegion_of_ge (hp : d.place p = .ok x) (hq : d.place q = .ok y) (h : y ≤ x)
    (t : Text) : d.take (.replaceRegion p q t) = d.take (.insert q t none) := by
  obtain ⟨p', hpos, hlocate⟩ := exists_pos hp
  obtain ⟨q', hpos', hlocate'⟩ := exists_pos hq
  have hrep := replaceRegion_of_ge hlocate hlocate' h t
  simp only [take, hpos, hpos', bind, Except.bind, pure, Except.pure]
  rw [hrep]
  cases hins : d.buffer.insert q' t none with
  | error e => rfl
  | ok r =>
    -- without properties there is no span to tell of
    obtain ⟨i, -, -, -, rfl⟩ := insert_eq_ok_iff.1 hins
    simp only [newSpan_none]
    rfl

/-- Two positions at one place are one position to insert at. -/
theorem take_insert_congr (hp : d.place p = .ok x) (hq : d.place q = .ok x) (t : Text)
    (props : Option Props) : d.take (.insert p t props) = d.take (.insert q t props) := by
  obtain ⟨p', hpos, hlocate⟩ := exists_pos hp
  obtain ⟨q', hpos', hlocate'⟩ := exists_pos hq
  have hsame : d.buffer.insert p' t props = d.buffer.insert q' t props := by
    rw [insert_eq, insert_eq, hlocate, hlocate']
  simp only [take, hpos, hpos', bind, Except.bind, hsame]

theorem isRefusal_of_replaceRegion {e : EditError} (hp : d.place p = .ok x)
    (hq : d.place q = .ok y) (h : (d.take (.replaceRegion p q t)).outcome = .error e) :
    e.isRefusal = true := by
  obtain ⟨p', hpos, hlocate⟩ := exists_pos hp
  obtain ⟨q', hpos', hlocate'⟩ := exists_pos hq
  simp only [take, hpos, hpos', bind, Except.bind, pure, Except.pure] at h
  cases hrep : d.buffer.replaceRegion p' q' t with
  | error e' =>
    rw [hrep] at h
    cases h
    exact refuses_replaceRegion hlocate hlocate' t e hrep
  | ok b =>
    rw [hrep] at h
    cases h

/-- **What replacing makes** if it is accepted: the text up to the second position is gone. -/
theorem replaceRegion_accepted {v : StepResult} (hv : d.buffer.ViewInText)
    (hp : d.place p = .ok x) (hq : d.place q = .ok y)
    (h : (d.take (.replaceRegion p q t)).outcome = .ok v) :
    v = .nothing ∧ 0 ≤ min x y ∧ y ≤ d.buffer.size ∧
      (d.take (.replaceRegion p q t)).desk.buffer.text = d.buffer.text.edit (min x y) y t := by
  obtain ⟨p', hpos, hlocate⟩ := exists_pos hp
  obtain ⟨q', hpos', hlocate'⟩ := exists_pos hq
  rcases d.take_cases (s := .replaceRegion p q t) rfl with ⟨e, he⟩ | ⟨b, v', hr, htake⟩
  · rw [he] at h
    cases h
  rw [htake] at h ⊢
  cases h
  -- what the computation looked up are the two positions that are given
  obtain ⟨p'', hp'', hr⟩ := bind_eq_ok.1 hr
  obtain ⟨q'', hq'', hr⟩ := bind_eq_ok.1 hr
  obtain ⟨b', hrep, hr⟩ := bind_eq_ok.1 hr
  cases hr
  cases hpos.symm.trans hp''
  cases hpos'.symm.trans hq''
  obtain ⟨x', y', hx, hy, ⟨hlow, hhigh⟩, -, -, rfl⟩ := replaceRegion_eq_ok_iff.1 hrep
  cases hlocate.symm.trans hx
  cases hlocate'.symm.trans hy
  have hsize : y ≤ d.buffer.size := Int.le_trans hhigh hv.high_le_size
  exact ⟨rfl, Int.le_trans hv.low_nonneg hlow, hsize, put_text (Int.min_le_right x y) hsize⟩

/-- **Exchanging the positions** gives the same only where they are one place: what is accepted
cuts out a stretch up to its second position. -/
theorem take_replaceRegion_swap_iff {v : StepResult} (hv : d.buffer.ViewInText)
    (hp : d.place p = .ok x) (hq : d.place q = .ok y)
    (h : (d.take (.replaceRegion p q t)).outcome = .ok v) :
    d.take (.replaceRegion q p t) = d.take (.replaceRegion p q t) ↔ x = y := by
  constructor
  · intro heq
    have h' : (d.take (.replaceRegion q p t)).outcome = .ok v := heq ▸ h
    obtain ⟨-, h₀, hsize, htext⟩ := replaceRegion_accepted hv hp hq h
    obtain ⟨-, h₀', hsize', htext'⟩ := replaceRegion_accepted hv hq hp h'
    -- one text has one length
    have hlen := Text.length_edit (u := t) h₀ (Int.min_le_right x y) hsize
    have hlen' := Text.length_edit (u := t) h₀' (Int.min_le_right y x) hsize'
    rw [← htext] at hlen
    rw [← htext', heq] at hlen'
    omega
  · rintro rfl
    calc d.take (.replaceRegion q p t)
        = d.take (.insert p t none) := take_replaceRegion_of_ge hq hp (Int.le_refl x) t
      _ = d.take (.insert q t none) := take_insert_congr hp hq t none
      _ = d.take (.replaceRegion p q t) :=
          (take_replaceRegion_of_ge hp hq (Int.le_refl x) t).symm

/-- **Replacing goes by the order of its positions.** It is refused by the view or by a protected
span, and then nothing has happened; or it is accepted. Then it has put the text in the place of the
stretch between the positions if and only if they are in ascending order, or the second one is the
end of the text; and the positions exchanged give the same if and only if they are one place. If the
second position is not behind the first one, it is an insertion at the second one. -/
theorem replaceRegion_only_ascending (hd : d.Reachable) (hp : d.place p = .ok x)
    (hq : d.place q = .ok y) (t : Text) :
    let r := d.take (.replaceRegion p q t)
    ((∃ e : EditError, e.isRefusal = true ∧ r = ⟨.error e, d, []⟩) ∨
        r.outcome = .ok .nothing ∧
          (r.desk.buffer.text = d.buffer.text.edit (min x y) (max x y) t ↔
            x ≤ y ∨ y = d.buffer.size) ∧
          (d.take (.replaceRegion q p t) = r ↔ x = y)) ∧
      (y ≤ x → r = d.take (.insert q t none)) := by
  intro r
  have hv := hd.viewInText
  refine ⟨?_, fun hle => take_replaceRegion_of_ge hp hq hle t⟩
  cases hout : r.outcome with
  | error e =>
    exact .inl ⟨e, isRefusal_of_replaceRegion hp hq hout, take_refused rfl nofun hout⟩
  | ok v =>
    obtain ⟨rfl, h₀, hsize, htext⟩ := replaceRegion_accepted hv hp hq hout
    refine .inr ⟨rfl, ?_, take_replaceRegion_swap_iff hv hp hq hout⟩
    rw [show r.desk.buffer.text = _ from htext]
    exact Text.edit_min_eq_iff h₀ hsize

/-- A marker and a number in a narrowed desk. In ascending order what is between them is replaced;
in descending order it is still there behind the new text. -/
theorem replaceRegion_only_ascending_marker :
    let d := ((fresh []).runAll false [.insert (.at 0) (Text.lit "abcdef") none,
      .makeMarker (.at 4) true, .narrow (.at 1) (.at 5)]).1
    (d.take (.replaceRegion (.at 1) (.user 0) (Text.lit "X"))).desk.buffer.text
        = Text.lit "aXef" ∧
      (d.take (.replaceRegion (.user 0) (.at 1) (Text.lit "X"))).desk.buffer.text
        = Text.lit "aXbcdef" ∧
      d.take (.replaceRegion (.user 0) (.at 1) (Text.lit "X"))
        = d.take (.insert (.at 1) (Text.lit "X") none) ∧
      d.take (.replaceRegion (.at 1) (.user 0) (Text.lit "X"))
        ≠ d.take (.replaceRegion (.user 0) (.at 1) (Text.lit "X")) := by
  intro d
  have hd : d.Reachable := reachable_runAll [] false _ _
  have hp : d.place (.user 0) = .ok 4 := by rfl
  have hq : d.place (.at 1) = .ok 1 := rfl
  have hout : (d.take (.replaceRegion (.user 0) (.at 1) (Text.lit "X"))).outcome
      = .ok .nothing := by rfl
  have htexts : (d.take (.replaceRegion (.at 1) (.user 0) (Text.lit "X"))).desk.buffer.text
        = Text.lit "aXef" ∧
      (d.take (.replaceRegion (.user 0) (.at 1) (Text.lit "X"))).desk.buffer.text
        = Text.lit "aXbcdef" := by decide +kernel
  obtain ⟨hcases, hinsert⟩ := replaceRegion_only_ascending hd hp hq (Text.lit "X")
  refine ⟨htexts.1, htexts.2, hinsert (by decide), ?_⟩
  rcases hcases with ⟨e, -, herror⟩ | ⟨-, -, hexchanged⟩
  · rw [herror] at hout
    cases hout
  · exact fun heq => absurd (hexchanged.1 heq) (by decide)

end Desk

end LiterateEdit
