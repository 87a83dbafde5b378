import LiterateEdit.Proofs.Buffer.Cut
import LiterateEdit.Proofs.Script.Change

/-!
# Deleting what was inserted

A host that offers to undo an insertion does so by deleting the text again. Inserting and deleting
move what has a place in the text by different rules: an insertion asks of a marker at its position
whether it advances, moves the point there, and takes a span along or makes it longer; a deletion
asks none of this and brings everything in its stretch to one place. The two cancel all the same,
because an insertion leaves nothing inside the new text. Everything is at one of its ends.

Three things have to be seen:

* the deletion is never refused. A protected span that reaches into the new text has had its
  position inside it, and would have kept the text out (`Span.forbidsDelete_inserted`);
* it takes out just the text that was put in (`Buffer.slice_inserted`);
* it leaves the buffer as it was (`Buffer.cut_inserted_eq_iff`), unless there are spans that cover
  no characters: the deletion drops these, wherever they are.
-/

namespace LiterateEdit

/-- **Text that a span let in may be taken out again**: the span reaches into it nowhere. -/
theorem Span.forbidsDelete_inserted {s : Span} {i : Int} (h : s.forbidsInsert i = false) (n : Int) :
    (s.inserted i n).forbidsDelete i (i + n) = false := by
  have hprops : (s.inserted i n).props = s.props := by rw [← put_self, put_props]
  unfold forbidsInsert at h
  unfold forbidsDelete
  rw [hprops]
  cases hread : s.props.readOnly with
  | false => rfl
  | true =>
    simp only [hread, Bool.true_and, Bool.or_eq_false_iff, Bool.and_eq_false_iff,
      decide_eq_false_iff_not] at h ⊢
    unfold inserted
    split
    · -- the span has moved behind the text
      simp only
      omega
    split
    · -- it had the position inside it
      omega
    · -- it ends where the text starts, or before
      omega

namespace Buffer

variable {b : Buffer} {i : Int} {t : Text}

theorem mayDelete_inserted (h : b.MayInsert i) (t : Text) :
    (b.insertText i t).MayDelete i (i + t.length) := by
  rcases h with hunlocked | hspans
  · exact .inl hunlocked
  · refine .inr fun s' hs' => ?_
    obtain ⟨s, hs, rfl⟩ := List.mem_map.1 hs'
    exact Span.forbidsDelete_inserted (hspans s hs) _

/-- The new text stands where it was put in. -/
theorem slice_inserted (h₀ : 0 ≤ i) (hi : i ≤ b.size) :
    (b.insertText i t).slice i (i + t.length) = t := by
  rw [← put_self]
  exact slice_put h₀ (Int.le_refl i) hi

/-- **The deletion is accepted** wherever the insertion was, and answers with the text. -/
theorem delete_inserted (hv : b.ViewInText) (hlow : b.low ≤ i) (hhigh : i ≤ b.high)
    (hmay : b.MayInsert i) :
    (b.insertText i t).delete (.at i) (.at (i + t.length))
      = .ok ((b.insertText i t).cut i (i + t.length), t) := by
  have h₀ : 0 ≤ i := Int.le_trans hv.low_nonneg hlow
  have hsize : i ≤ b.size := Int.le_trans hhigh hv.high_le_size
  have hlow' : (b.insertText i t).low = b.low := by
    rw [← put_self]
    exact put_low hlow (Int.le_refl i)
  -- the end of the view advances, so that the new text is in the view to its end
  have hhigh' : (b.insertText i t).high = b.high - (i - i) + t.length := by
    rw [← put_self]
    exact put_high h₀ (Int.le_refl i) hhigh
  have hmin : min i (i + t.length) = i := by omega
  have hmax : max i (i + t.length) = i + t.length := by omega
  refine delete_eq_ok_iff.2 ⟨i, i + t.length, rfl, rfl, ?_⟩
  rw [hmin, hmax, hlow', hhigh', slice_inserted h₀ hsize]
  exact ⟨⟨hlow, by omega⟩, fun _ => mayDelete_inserted hmay t, rfl⟩

/-- **The buffer is as it was** behind the deletion if every span covers some characters, and only
then: the others are dropped, unless the text is empty and nothing is done. -/
theorem cut_inserted_eq_iff (h₀ : 0 ≤ i) (hi : i ≤ b.size) :
    (b.insertText i t).cut i (i + t.length) = b ↔ t = [] ∨ b.SpansNonempty := by
  constructor
  · intro hback
    by_cases ht : t = []
    · exact .inl ht
    · right
      intro s hs
      have hlen : 0 < t.length := List.length_pos_iff.2 ht
      rw [← hback, cut, if_neg (by omega)] at hs
      exact of_decide_eq_true (List.mem_filter.1 hs).2
  · rintro (rfl | hne)
    · rw [insertText_nil, List.length_nil, Int.natCast_zero, Int.add_zero, cut_self]
    · have hcut : ((b.insertText i t).addSpans []).cut i (i + t.length) = b.cut i i :=
        cut_insertText hne h₀ (Int.le_refl i) (Int.le_refl i) hi fun s hs =>
          absurd hs List.not_mem_nil
      rwa [addSpans_nil, cut_self] at hcut

end Buffer

namespace Desk

open Buffer

variable {d : Desk} {p : Ref} {t : Text} {v : StepResult}

/-- What inserting without properties leaves if it is accepted. -/
theorem exists_of_take_insert (h : (d.take (.insert p t none)).outcome = .ok v) :
    ∃ a, d.place p = .ok a ∧ (d.buffer.low ≤ a ∧ a ≤ d.buffer.high) ∧ d.buffer.MayInsert a ∧
      (d.take (.insert p t none)).desk = { d with buffer := d.buffer.insertText a t } := by
  rcases d.take_insert_cases p t none with ⟨e, he⟩ | ⟨a, v', hplace, hview, hmay, htake⟩
  · rw [he] at h
    cases h
  -- without properties no span is made
  have hbuffer : (d.buffer.put a a t).addSpans (newSpan a t none).toList
      = d.buffer.insertText a t := by
    rw [newSpan_none, Option.toList_none, addSpans_nil, put_self]
  exact ⟨a, hplace, hview, hmay, by rw [htake, hbuffer]⟩

/-- **Deleting what was just inserted undoes it.** On every reachable desk, narrowed or not and with
the protection lifted or not: if a text is inserted without properties and this is accepted, the
text stands at the position `a` that was named, and to delete it there is accepted as well and gives
it back. The desk is as it was then, with its text, its point, its view and all its spans and
markers, exactly if the text was empty or every span covers some characters. -/
theorem inserted_then_deleted (hd : d.Reachable)
    (h : (d.take (.insert p t none)).outcome = .ok v) :
    ∃ a, d.place p = .ok a ∧
      let r := (d.take (.insert p t none)).desk.take (.delete (.at a) (.at (a + t.length)))
      r.outcome = .ok (.text t) ∧ (r.desk = d ↔ t = [] ∨ d.buffer.SpansNonempty) := by
  obtain ⟨a, hplace, ⟨hlow, hhigh⟩, hmay, hdesk⟩ := exists_of_take_insert h
  have hv := hd.viewInText
  have h₀ : 0 ≤ a := Int.le_trans hv.low_nonneg hlow
  have hsize : a ≤ d.buffer.size := Int.le_trans hhigh hv.high_le_size
  have hdel := delete_inserted (t := t) hv hlow hhigh hmay
  have htake : (d.take (.insert p t none)).desk.take (.delete (.at a) (.at (a + t.length)))
      = ⟨.ok (.text t),
          { d with buffer := (d.buffer.insertText a t).cut a (a + t.length) }, []⟩ := by
    rw [hdesk]
    simp only [take, pos, bind, Except.bind, pure, Except.pure, hdel]
    rfl
  refine ⟨a, hplace, ?_⟩
  rw [htake]
  refine ⟨rfl, ?_⟩
  rw [← cut_inserted_eq_iff h₀ hsize]
  constructor
  · intro hback
    exact congrArg Desk.buffer hback
  · intro hback
    rw [hback]

/-- Text is put in where the view and a protected span end, another protected span starts, a third
one goes on, and the point and two markers are, one of which advances. Everything moves in its own
way, and the deletion brings it back. -/
theorem inserted_then_deleted_at_edges :
    let d := ((fresh []).runAll false [.insert (.at 0) (Text.lit "abcdef") none,
      .addSpan (.at 1) (.at 3) ⟨true, true, none⟩, .addSpan (.at 3) (.at 5) ⟨true, false, none⟩,
      .addSpan (.at 0) (.at 6) ⟨false, false, some (Text.lit "bold")⟩, .makeMarker (.at 3) true,
      .makeMarker (.at 3) false, .narrow (.at 1) (.at 3), .goto (.at 9)]).1
    let inserted := (d.take (.insert (.user 0) (Text.lit "XY") none)).desk
    let r := inserted.take (.delete (.at 3) (.at 5))
    inserted.buffer.text = Text.lit "abcXYdef" ∧
      (inserted.buffer.point = 5 ∧ inserted.buffer.view = some (1, 5)) ∧
      inserted.buffer.markers = [⟨some 5, true⟩, ⟨some 3, false⟩] ∧
      inserted.buffer.spans.map (fun s => (s.start, s.stop)) = [(1, 3), (5, 7), (0, 8)] ∧
      r.outcome = .ok (.text (Text.lit "XY")) ∧ r.desk = d := by
  intro d inserted r
  have hd : d.Reachable := reachable_runAll [] false _ _
  have hplace : d.place (.user 0) = .ok 3 := by rfl
  have hout : (d.take (.insert (.user 0) (Text.lit "XY") none)).outcome = .ok .nothing := by rfl
  have hne : d.buffer.SpansNonempty := by
    unfold SpansNonempty
    decide +kernel
  obtain ⟨a, ha, hdel, hback⟩ := inserted_then_deleted hd hout
  obtain rfl : 3 = a := Except.ok.inj (hplace.symm.trans ha)
  exact ⟨by decide +kernel, by decide +kernel, by decide +kernel, by decide +kernel, hdel,
    hback.2 (.inr hne)⟩

/-- A span without characters does not come back. -/
example :
    let d := ((fresh (Text.lit "ab")).runAll false [.addSpan (.at 1) (.at 1) {}]).1
    let inserted := (d.take (.insert (.at 0) (Text.lit "X") none)).desk
    (inserted.take (.delete (.at 0) (.at 1))).desk.buffer.spans = [] ∧ d.buffer.spans ≠ [] := by
  decide +kernel

end Desk

end LiterateEdit
