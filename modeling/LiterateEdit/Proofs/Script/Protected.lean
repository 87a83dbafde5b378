import LiterateEdit.Proofs.Buffer.WellFormed
import LiterateEdit.Proofs.Context.Row
import LiterateEdit.Proofs.Script.Change

/-!
# Read-only text is not changed

An edit is asked two things about the read-only spans, whether it deletes any of their characters
and whether it inserts text inside them, and the answers leave room only for edits that go around
them: each read-only span ends before the stretch that is replaced or starts behind it
(`Buffer.away_of_may`). Such an edit moves a span as a whole or not at all, so that it still covers
the characters that it covered, and it empties none, so that none is dropped
(`readOnlySpans_put`). The spans may overlap, lie in one another or stand end to end, and may or may
not let text in right behind them.

`Buffer.KeepsReadOnly` is what a host sees of it: read-only spans keep their place among the
read-only spans, their properties and their text. It is reflexive and transitive, and each edit of a
script that keeps the protection on has it, so that a run of edits has it from its start to each of
its states (`Desk.protected_text_kept`).

That a span covers characters is needed for the text under it to be a part of the text at all: a
host can give properties to any two numbers. Edits leave such spans alone (`SpansInText.put`), and
the span of inserted text is one, so that this is an assumption about the first state only.
-/

namespace LiterateEdit

namespace Buffer

variable {b b' b'' : Buffer} {i j : Int} {t : Text} {s : Span} {ss : List Span}

/-! ### Read-only spans -/

/-- The read-only spans, the oldest first. -/
def readOnlySpans (b : Buffer) : List Span := b.spans.filter fun s => s.props.readOnly

theorem mem_readOnlySpans : s ∈ b.readOnlySpans ↔ s ∈ b.spans ∧ s.props.readOnly = true :=
  List.mem_filter

theorem readOnlySpans_addSpans (b : Buffer) (ss : List Span) :
    (b.addSpans ss).readOnlySpans
      = b.readOnlySpans ++ ss.filter fun s => s.props.readOnly := List.filter_append _ _

/-- **An edit around the read-only spans** moves them and drops none of them. -/
theorem readOnlySpans_put (hij : i ≤ j) (hne : ∀ s ∈ b.readOnlySpans, s.start < s.stop)
    (haway : ∀ s ∈ b.readOnlySpans, s.stop ≤ i ∨ j ≤ s.start) :
    (b.put i j t).readOnlySpans = b.readOnlySpans.map (Span.put i j t.length) := by
  -- an edit changes no properties, so that the read-only spans may be picked out before it
  have hdeleted : (fun s : Span => s.props.readOnly) ∘ Span.deleted i j
      = fun s => s.props.readOnly := rfl
  have hinserted : (fun s : Span => s.props.readOnly) ∘ Span.inserted i t.length
      = fun s => s.props.readOnly := by
    funext s
    rw [Function.comp_apply, ← Span.put_self, Span.put_props]
  have hcut : (b.cut i j).readOnlySpans = b.readOnlySpans.map (Span.deleted i j) := by
    unfold cut
    split
    · next heq =>
      subst heq
      exact (List.map_id'' (Span.deleted_self i) _).symm
    · -- none of them is emptied
      have hkept : (b.readOnlySpans.map (Span.deleted i j)).filter
          (fun s => decide (s.start < s.stop)) = b.readOnlySpans.map (Span.deleted i j) := by
        refine List.filter_eq_self.2 fun s' hs' => ?_
        obtain ⟨s, hs, rfl⟩ := List.mem_map.1 hs'
        exact decide_eq_true (Span.deleted_nonempty (hne s hs) (haway s hs) hij)
      rw [readOnlySpans, deleteText]
      simp only
      rw [List.filter_comm, List.filter_map, hdeleted]
      exact hkept
  calc (b.put i j t).readOnlySpans
      = ((b.cut i j).spans.map (Span.inserted i t.length)).filter fun s => s.props.readOnly := rfl
    _ = (b.cut i j).readOnlySpans.map (Span.inserted i t.length) := by
      rw [List.filter_map, hinserted]
      rfl
    _ = b.readOnlySpans.map (Span.put i j t.length) := by
      rw [hcut, List.map_map]
      rfl

/-- **What a host sees of the protection**: the read-only spans of `b` are still there in `b'`, in
the same order and before those made since, with the same properties and over the same text. -/
def KeepsReadOnly (b b' : Buffer) : Prop :=
  ∀ (k : Nat) (s : Span), b.readOnlySpans[k]? = some s →
    ∃ s', b'.readOnlySpans[k]? = some s' ∧ s'.props = s.props ∧ s'.InText b'.size ∧
      b'.text.under s' = b.text.under s

theorem SpansInText.keepsReadOnly (h : b.SpansInText) : b.KeepsReadOnly b := by
  intro k s hk
  have hs := (mem_readOnlySpans.1 (List.mem_of_getElem? hk)).1
  exact ⟨s, hk, rfl, h s hs, rfl⟩

theorem KeepsReadOnly.trans (h : b.KeepsReadOnly b') (h' : b'.KeepsReadOnly b'') :
    b.KeepsReadOnly b'' := by
  intro k s hk
  obtain ⟨s', hk', hprops, -, hunder⟩ := h k s hk
  obtain ⟨s'', hk'', hprops', hin, hunder'⟩ := h' k s' hk'
  exact ⟨s'', hk'', hprops'.trans hprops, hin, hunder'.trans hunder⟩

/-- **The buffer `b'` comes from an edit that goes around the read-only spans**: each of them is on
one side of the stretch between `i` and `j` that is replaced, and they move as the edit moves what
is there. -/
def GoesAround (b b' : Buffer) : Prop :=
  ∃ (i j : Int) (t : Text) (made : List Span),
    b'.text = b.text.edit i j t ∧
      b'.readOnlySpans = b.readOnlySpans.map (Span.put i j t.length) ++ made ∧
      ∀ s ∈ b.readOnlySpans, s.stop ≤ i ∨ j ≤ s.start

theorem SpansInText.goesAround_put (h : b.SpansInText) (hij : i ≤ j) (hj : j ≤ b.size)
    (haway : ∀ s ∈ b.readOnlySpans, s.stop ≤ i ∨ j ≤ s.start) (ss : List Span) :
    b.GoesAround ((b.put i j t).addSpans ss) := by
  refine ⟨i, j, t, ss.filter fun s => s.props.readOnly, put_text hij hj, ?_, haway⟩
  have hne : ∀ s ∈ b.readOnlySpans, s.start < s.stop := fun s hs =>
    (h s (mem_readOnlySpans.1 hs).1).start_lt_stop
  rw [readOnlySpans_addSpans, readOnlySpans_put hij hne haway]

/-- An edit around the read-only spans keeps them. -/
theorem SpansInText.keepsReadOnly_put (h : b.SpansInText) (h₀ : 0 ≤ i) (hij : i ≤ j)
    (hj : j ≤ b.size) (haway : ∀ s ∈ b.readOnlySpans, s.stop ≤ i ∨ j ≤ s.start) (ss : List Span) :
    b.KeepsReadOnly ((b.put i j t).addSpans ss) := by
  intro k s hk
  have hmem := List.mem_of_getElem? hk
  have hin := h s (mem_readOnlySpans.1 hmem).1
  have hput := readOnlySpans_put (t := t) hij
    (fun s hs => (h s (mem_readOnlySpans.1 hs).1).start_lt_stop) haway
  have hk' : (b.put i j t).readOnlySpans[k]? = some (s.put i j t.length) := by
    rw [hput, List.getElem?_map, hk, Option.map_some]
  have hmem' := (mem_readOnlySpans.1 (List.mem_of_getElem? hk')).1
  refine ⟨s.put i j t.length, ?_, Span.put_props, h.put h₀ hij hj _ hmem', ?_⟩
  · obtain ⟨hlt, -⟩ := List.getElem?_eq_some_iff.1 hk'
    rw [readOnlySpans_addSpans, List.getElem?_append_left hlt, hk']
  · change (b.put i j t).text.under _ = _
    rw [put_text hij hj]
    exact Text.under_edit ⟨hin.start_nonneg, hin.start_lt_stop, hin.stop_le⟩ (haway s hmem) h₀ hij
      hj

end Buffer

/-! ### Edits of a script -/

namespace Desk

open Buffer

variable {d : Desk} {s : Step} {i j : Int} {t : Text} {ss : List Span} {v : StepResult}

/-- What edits of a script need and leave: the view is in the text, the protection is on, and the
spans cover characters. -/
structure Guarding (d : Desk) : Prop where
  view : d.buffer.ViewInText
  locked : d.buffer.unlocked = false
  spans : d.buffer.SpansInText

namespace Guarding

theorem bounds (h : d.Guarding) (ha : d.Accepts s i j t ss v) : 0 ≤ i ∧ j ≤ d.buffer.size :=
  ⟨Int.le_trans h.view.low_nonneg ha.low_le, Int.le_trans ha.le_high h.view.high_le_size⟩

/-- The spans that an edit leaves, the one that it makes included. -/
theorem accepts (h : d.Guarding) (ha : d.Accepts s i j t ss v) :
    (d.take s).desk.Guarding := by
  obtain ⟨h₀, hj⟩ := h.bounds ha
  have hview : (d.buffer.put i j t).ViewInText := h.view.put ha.low_le ha.le ha.le_high
  have hlocked : (d.buffer.put i j t).unlocked = false := put_unlocked.trans h.locked
  rw [ha.take_eq]
  refine ⟨hview.congr rfl rfl, hlocked, (h.spans.put h₀ ha.le hj).addSpans fun s' hs' => ?_⟩
  · -- the text that the new span covers is not empty, and it is in the text now
    obtain ⟨ht, hstart, hstop⟩ := ha.covers s' hs'
    have hpos : 0 < t.length := List.length_pos_iff.2 ht
    have hsize := put_size (t := t) h₀ ha.le hj
    have hle := ha.le
    exact ⟨by omega, by omega, by omega⟩

/-- **An edit is refused, or it goes around the read-only spans.** The place of an edit that does
nothing does not matter. -/
theorem take (h : d.Guarding) (hs : s.isEdit = true) :
    (∃ e, d.take s = ⟨.error e, d, []⟩) ∨
      ((∃ v, (d.take s).outcome = .ok v) ∧ d.buffer.GoesAround (d.take s).desk.buffer ∧
        d.buffer.KeepsReadOnly (d.take s).desk.buffer) := by
  rcases d.take_edit hs with hrefused | ⟨i, j, t, ss, v, ha⟩
  · exact .inl hrefused
  right
  obtain ⟨h₀, hj⟩ := h.bounds ha
  rw [ha.take_eq]
  refine ⟨⟨v, rfl⟩, ?_⟩
  by_cases hsome : i ≠ j ∨ t ≠ []
  · have haway : ∀ s ∈ d.buffer.readOnlySpans, s.stop ≤ i ∨ j ≤ s.start := fun s hs =>
      away_of_may h.locked ha.mayDelete ha.mayInsert hsome (mem_readOnlySpans.1 hs).1
        (mem_readOnlySpans.1 hs).2
    exact ⟨h.spans.goesAround_put ha.le hj haway ss,
      h.spans.keepsReadOnly_put h₀ ha.le hj haway ss⟩
  · -- nothing is taken out and nothing is put in, which can be done at the start as well
    have hsame : d.buffer.put i j t = d.buffer.put 0 0 [] := by
      have hij : i = j := not_not.1 fun hij => hsome (.inl hij)
      have ht : t = [] := not_not.1 fun ht => hsome (.inr ht)
      rw [hij, ht, put_nil, put_nil, cut_self, cut_self]
    have haway : ∀ s ∈ d.buffer.readOnlySpans, s.stop ≤ 0 ∨ 0 ≤ s.start := fun s hs =>
      .inr (h.spans s (mem_readOnlySpans.1 hs).1).start_nonneg
    have hnonneg := size_nonneg d.buffer
    rw [hsame]
    exact ⟨h.spans.goesAround_put (Int.le_refl 0) hnonneg haway ss,
      h.spans.keepsReadOnly_put (Int.le_refl 0) (Int.le_refl 0) hnonneg haway ss⟩

/-- From a desk on, edits keep its read-only spans. -/
theorem preserves (d₀ : Desk) :
    Preserves (fun d => d.Guarding ∧ d₀.buffer.KeepsReadOnly d.buffer)
      fun s => s.isEdit = true where
  take d s hs h := by
    obtain ⟨hd, hkeeps⟩ := h
    rcases hd.take hs with ⟨e, he⟩ | ⟨-, -, hstep⟩
    · rw [he]
      exact ⟨hd, hkeeps⟩
    · rcases d.take_edit hs with ⟨e, he⟩ | ⟨i, j, t, ss, v, ha⟩
      · rw [he]
        exact ⟨hd, hkeeps⟩
      · exact ⟨hd.accepts ha, hkeeps.trans hstep⟩
  unlocked _ _ hs := by cases hs
  atomic _ _ _ hs := by cases hs

end Guarding

/-- **Read-only text is not changed.** On a reachable desk whose spans cover characters and whose
protection is on, an edit at any positions is refused and nothing happens, or it goes around every
read-only span and keeps them all. Hence in every state of a run of edits, each of the read-only
spans that there were at its start is still there, with its properties, over the same text. -/
theorem protected_text_kept (hd : d.Reachable) (hlocked : d.buffer.unlocked = false)
    (hspans : d.buffer.SpansInText) :
    (∀ s : Step, s.isEdit = true → (∃ e, d.take s = ⟨.error e, d, []⟩) ∨
      ((∃ v, (d.take s).outcome = .ok v) ∧ d.buffer.GoesAround (d.take s).desk.buffer ∧
        d.buffer.KeepsReadOnly (d.take s).desk.buffer)) ∧
      ∀ (stops : Bool) (steps : List Step), (∀ s ∈ steps, s.isEdit = true) →
        Through (fun d' => d.buffer.KeepsReadOnly d'.buffer) (d.runAll stops steps).1
          (d.runAll stops steps).2.1 := by
  have hguarding : d.Guarding := ⟨hd.viewInText, hlocked, hspans⟩
  refine ⟨fun s hs => hguarding.take hs, fun stops steps hsteps => ?_⟩
  obtain ⟨hlast, hrecords⟩ := (Guarding.preserves d).run_and_runAll.2 d stops steps hsteps
    ⟨hguarding, hspans.keepsReadOnly⟩
  exact ⟨hlast.2, fun r hr => (hrecords r hr).2⟩

/-- Read-only spans that overlap, lie in one another and stand end to end, one of which lets text in
right behind it. Edits before, between and behind them are accepted; what would delete a character
of them or insert inside them is refused, and so is replacing the text behind the last one, because
the insertion is asked for where the sticky span ends then. -/
theorem protected_text_kept_overlapping :
    let readOnly : Props := ⟨true, false, none⟩
    let start : List Step := [.addSpan (.at 2) (.at 6) readOnly,
      .addSpan (.at 4) (.at 5) contextProps, .addSpan (.at 3) (.at 8) ⟨false, false, none⟩,
      .addSpan (.at 6) (.at 8) contextProps,
      .addSpan (.at 7) (.at 9) readOnly]
    let d := ((fresh (Text.lit "0123456789AB")).runAll false start).1
    let edits : List Step := [.insert (.at 2) (Text.lit "xx") none, .delete (.at 1) (.at 3),
      .delete (.at 1) (.at 4), .insert (.at 5) (Text.lit "y") none,
      .replaceRegion (.at 9) (.at 11) (Text.lit "z"), .delete (.at 9) (.at 11)]
    (d.buffer.unlocked = false ∧ (∀ s ∈ edits, s.isEdit = true) ∧
        d.buffer.readOnlySpans.map d.buffer.text.under
          = [Text.lit "2345", Text.lit "4", Text.lit "67", Text.lit "78"]) ∧
      (d.runAll false edits).1.buffer.text = Text.lit "0x2345678B" ∧
      d.buffer.KeepsReadOnly (d.runAll false edits).1.buffer := by
  intro readOnly start d edits
  have hreachable : d.Reachable := reachable_runAll (Text.lit "0123456789AB") false _ _
  have hlocked : d.buffer.unlocked = false := by decide +kernel
  have hspans : d.buffer.SpansInText := by
    have hall : ∀ s ∈ d.buffer.spans, 0 ≤ s.start ∧ s.start < s.stop ∧ s.stop ≤ d.buffer.size := by
      decide +kernel
    intro s hs
    obtain ⟨h₀, hlt, hle⟩ := hall s hs
    exact ⟨h₀, hlt, hle⟩
  have hedits : ∀ s ∈ edits, s.isEdit = true := by
    intro s hs
    simp only [edits, List.mem_cons, List.not_mem_nil, or_false] at hs
    rcases hs with rfl | rfl | rfl | rfl | rfl | rfl <;> rfl
  have hunder : d.buffer.readOnlySpans.map d.buffer.text.under
      = [Text.lit "2345", Text.lit "4", Text.lit "67", Text.lit "78"] := by decide +kernel
  have htext : (d.runAll false edits).1.buffer.text = Text.lit "0x2345678B" := by decide +kernel
  obtain ⟨-, hrun⟩ := protected_text_kept hreachable hlocked hspans
  exact ⟨⟨hlocked, hedits, hunder⟩, htext, (hrun false edits hedits).1⟩

end Desk

end LiterateEdit
