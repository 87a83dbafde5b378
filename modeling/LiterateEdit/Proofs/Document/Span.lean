import LiterateEdit.Proofs.Document.Place
import LiterateEdit.Proofs.Markdown.Extent

/-!
# The span of a block

Write-back replaces lines of the text of a document. If the lines up to the end of a block are
broken by line feeds only, these are the lines that Markdown found the block in, whatever containers
it stands in and whatever stands behind it. So the block has its **span** (`Document.Span`): its
opening line, which holds a mark, the lines that are replaced, and the lines behind them, which are
kept; and the write-back succeeds (`Document.Span.replaceBlock_eq_ok`).

Of the lines from the opening line to the end of the span each is ended by a line feed if another
line follows (`Document.exists_span`).
-/

namespace LiterateEdit

open Text Markdown

variable {raw name : Text} {path : Path} {d : Document} {bs : Noted (List Block)} {b : Block}
  {before content behind : List Text}

/-- What is kept behind a span starts behind its opening line, and no later than the span ends. -/
theorem Replace.closingAt_bounds (lines : List Text) {first stop : Nat} (h : first < stop) :
    first < closingAt lines first stop ∧ closingAt lines first stop ≤ stop := by
  unfold closingAt
  split <;> omega

/-- **The span of a block** in the lines of its document: the lines before its opening line, those
that are replaced, and those that are kept behind them. -/
structure Document.Span (d : Document) (b : Block) (before content behind : List Text) : Prop where
  lines : Text.lines d.body = before ++ d.openingOf b :: (content ++ behind)
  first : b.first = before.length
  stop : before.length < b.stop ∧ b.stop ≤ (Text.lines d.body).length
  closing : Replace.closingAt (Text.lines d.body) before.length b.stop.toNat =
    before.length + 1 + content.length
  mark : HoldsMark (d.openingOf b)
  opening_fed : IsFeedLine (d.openingOf b) ∨ '\n' ∉ d.openingOf b ∧ content ++ behind = []
  fed : behind ≠ [] → ∀ l ∈ d.openingOf b :: content, IsFeedLine l

namespace Document

/-- A block has the lines and the content of a fence of the body. -/
theorem exists_fence_of_mem (hparse : Document.parse raw path name = .ok d)
    (hblocks : d.blocks = .ok bs) (hb : b ∈ bs.value) :
    ∃ dialect, ∃ f ∈ Markdown.fences dialect d.body,
      b.first = f.first ∧ b.stop = f.stop ∧ b.text = f.content := by
  obtain ⟨dialect, -, -, -, -, -, -, hfences⟩ := of_parse_eq_ok hparse
  obtain ⟨defaults, -, hvalue⟩ := of_blocks_eq_ok hblocks
  rw [hvalue] at hb
  obtain ⟨f, hf, rfl⟩ := List.mem_map.1 hb
  rw [hfences] at hf
  exact ⟨dialect, f, hf, f.toBlock_first d.path defaults, f.toBlock_stop d.path defaults,
    f.toBlock_text d.path defaults⟩

/-- **Every block has its span** if the lines up to its end are broken by line feeds only. -/
theorem exists_span (hparse : Document.parse raw path name = .ok d) (hblocks : d.blocks = .ok bs)
    (hb : b ∈ bs.value) (hlines : ∀ l ∈ (Text.lines d.body).take b.stop.toNat, FeedBroken l) :
    ∃ before content behind, d.Span b before content behind := by
  obtain ⟨dialect, f, hf, hfirst, hstop, -⟩ := exists_fence_of_mem hparse hblocks hb
  obtain ⟨first, stop, hfirst', hstop', hlt, hle, hmark⟩ :=
    (standsIn_fences hf).exists_opening (hstop ▸ hlines)
  rw [← hfirst] at hfirst'
  rw [← hstop] at hstop'
  rw [hstop', Int.toNat_natCast] at hlines
  have hopening : d.openingOf b = (Text.lines d.body).getD first [] := by
    rw [openingOf, hfirst', Int.toNat_natCast]
  obtain ⟨hfar, hnear⟩ := Replace.closingAt_bounds (Text.lines d.body) hlt
  obtain ⟨before, content, behind, hsplit, hbefore, hcontent⟩ :=
    Replace.exists_split hfar (Nat.le_trans hnear hle)
  rw [← hopening] at hsplit hmark
  have hbroken : ∀ l ∈ before ++ d.openingOf b :: content, FeedBroken l := by
    intro l hl
    refine hlines l (List.IsPrefix.mem hl (List.prefix_take_iff.2 ⟨⟨behind, ?_⟩, ?_⟩))
    · rw [hsplit, List.append_assoc, List.cons_append]
    · rw [List.length_append, List.length_cons]
      omega
  refine ⟨before, content, behind, hsplit, hbefore ▸ hfirst', ?_, ?_, hmark, ?_, fun hne l hl => ?_⟩
  · rw [hstop', hbefore]
    exact ⟨Int.ofNat_lt.2 hlt, Int.ofNat_le.2 hle⟩
  · rw [hstop', Int.toNat_natCast, hbefore, ← hcontent]
    omega
  · exact (hbroken _ (List.mem_append_right before List.mem_cons_self)).isFeedLine hsplit
  -- what follows a line shows that it is not the last one
  · obtain ⟨front, back, hline⟩ := List.append_of_mem hl
    have hall : Text.lines d.body = (before ++ front) ++ l :: (back ++ behind) := by
      rw [hsplit, ← List.cons_append, hline, List.append_assoc, List.append_assoc, List.cons_append]
    refine ((hbroken l (List.mem_append_right before hl)).isFeedLine hall).resolve_right ?_
    exact fun hlast => hne (List.append_eq_nil_iff.1 hlast.2).2

namespace Span

variable {front new : Text}

/-- **Write-back exchanges the content of the span** and succeeds. -/
theorem replaceBlock_eq_ok (h : d.Span b before content behind) (hraw : d.raw = front ++ d.body)
    (new : Text) :
    d.replaceBlock b new = .ok (front ++ (before ++ Replace.openingLine (d.openingOf b) new ::
      (Replace.newLines (d.openingOf b) new ++ behind)).flatten) := by
  obtain ⟨hlt, hle⟩ := h.stop
  obtain ⟨stop, hstop⟩ : ∃ stop : Nat, b.stop = stop := ⟨b.stop.toNat, by omega⟩
  have hclosing := h.closing
  rw [hstop] at hlt hle hclosing
  rw [Int.toNat_natCast, h.lines] at hclosing
  rw [Document.replaceBlock, hraw, h.first, hstop,
    replaceLines_eq_ok front d.body b.identity (Int.ofNat_lt.1 hlt) (Int.ofNat_le.1 hle), h.lines,
    Replace.spliceLines_append hclosing]

end Span

end Document

end LiterateEdit
