import LiterateEdit.Proofs.Document.Span

/-!
# What stands around the text of a block

A document is what stands **above** the text of a block, up to its opening line, the text **within**
its fence, and what stands **below**, from the closing line on (`Document.above`, `Document.within`,
`Document.below`). If the fence is not closed, what stands below starts behind the text.

Write-back keeps what stands above and below (`Document.replaceBlock_around`), where it counts lines
as Markdown does and takes the closing line for one: a closing line in a container starts with the
markers of the container, and such a line would be replaced too.
-/

namespace LiterateEdit

open Text Markdown

variable {raw name : Text} {path : Path} {d : Document} {bs : Noted (List Block)} {b : Block}
  {before content behind : List Text} {front new updated : Text}

namespace Document

/-- What stands in a document above the text of a block, up to its opening line. -/
def above (d : Document) (b : Block) : Text :=
  d.raw.take (d.raw.length - d.body.length) ++
    ((Text.lines d.body).take (b.first.toNat + 1)).flatten

/-- The lines of a document that hold the text of a block. -/
def within (d : Document) (b : Block) : Text :=
  (((Text.lines d.body).drop (b.first.toNat + 1)).take (feedLines b.text).length).flatten

/-- What stands in a document below the text of a block, from its closing line on. -/
def below (d : Document) (b : Block) : Text :=
  ((Text.lines d.body).drop (b.first.toNat + 1 + (feedLines b.text).length)).flatten

/-- Does a line close the fence of a block? -/
def IsClosed (b : Block) : Prop := b.stop = b.first + 1 + (feedLines b.text).length + 1

instance (b : Block) : Decidable (IsClosed b) := inferInstanceAs (Decidable (_ = _))

private theorem above_eq (hraw : d.raw = front ++ d.body) (b : Block) :
    d.above b = front ++ ((Text.lines d.body).take (b.first.toNat + 1)).flatten := by
  rw [above, hraw, List.length_append, Nat.add_sub_cancel, List.take_left]

private theorem flatten_split (ls : List Text) (k : Nat) :
    ls.flatten = (ls.take k).flatten ++ (ls.drop k).flatten := by
  rw [← List.flatten_append, List.take_append_drop]

/-- A document is what stands above, within and below. -/
theorem raw_eq_around (hraw : d.raw = front ++ d.body) (b : Block) :
    d.raw = d.above b ++ (d.within b ++ d.below b) := by
  have hbody := flatten_split (Text.lines d.body) (b.first.toNat + 1)
  have hbehind := flatten_split ((Text.lines d.body).drop (b.first.toNat + 1))
    (feedLines b.text).length
  rw [join_lines] at hbody
  rw [List.drop_drop] at hbehind
  rw [above_eq hraw, List.append_assoc, within, below, ← hbehind, ← hbody, ← hraw]

/-- The fence of a block has the lines of its text, an opening line and at most one closing line. -/
theorem measured_of_mem (hparse : Document.parse raw path name = .ok d)
    (hblocks : d.blocks = .ok bs) (hb : b ∈ bs.value) :
    b.stop = b.first + 1 + (feedLines b.text).length ∨ IsClosed b := by
  obtain ⟨dialect, f, hf, hfirst, hstop, htext⟩ := exists_fence_of_mem hparse hblocks hb
  rw [IsClosed, hfirst, hstop, htext]
  exact measured_fences hf

/-- The span of a block ends no later than its text does, if what closes it looks like it. -/
private theorem Span.length_content_le (h : d.Span b before content behind)
    (hmeasured : b.stop = b.first + 1 + (feedLines b.text).length ∨ IsClosed b)
    (hclosing : IsClosed b → Replace.isClosingFence (d.lastOf b) = true) :
    content.length ≤ (feedLines b.text).length := by
  have hclosingAt := h.closing
  have hfirst := h.first
  have hstop := h.stop
  rcases hmeasured with hopen | hclosed
  · have hspan : before.length < b.stop.toNat := by omega
    have hle := (Replace.closingAt_bounds (Text.lines d.body) hspan).2
    omega
  · have hlast := hclosing hclosed
    rw [IsClosed] at hclosed
    rw [lastOf] at hlast
    rw [Replace.closingAt, if_pos ⟨by omega, hlast⟩] at hclosingAt
    omega

end Document

/-! ### No carriage returns come in -/

namespace Replace

private theorem exists_openingLine (opening new : Text) :
    ∃ feed, openingLine opening new = opening ++ feed ∧ '\r' ∉ feed := by
  have hnone : ∃ feed, opening = opening ++ feed ∧ '\r' ∉ feed :=
    ⟨[], (List.append_nil opening).symm, List.not_mem_nil⟩
  unfold openingLine withFeed
  split
  · exact hnone
  · split
    · exact hnone
    · exact ⟨['\n'], rfl, by decide⟩

private theorem not_mem_newLines (opening : Text) (h : '\r' ∉ new) :
    '\r' ∉ (newLines opening new).flatten := by
  have hfed : '\r' ∉ (Text.lines (withFeed new)).flatten := by
    rw [join_lines, withFeed]
    split
    · exact h
    · exact fun hmem => (List.mem_append.1 hmem).elim h (by decide)
  intro hmem
  obtain ⟨l, hl, hmem⟩ := List.mem_flatten.1 hmem
  obtain ⟨line, hline, rfl⟩ := List.mem_map.1 hl
  have hline : '\r' ∉ line := fun hmem => hfed (List.mem_flatten.2 ⟨line, hline, hmem⟩)
  unfold indentLine at hmem
  split at hmem
  · exact hline hmem
  · rcases List.mem_append.1 hmem with hmem | hmem
    · exact absurd (List.all_eq_true.1 List.all_takeWhile _ hmem) (by decide)
    · exact hline hmem

end Replace

namespace Document

/-- **Write-back keeps what stands above and below** the text of a block, where it counts lines as
Markdown does and takes the line that closes the fence for one. Carriage returns come in with the
new text only. -/
theorem replaceBlock_around (hparse : Document.parse raw path name = .ok d)
    (hblocks : d.blocks = .ok bs) (hb : b ∈ bs.value)
    (hlines : ∀ l ∈ (Text.lines d.body).take b.stop.toNat, FeedBroken l)
    (hclosing : IsClosed b → Replace.isClosingFence (d.lastOf b) = true) (new : Text) :
    ∃ mid, d.replaceBlock b new = .ok (d.above b ++ (mid ++ d.below b)) ∧
      ('\r' ∉ d.raw → '\r' ∉ new → '\r' ∉ mid) := by
  obtain ⟨-, front, -, hraw, hself, -, -, -⟩ := of_parse_eq_ok hparse
  have hdraw := hself.trans hraw
  obtain ⟨before, content, behind, hspan⟩ := exists_span hparse hblocks hb hlines
  have hle := hspan.length_content_le (measured_of_mem hparse hblocks hb) hclosing
  have hfirst : b.first.toNat = before.length := by rw [hspan.first, Int.toNat_natCast]
  have habove : d.above b = front ++ (before ++ [d.openingOf b]).flatten := by
    rw [above_eq hdraw, hfirst, hspan.lines, List.take_append, List.take_of_length_le (by omega),
      Nat.add_sub_cancel_left]
    rfl
  -- what is kept behind the span are lines of the text and what stands below
  have hbelow : d.below b = (behind.drop ((feedLines b.text).length - content.length)).flatten := by
    rw [below, hfirst, hspan.lines, Nat.add_assoc, List.drop_append,
      List.drop_eq_nil_of_le (by omega), List.nil_append, Nat.add_sub_cancel_left, Nat.add_comm 1,
      List.drop_succ_cons, List.drop_append, List.drop_eq_nil_of_le hle, List.nil_append]
  obtain ⟨feed, hopening, hfeed⟩ := Replace.exists_openingLine (d.openingOf b) new
  refine ⟨feed ++ ((Replace.newLines (d.openingOf b) new).flatten ++
    (behind.take ((feedLines b.text).length - content.length)).flatten), ?_, ?_⟩
  · have hkept := flatten_split behind ((feedLines b.text).length - content.length)
    rw [hspan.replaceBlock_eq_ok hdraw, habove, hbelow, hopening]
    simp only [List.flatten_append, List.flatten_cons, List.flatten_nil, List.append_nil,
      List.append_assoc, ← hkept]
  · intro hold hnew hmem
    rcases List.mem_append.1 hmem with hmem | hmem
    · exact hfeed hmem
    rcases List.mem_append.1 hmem with hmem | hmem
    · exact Replace.not_mem_newLines _ hnew hmem
    · obtain ⟨l, hl, hmem⟩ := List.mem_flatten.1 hmem
      refine hold ?_
      rw [hdraw, ← join_lines d.body, hspan.lines]
      refine List.mem_append_right front (List.mem_flatten.2 ⟨l, ?_, hmem⟩)
      exact List.mem_append_right before (List.mem_cons_of_mem _
        (List.mem_append_right content (List.mem_of_mem_take hl)))

end Document

end LiterateEdit
