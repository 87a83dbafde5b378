import LiterateEdit.Proofs.Document.Place
import LiterateEdit.Proofs.Markdown.Exchange

/-!
# A text as it is written

A text goes into a document as it stands: its lines are indented, and nothing in them is escaped. So
what is written need not be the content of the fence. The opening line **takes** a text
(`Replace.Takes`) if the lines as they are written neither end the fence nor, under an opening line
with a bar, make a table of it, and if nothing in the text is lost: Markdown replaces carriage
returns and null characters, and under an indented opening line a blank line is not indented, and a
line that is broken otherwise than by a line feed is indented in its middle.

To Markdown a text that is taken is an exchange of the lines behind the opening line
(`exchange_of_takes`).
-/

namespace LiterateEdit

open Text Markdown

/-- Could a line close a fence whose opening line is indented by `n` columns? -/
def Markdown.FenceMark.mayClose (m : FenceMark) (n : Nat) (l : Line) : Bool :=
  l.indent < n + 4 && m.length ≤ runLength m.marker l.body &&
    (l.body.drop (runLength m.marker l.body)).all isGap

namespace Replace

/-- The lines that a text is written as under an opening line, as Markdown cuts them. -/
def writtenLines (opening new : Text) : List Text := feedLines (newLines opening new).flatten

/-- **An opening line takes a text** if the text, as it is written, is the content of the fence and
nothing else. -/
structure Takes (opening new : Text) : Prop where
  clean : IsClean new
  indented : opening.head? = some ' ' →
    IsPlain new ∧ ∀ l ∈ Text.lines (withFeed new), isBlankText l = true → l = ['\n']
  unclosed : ∀ m ∈ FenceMark.ofText? (Line.ofCut 0 opening).body, ∀ l ∈ writtenLines opening new,
    m.mayClose (opening.takeWhile (· = ' ')).length (.ofCut 0 l) = false
  row : '|' ∈ opening → ∀ l ∈ (writtenLines opening new).head?,
    looksDelimiting (Line.ofCut 0 l).body = false

/-! ### The lines that are written -/

variable {m : FenceMark} {c : Context} {mark new line l : Text} {n : Nat}

theorem flatten_writtenLines (opening new : Text) :
    (writtenLines opening new).flatten = (newLines opening new).flatten := flatten_feedLines _

/-- Each line that is written ends in a line feed. -/
theorem isFeedLine_writtenLines (opening new : Text) :
    ∀ l ∈ writtenLines opening new, IsFeedLine l :=
  isFeedLine_of_mem_feedLines (getLast?_newLines opening new)

private theorem writtenLines_unindented (hmark : mark.head? ≠ some ' ') :
    writtenLines mark new = feedLines (withFeed new) := by
  rw [writtenLines, flatten_newLines hmark]

private theorem writtenLines_plain (n : Nat) (hmark : mark.head? ≠ some ' ')
    (hplain : IsPlain new) :
    writtenLines (List.replicate n ' ' ++ mark) new =
      newLines (List.replicate n ' ' ++ mark) new := by
  have hrows (l : Text) (hl : l ∈ newLines (List.replicate n ' ' ++ mark) new) : IsFeedLine l :=
    ((isFed_newLines n hmark hplain l hl).isRow (isPlain_newLines n hmark hplain l hl)).isFeedLine
  refine feedLines_flatten (List.pairwise_iff_forall_sublist.2 fun hsub => ?_)
    fun l hl => .inl (hrows l hl)
  exact hrows _ (hsub.subset List.mem_cons_self)

namespace Takes

variable (h : Takes (List.replicate n ' ' ++ mark) new) (hmark : mark.head? ≠ some ' ')

include h

private theorem unindented_or_plain :
    n = 0 ∨ IsPlain new ∧ ∀ l ∈ Text.lines (withFeed new), isBlankText l = true → l = ['\n'] := by
  cases n with
  | zero => exact .inl rfl
  | succ n => exact .inr (h.indented rfl)

include hmark

theorem isRow : ∀ l ∈ writtenLines (List.replicate n ' ' ++ mark) new, IsRow l := by
  rcases h.unindented_or_plain with rfl | ⟨hplain, -⟩
  · rw [List.replicate_zero, List.nil_append, writtenLines_unindented hmark]
    exact isRow_of_mem_feedLines (isClean_withFeed h.clean) (getLast?_withFeed new)
  · rw [writtenLines_plain n hmark hplain]
    intro l hl
    exact (isFed_newLines n hmark hplain l hl).isRow (isPlain_newLines n hmark hplain l hl)

theorem ungapped : ∀ l ∈ writtenLines (List.replicate n ' ' ++ mark) new, l.all isGap = false := by
  intro l hl
  obtain ⟨u, -, -, rfl⟩ := h.isRow hmark l hl
  exact not_all_isGap_feed u

/-- **The lines are read as they were before they were written.** -/
theorem flatten_outdented :
    ((writtenLines (List.replicate n ' ' ++ mark) new).map (outdentText n)).flatten =
      withFeed new := by
  have hrows := h.isRow hmark
  rcases h.unindented_or_plain with rfl | ⟨hplain, hblank⟩
  -- nothing is put before the lines, and nothing is taken off
  · have hself : (writtenLines (List.replicate 0 ' ' ++ mark) new).map (outdentText 0) =
        (writtenLines (List.replicate 0 ' ' ++ mark) new).map id := by
      refine List.map_congr_left fun l hl => ?_
      obtain ⟨u, -, -, rfl⟩ := hrows l hl
      exact outdentText_zero u
    rw [hself, List.map_id, flatten_writtenLines, List.replicate_zero, List.nil_append,
      flatten_newLines hmark]
  -- what is put before a line is taken off again, and a blank line has nothing to take off
  · have hself :
        (Text.lines (withFeed new)).map (outdentText n ∘ indentLine (List.replicate n ' ')) =
        (Text.lines (withFeed new)).map id := by
      refine List.map_congr_left fun l hl => ?_
      change outdentText n (indentLine _ l) = l
      unfold indentLine
      split
      · next hb =>
        rw [hblank l hl hb]
        exact (outdentText_eq_self_iff n ⟨[], by decide, rfl⟩).2 (.inr rfl)
      · obtain ⟨u, -, rfl⟩ := isFed_lines_withFeed hplain l hl
        exact outdentText_spaces n u
    rw [writtenLines_plain n hmark hplain, newLines_eq n hmark, List.map_map, hself, List.map_id,
      join_lines]

/-- A line that holds anything is written behind the columns of the opening line. -/
private theorem le_indent (hl : l ∈ writtenLines (List.replicate n ' ' ++ mark) new) (k : Nat)
    (hempty : (Line.ofCut k l).isEmpty = false) : n ≤ (Line.ofCut k l).indent := by
  rcases h.unindented_or_plain with rfl | ⟨hplain, hblank⟩
  · unfold Line.ofCut
    split <;> exact Int.natCast_nonneg _
  · rw [writtenLines_plain n hmark hplain, newLines_eq n hmark] at hl
    obtain ⟨line, hline, rfl⟩ := List.mem_map.1 hl
    unfold indentLine at hempty ⊢
    split
    · next hb =>
      rw [if_pos hb, hblank line hline hb] at hempty
      cases hempty
    · obtain ⟨u, -, rfl⟩ := isFed_lines_withFeed hplain line hline
      rw [← List.append_assoc, Line.ofCut_feed]
      change (n : Int) ≤ (lead 0 0 (List.replicate n ' ' ++ u)).2
      rw [lead_spaces, Nat.zero_add]
      exact Int.ofNat_le.2 (le_lead_width 0 n u)

/-- **The fence holds the lines.** -/
theorem holds (hm : FenceMark.ofText? (Line.ofCut 0 (List.replicate n ' ' ++ mark)).body = some m)
    (hbase : c.base ≤ n) (hl : l ∈ writtenLines (List.replicate n ' ' ++ mark) new) (k : Nat) :
    m.holds c (.ofCut k l) = true := by
  have hopen := h.unclosed m hm l hl
  rw [takeWhile_spaces n hmark, List.length_replicate] at hopen
  have hclosed : m.closedBy c (.ofCut k l) = false := by
    rw [Line.ofCut_eq]
    change m.closedBy c (.ofCut 0 l) = false
    revert hopen
    simp only [FenceMark.mayClose, FenceMark.closedBy, Bool.and_eq_false_iff, Bool.not_eq_eq_eq_not,
      Bool.not_false, decide_eq_false_iff_not]
    -- a line too far in to close a fence at the column of the opening line is so in any container
    refine Or.imp_left (Or.imp_left fun hfar => ?_)
    apply decide_eq_true
    omega
  unfold FenceMark.holds
  split
  · obtain ⟨u, -, -, rfl⟩ := h.isRow hmark l hl
    rw [Line.ofCut_feed]
    rfl
  · next hempty =>
    have hindent := h.le_indent hmark hl k (Bool.eq_false_iff.2 hempty)
    have hinside : (Line.ofCut k l).isOutdented c = false := by
      apply decide_eq_false
      omega
    rw [hinside, hclosed]
    rfl

end Takes

end Replace

/-! ### The exchange -/

/-- Lines that are moved change nothing but their numbers. -/
theorem Markdown.linesFrom_unnumbered (k k' : Nat) (t : Text) :
    (linesFrom k t).map Line.unnumbered = (linesFrom k' t).map Line.unnumbered := by
  have hpieces (k k' : Nat) (ps : List Text) :
      (Line.ofPieces k ps).map Line.unnumbered = (Line.ofPieces k' ps).map Line.unnumbered := by
    induction ps generalizing k k' with
    | nil => rfl
    | cons p ps ih =>
      cases ps with
      | nil =>
        rw [Line.ofPieces, Line.ofPieces]
        split <;> rfl
      | cons q ps =>
        rw [Line.ofPieces, Line.ofPieces, List.map_cons, List.map_cons, ih (k + 1) (k' + 1)]
        rfl
  exact hpieces k k' _

private theorem extent_linesFrom (m : FenceMark) (c : Context) (k k' : Nat) (t : Text) :
    m.extent c (linesFrom k t) = m.extent c (linesFrom k' t) := by
  rw [← m.extent_unnumbered, linesFrom_unnumbered k k', m.extent_unnumbered]

/-- The lines that a fence holds leave something in its text. -/
private theorem outdented_ne_nil_of_holds {m : FenceMark} {c : Context} {l : Line} {k n : Nat}
    {t : Text} (hl : l ∈ linesFrom k t) (h : m.holds c l = true) : l.outdented n ≠ [] := by
  obtain ⟨-, b, u, -, hline⟩ := mem_linesFrom hl
  rw [hline]
  apply Line.outdented_ofText_ne_nil
  rw [FenceMark.holds] at h
  split at h
  · left
    rwa [hline] at h
  · next hempty =>
    right
    rw [hline, Line.isEmpty_ofText] at hempty
    exact Bool.eq_false_iff.2 hempty

/-- What is left behind the content of a fence and its closing line. -/
private theorem drop_content {content : List Text} (h : ∀ l ∈ content, l.all isGap = false)
    (k : Nat) (behind : List Line) (closed : Bool) :
    (numbered k content ++ behind).drop (if closed then content.length + 1 else content.length) =
      behind.drop (if closed then 1 else 0) := by
  have hlength := length_numbered_of_ungapped k h
  rw [← hlength]
  cases closed with
  | false => exact List.drop_left
  | true =>
    change List.drop ((numbered k content).length + 1) _ = _
    rw [← List.drop_drop, List.drop_left]
    rfl

namespace Fence.Place

variable {f : Fence} {m : FenceMark} {c : Context} {ls before content behind : List Text}
  {mark new : Text} {n : Nat}

/-- The lines behind the opening line. -/
theorem linesFrom_behind (h : f.Place ls before n mark content behind) (k : Nat) :
    linesFrom k (content ++ behind).flatten =
      numbered k content ++ linesFrom (k + content.length) behind.flatten := by
  rw [List.flatten_append]
  refine linesFrom_cut k h.cut_content (fun l hl => ?_) fun hne l hl => ?_
  · exact h.plain l (List.mem_append_right before (List.mem_cons_of_mem _ hl))
  · have hbehind : behind ≠ [] := fun hnil => hne (by rw [hnil]; rfl)
    exact h.fed hbehind l (List.mem_append_right before (List.mem_cons_of_mem _ hl))

/-- The lines behind the opening line with a text in the place of the content. -/
theorem linesFrom_written (h : f.Place ls before n mark content behind)
    (htakes : Replace.Takes (List.replicate n ' ' ++ mark) new) (k : Nat) :
    linesFrom k (Replace.newLines (List.replicate n ' ' ++ mark) new ++ behind).flatten =
      numbered k (Replace.writtenLines (List.replicate n ' ' ++ mark) new) ++
        linesFrom (k + (Replace.writtenLines (List.replicate n ' ' ++ mark) new).length)
          behind.flatten := by
  rw [List.flatten_append, ← Replace.flatten_writtenLines,
    linesFrom_rows k (htakes.isRow h.mark_ne_space)]

/-- **A fence that is read at its place has the content of its place**, and what ends it stands
behind. -/
private theorem read_content (h : f.Place ls before n mark content behind)
    (hread : (m.read c (.ofCut before.length (List.replicate n ' ' ++ mark))
      (linesFrom (before.length + 1) (content ++ behind).flatten)).1 = f) :
    ∃ closed,
      m.extent c (linesFrom (before.length + 1 + content.length) behind.flatten) = (0, closed) ∧
      m.read c (.ofCut before.length (List.replicate n ' ' ++ mark))
          (linesFrom (before.length + 1) (content ++ behind).flatten) =
        (⟨m.info, f.content, before.length,
          before.length + 1 + (if closed then content.length + 1 else content.length : Nat)⟩,
          if closed then content.length + 1 else content.length) := by
  rw [h.linesFrom_behind] at hread ⊢
  obtain ⟨front, back, hlines, hholds, -, hback⟩ := m.exists_content c
    (numbered (before.length + 1) content ++
      linesFrom (before.length + 1 + content.length) behind.flatten)
  have hnear : ∀ l ∈ numbered (before.length + 1) content, l.outdented n ≠ [] := by
    intro l hl
    obtain ⟨i, t, -, hgap, rfl⟩ := mem_numbered hl
    rw [Line.outdented_ofCut]
    exact outdentText_ne_nil n hgap
  have hfar : ∀ l ∈ linesFrom (before.length + 1 + content.length) behind.flatten,
      m.holds c l = true → l.outdented n ≠ [] := fun l hl => outdented_ne_nil_of_holds hl
  generalize linesFrom (before.length + 1 + content.length) behind.flatten = far at *
  generalize (m.extent c (numbered (before.length + 1) content ++ far)).2 = closed at hback
  rw [hlines, FenceMark.read_append hholds hback, h.indent_opening, Int.toNat_natCast,
    Line.number_ofCut] at hread ⊢
  have htext : (front.map (Line.outdented n)).flatten =
      ((numbered (before.length + 1) content).map (Line.outdented n)).flatten := by
    rw [map_outdented_numbered _ _ h.ungapped, ← h.text, ← hread]
  -- a line more or less would show in the text
  obtain ⟨rfl, rfl⟩ : front = numbered (before.length + 1) content ∧ back = far := by
    rcases List.append_eq_append_iff.1 hlines with ⟨u, rfl, rfl⟩ | ⟨u, hu, rfl⟩
    · rw [List.map_append, List.flatten_append, List.append_right_eq_self] at htext
      have hnil : u = [] := List.eq_nil_iff_forall_not_mem.2 fun l hl =>
        hfar l (List.mem_append_left back hl) (hholds l (List.mem_append_right _ hl))
          (List.flatten_eq_nil_iff.1 htext _ (List.mem_map_of_mem hl))
      rw [hnil, List.append_nil]
      exact ⟨rfl, rfl⟩
    · rw [hu, List.map_append, List.flatten_append, List.self_eq_append_right] at htext
      have hnil : u = [] := List.eq_nil_iff_forall_not_mem.2 fun l hl =>
        hnear l (hu ▸ List.mem_append_right front hl)
          (List.flatten_eq_nil_iff.1 htext _ (List.mem_map_of_mem hl))
      rw [hu, hnil, List.append_nil]
      exact ⟨rfl, rfl⟩
  refine ⟨closed, hback, ?_⟩
  rw [length_numbered_of_ungapped _ h.ungapped] at hread ⊢
  rw [← hread]

/-- No table starts at the opening line with the lines that are written behind it. -/
private theorem no_table (h : f.Place ls before n mark content behind)
    (htakes : Replace.Takes (List.replicate n ' ' ++ mark) new) {closed : Bool} {far : List Line}
    {k : Nat} (hm : (m.marker = '`' ∨ m.marker = '~') ∧ 3 ≤ m.length)
    (hclosing : m.extent c far = (0, closed)) :
    (numbered k (Replace.writtenLines (List.replicate n ' ' ++ mark) new) ++ far).head?.bind
      (tableColumns? c (.ofCut before.length (List.replicate n ' ' ++ mark))) = none := by
  by_cases hbar : '|' ∈ List.replicate n ' ' ++ mark
  · have hrow := htakes.row hbar
    have hungapped := htakes.ungapped h.mark_ne_space
    cases hlines : Replace.writtenLines (List.replicate n ' ' ++ mark) new with
    | nil => exact FenceMark.no_table_behind hm.1 (by omega) hclosing _
    | cons t rest =>
      rw [hlines] at hrow hungapped
      rw [numbered_cons _ (hungapped t List.mem_cons_self), List.cons_append]
      refine tableColumns?_eq_none_of_delimiters (.inl ?_) _
      rw [Line.ofCut_eq]
      exact hrow t rfl
  · refine bind_tableColumns?_eq_none (fun hmem => hbar ?_) _
    obtain ⟨e, u, rfl, he⟩ := h.exists_mark
    obtain ⟨-, v, hbody, hsub⟩ := Line.ofCut_spaces before.length n (c := e) (u := u)
      (by rcases he with rfl | rfl <;> decide) (by rcases he with rfl | rfl <;> decide)
    rw [hbody] at hmem
    refine List.mem_append_right _ ?_
    rcases List.mem_cons.1 hmem with rfl | hmem
    · exact List.mem_cons_self
    · exact List.mem_cons_of_mem e (hsub _ hmem)

end Fence.Place

/-- The fence after the text was written to it. -/
def Fence.written (f : Fence) (opening new : Text) : Fence :=
  { f with
    content := Replace.withFeed new
    stop := f.stop - (Text.lines f.content).length + (Replace.writtenLines opening new).length }

section

variable {f : Fence} {m : FenceMark} {c : Context} {ls before content behind : List Text}
  {mark new : Text} {n : Nat}

/-- The fence is read with the text that was written, and the same lines are left behind it. -/
private theorem read_written (hplace : f.Place ls before n mark content behind)
    (htakes : Replace.Takes (List.replicate n ' ' ++ mark) new)
    (hout : (Line.ofCut before.length (List.replicate n ' ' ++ mark)).isOutdented c = false)
    (hm : FenceMark.ofLine? c (.ofCut before.length (List.replicate n ' ' ++ mark)) = some m)
    {closed : Bool}
    (hclosing : m.extent c (linesFrom (before.length + 1 + content.length) behind.flatten) =
      (0, closed)) :
    m.read c (Line.ofCut before.length (List.replicate n ' ' ++ mark)).fed
        (linesFrom (before.length + 1)
          (Replace.newLines (List.replicate n ' ' ++ mark) new ++ behind).flatten) =
      (⟨m.info, Replace.withFeed new, before.length, before.length + 1 +
        (if closed then (Replace.writtenLines (List.replicate n ' ' ++ mark) new).length + 1
          else (Replace.writtenLines (List.replicate n ' ' ++ mark) new).length : Nat)⟩,
        if closed then (Replace.writtenLines (List.replicate n ' ' ++ mark) new).length + 1
          else (Replace.writtenLines (List.replicate n ' ' ++ mark) new).length) := by
  have hmark := FenceMark.of_ofLine? hm
  rw [Line.ofCut_eq] at hmark
  have hungapped := htakes.ungapped hplace.mark_ne_space
  have hbase : c.base ≤ n := by
    have hindent : ¬ (Line.ofCut before.length (List.replicate n ' ' ++ mark)).indent < c.base :=
      of_decide_eq_false hout
    rw [hplace.indent_opening] at hindent
    omega
  -- the fence holds each of the new lines, and is closed behind them as it was before
  have hholds : ∀ l ∈ numbered (before.length + 1)
      (Replace.writtenLines (List.replicate n ' ' ++ mark) new), m.holds c l = true := by
    intro l hl
    obtain ⟨i, t, ht, -, rfl⟩ := mem_numbered hl
    exact htakes.holds hplace.mark_ne_space hmark hbase (List.mem_of_getElem? ht) _
  have hindent : (Line.ofCut before.length (List.replicate n ' ' ++ mark)).fed.indent = n :=
    hplace.indent_opening before.length
  have hnumber : (Line.ofCut before.length (List.replicate n ' ' ++ mark)).fed.number =
      before.length := Line.number_ofCut _ _
  rw [extent_linesFrom m c _ (before.length + 1 +
    (Replace.writtenLines (List.replicate n ' ' ++ mark) new).length)] at hclosing
  rw [hplace.linesFrom_written htakes, FenceMark.read_append hholds hclosing, hindent, hnumber,
    Int.toNat_natCast, map_outdented_numbered _ _ hungapped,
    htakes.flatten_outdented hplace.mark_ne_space, length_numbered_of_ungapped _ hungapped]

/-- **To write a text is an exchange** of the lines behind the opening line. -/
theorem exchange_of_takes (hplace : f.Place ls before n mark content behind)
    (htakes : Replace.Takes (List.replicate n ' ' ++ mark) new) :
    Exchange (.ofCut before.length (List.replicate n ' ' ++ mark))
      (linesFrom (before.length + 1) (content ++ behind).flatten)
      (linesFrom (before.length + 1)
        (Replace.newLines (List.replicate n ' ' ++ mark) new ++ behind).flatten)
      f (f.written (List.replicate n ' ' ++ mark) new) := by
  refine ⟨hplace.opens, ?_, ?_, ?_, ?_⟩
  · rw [hplace.indent_opening]
    exact Int.natCast_nonneg n
  · rw [hplace.first, Line.number_ofCut]
  · intro l hl
    have hnumber := (mem_linesFrom hl).1
    rw [Line.number_ofCut]
    omega
  -- whatever container the opening line is read in, the fence ends where it ended before
  intro c m hout hm hread
  obtain ⟨hmarker, hlength, -⟩ := FenceMark.of_ofText? (FenceMark.of_ofLine? hm)
  obtain ⟨closed, hclosing, hold⟩ := hplace.read_content hread
  have hnew := read_written hplace htakes hout hm hclosing
  refine ⟨?_, ?_, ?_⟩
  · rw [hplace.linesFrom_written htakes]
    rw [extent_linesFrom m c _ _] at hclosing
    exact hplace.no_table htakes ⟨hmarker, hlength⟩ hclosing
  · rw [hold] at hread
    rw [hnew, Fence.written, hplace.length_lines_text, ← hread]
    change Fence.mk _ _ _ _ = Fence.mk _ _ _ _
    congr 1
    dsimp only
    split <;> omega
  · rw [hnew, hold, hplace.linesFrom_written htakes, hplace.linesFrom_behind]
    dsimp only
    rw [drop_content (htakes.ungapped hplace.mark_ne_space), drop_content hplace.ungapped,
      List.map_drop, List.map_drop, linesFrom_unnumbered _ (before.length + 1 + content.length)]

end

end LiterateEdit
