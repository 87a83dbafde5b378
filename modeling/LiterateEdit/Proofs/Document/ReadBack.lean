import LiterateEdit.Proofs.Document.KeptFront

/-!
# What is written is read back

A document to which a text was written is read again: the block that was written to has the new
text, and all others are as they were (`replaceBlock_read_back`). This is for texts that the block
can take (`Document.Takes`): its opening line takes it, and no front matter comes about.

The lines behind the opening line are exchanged, and that the rest of the document is read as before
is a fact about all readers (`Exchange.follows_fencesWithin`). What stands behind the block is never
looked at, so it may be anything.
-/

namespace LiterateEdit

open Text Markdown

variable {raw name new : Text} {path : Path} {d : Document} {bs : Noted (List Block)} {b : Block}

/-- **A block takes a text** if its opening line does and if the text, as it is written, gives the
document no other front matter. -/
structure Document.Takes (d : Document) (b : Block) (new : Text) : Prop
    extends Replace.Takes (d.openingOf b) new where
  front : Frontmatter.fence <+: d.raw →
    (∃ cut, Frontmatter.cut? d.raw = some cut ∧ isBlankText cut.header = false) ∨
      ∀ l ∈ Replace.writtenLines (d.openingOf b) new, ¬ Frontmatter.IsDelimiter l

/-! ### The new document -/

section Body

variable {f : Fence} {ls before content behind : List Text} {mark u v w : Text} {e : Char} {n : Nat}

/-- The lines of a document around one that has its line feed. -/
private theorem lines_around_row {row : Text} (hbefore : ∀ l ∈ before, IsRow l) (hrow : IsRow row)
    (rest : List Text) :
    Markdown.lines (before ++ row :: rest).flatten = numbered 0 before ++
      .ofCut before.length row :: linesFrom (before.length + 1) rest.flatten := by
  change linesFrom 0 _ = _
  rw [List.flatten_append, linesFrom_rows 0 hbefore, Nat.zero_add, List.flatten_cons,
    linesFrom_row _ hrow]

namespace Fence.Place

/-- The opening line has its line feed, unless it is the last line of the document. -/
private theorem opening_cases (h : f.Place ls before n mark content behind) :
    ∃ u, Unbroken u ∧ IsClean u ∧ (List.replicate n ' ' ++ mark = u ++ ['\n'] ∨
      List.replicate n ' ' ++ mark = u ∧ content ++ behind = []) := by
  have hmem : List.replicate n ' ' ++ mark ∈ before ++ (List.replicate n ' ' ++ mark) :: content :=
    List.mem_append_right before List.mem_cons_self
  have hplain := h.plain _ hmem
  have hcut := (Cut.of_append h.cut).1
  by_cases hrest : content ++ behind = []
  · obtain ⟨rfl, rfl⟩ := List.append_eq_nil_iff.1 hrest
    generalize List.replicate n ' ' ++ mark = opening at *
    cases hcut with
    | last hne hu => exact ⟨opening, hu, hplain.isClean, .inr ⟨rfl, rfl⟩⟩
    | cons hu hls => exact ⟨_, hu, (isPlain_append.1 hplain).1.isClean, .inl rfl⟩
  · have hfed : IsFed (List.replicate n ' ' ++ mark) := by
      by_cases hbehind : behind = []
      · rw [hbehind, List.append_nil] at hrest
        exact (Cut.of_cons hcut).2 hrest
      · exact h.fed hbehind _ hmem
    obtain ⟨u, hu, hopening⟩ := hfed
    rw [hopening] at hplain
    exact ⟨u, hu, (isPlain_append.1 hplain).1.isClean, .inl hopening⟩

private theorem isRow_before (h : f.Place ls before n mark content behind) :
    ∀ l ∈ before, IsRow l := by
  intro l hl
  have hfed := (Cut.of_append h.cut).2 (List.cons_ne_nil _ _) l hl
  exact hfed.isRow (h.plain l (List.mem_append_left _ hl))

/-- The lines of a document around the opening line of a fence. -/
private theorem lines_around (h : f.Place ls before n mark content behind) :
    Markdown.lines ls.flatten =
      numbered 0 before ++ .ofCut before.length (List.replicate n ' ' ++ mark) ::
        linesFrom (before.length + 1) (content ++ behind).flatten := by
  obtain ⟨u, hu, hclean, hfed | ⟨hlast, hnil⟩⟩ := h.opening_cases
  · rw [h.lines]
    exact lines_around_row h.isRow_before ⟨u, hclean, hu.not_mem_feed, hfed⟩ _
  · have hline := linesFrom_last before.length hclean hu.not_mem_feed
    rw [← hlast, numbered_cons _ h.ungapped_opening] at hline
    change linesFrom 0 _ = _
    rw [h.lines, hnil, List.flatten_append, linesFrom_rows 0 h.isRow_before, Nat.zero_add,
      List.flatten_cons, List.flatten_nil, List.append_nil, hline]
    rfl

private theorem before_numbered (h : f.Place ls before n mark content behind) (t : Text) :
    Before (.ofCut before.length t) (numbered 0 before) := by
  intro l hl
  obtain ⟨i, line, hline, -, rfl⟩ := mem_numbered hl
  obtain ⟨hi, -⟩ := List.getElem?_eq_some_iff.1 hline
  obtain ⟨u, -, -, rfl⟩ := h.isRow_before line (List.mem_of_getElem? hline)
  rw [Line.number_ofCut, Line.number_ofCut, Line.ofCut_feed]
  exact ⟨by omega, rfl⟩

end Fence.Place

/-- The opening line as it is written is the one that was read, with a line feed. -/
private theorem ofCut_openingLine {opening : Text} {rest : List Text} (hu : Unbroken u)
    (h : opening = u ++ ['\n'] ∨ opening = u ∧ rest = []) (k : Nat) :
    Line.ofCut k (u ++ ['\n']) = (Line.ofCut k opening).fed := by
  rw [Line.ofCut_feed]
  rcases h with rfl | ⟨rfl, -⟩
  · rw [Line.ofCut_feed]
    rfl
  · rw [Line.ofCut_unbroken hu]
    rfl

/-- **The fences of the new document.** -/
private theorem fences_written {dialect : Dialect} {A B : List Fence}
    (hplace : f.Place ls before n mark content behind)
    (htakes : Replace.Takes (List.replicate n ' ' ++ mark) new) (hu : Unbroken u)
    (hclean : IsClean u)
    (hline : List.replicate n ' ' ++ mark = u ++ ['\n'] ∨
      List.replicate n ' ' ++ mark = u ∧ content ++ behind = [])
    (hfences : fences dialect ls.flatten = A ++ f :: B) :
    ∃ B', fences dialect (before ++ (u ++ ['\n']) ::
        (Replace.newLines (List.replicate n ' ' ++ mark) new ++ behind)).flatten =
          A ++ f.written (List.replicate n ' ' ++ mark) new :: B' ∧
      B'.map Fence.unplaced = B.map Fence.unplaced := by
  have hrow : IsRow (u ++ ['\n']) := ⟨u, hclean, hu.not_mem_feed, rfl⟩
  rw [fences, lines_around_row hplace.isRow_before hrow, ofCut_openingLine hu hline]
  rw [fences, hplace.lines_around] at hfences
  cases hblocks : dialect.blocks with
  | false =>
    rw [hblocks] at hfences
    cases A <;> cases hfences
  | true =>
    rw [hblocks, if_pos rfl] at hfences
    obtain ⟨B', hfences', hB, -⟩ := (exchange_of_takes hplace htakes).follows_fencesWithin
      dialect.nesting _ _ (hplace.before_numbered _) A B hfences
    exact ⟨B', hfences', hB⟩

/-- **The new document keeps its front matter.** -/
private theorem splitFrontmatter_written {front : Text} {frontmatter : Frontmatter}
    (hplace : f.Place (Text.lines d.body) before n mark content behind)
    (htakes : d.Takes b new) (hopening : d.openingOf b = List.replicate n ' ' ++ mark)
    (hu : Unbroken u)
    (hline : List.replicate n ' ' ++ mark = u ++ ['\n'] ∨
      List.replicate n ' ' ++ mark = u ∧ content ++ behind = [])
    (hraw : d.raw = front ++ d.body)
    (hsplit : splitFrontmatter (front ++ d.body) = .ok (frontmatter, d.body)) :
    splitFrontmatter (front ++ (before ++ Replace.openingLine (List.replicate n ' ' ++ mark) new ::
        (Replace.newLines (List.replicate n ' ' ++ mark) new ++ behind)).flatten) =
      .ok (frontmatter, (before ++ Replace.openingLine (List.replicate n ' ' ++ mark) new ::
        (Replace.newLines (List.replicate n ' ' ++ mark) new ++ behind)).flatten) := by
  have hbody :
      d.body = (before ++ (List.replicate n ' ' ++ mark) :: (content ++ behind)).flatten := by
    rw [← hplace.lines, join_lines]
  have hmark : HoldsMark (List.replicate n ' ' ++ mark) := by
    obtain ⟨e, v, rfl, he⟩ := hplace.exists_mark
    exact ⟨e, List.mem_append_right _ List.mem_cons_self, he⟩
  have hfeed : Text.IsFeedLine (List.replicate n ' ' ++ mark) ∨
      '\n' ∉ List.replicate n ' ' ++ mark ∧ content ++ behind = [] := by
    refine hline.imp (fun h => ⟨u, hu.not_mem_feed, h⟩) fun ⟨h, hrest⟩ => ⟨?_, hrest⟩
    rw [h]
    exact hu.not_mem_feed
  have hfed : behind ≠ [] → ∀ l ∈ content, Text.IsFeedLine l := by
    intro hbehind l hl
    obtain ⟨v, hv, rfl⟩ := hplace.fed hbehind l
      (List.mem_append_right before (List.mem_cons_of_mem _ hl))
    exact ⟨v, hv.not_mem_feed, rfl⟩
  rw [hbody] at hsplit
  refine (splitFrontmatter_written_iff hmark hfeed hfed hsplit).2 fun hopens => ?_
  rw [← hbody, ← hraw] at hopens ⊢
  rw [← hopening]
  exact htakes.front hopens.fence_prefix

end Body

/-! ### The new blocks -/

/-- What is written is a document with the same front matter, and its fences are the same but for
the text of the one that was written to. -/
private theorem exists_written {f : Fence} {front : Text} {dialect : Dialect}
    {defaults : HeaderArgs} {A B : List Fence} (hparse : Document.parse raw path name = .ok d)
    (hraw : d.raw = front ++ d.body)
    (hsplit : splitFrontmatter (front ++ d.body) = .ok (d.frontmatter, d.body))
    (hfences : d.fences = fences dialect d.body) (hparts : d.fences = A ++ f :: B)
    (hagrees : d.Agrees (f.toBlock d.path defaults).value)
    (htakes : d.Takes (f.toBlock d.path defaults).value new) :
    ∃ body f' B', d.replaceBlock (f.toBlock d.path defaults).value new = .ok (front ++ body) ∧
      splitFrontmatter (front ++ body) = .ok (d.frontmatter, body) ∧
      fences dialect body = A ++ f' :: B' ∧ f'.info = f.info ∧
      f'.content = Replace.withFeed new ∧ B'.map Fence.unplaced = B.map Fence.unplaced := by
  have hf : f ∈ d.fences := hparts ▸ List.mem_append_right A List.mem_cons_self
  have hfirst := f.toBlock_first d.path defaults
  have hstop := f.toBlock_stop d.path defaults
  have htext := f.toBlock_text d.path defaults
  obtain ⟨before, mark, behind, hplace, hclosing⟩ :=
    hagrees.exists_place hparse hf hfirst hstop htext
  have hopening := Document.openingOf_eq hplace hfirst
  have hreplaced := Document.replaceBlock_eq_ok hraw hfirst hstop hplace hclosing new
  generalize d.contentOf (f.toBlock d.path defaults).value = content at *
  generalize d.indentOf (f.toBlock d.path defaults).value = n at *
  obtain ⟨u, hu, hclean, hline⟩ := hplace.opening_cases
  by_cases hwritten : content ++ behind ≠ [] ∨ new ≠ []
  · have hne : List.replicate n ' ' ++ mark ≠ [] := by
      obtain ⟨e, v, rfl, -⟩ := hplace.exists_mark
      exact List.append_ne_nil_of_right_ne_nil _ (List.cons_ne_nil e v)
    have hfront := splitFrontmatter_written hplace htakes hopening hu hline hraw hsplit
    have hfeed : Replace.openingLine (List.replicate n ' ' ++ mark) new = u ++ ['\n'] := by
      rcases hline with hline | ⟨hline, hrest⟩
      · rw [hline]
        exact Replace.openingLine_append hu.not_mem_feed (.inl rfl)
      · have hlast : Replace.openingLine (u ++ []) new = u ++ ['\n'] :=
          Replace.openingLine_append hu.not_mem_feed
            (.inr ⟨rfl, hline ▸ hne, hwritten.resolve_left fun h => h hrest⟩)
        rw [List.append_nil] at hlast
        rw [hline, hlast]
    rw [hfeed] at hreplaced hfront
    rw [hfences, ← join_lines d.body] at hparts
    obtain ⟨B', hfences', hB⟩ :=
      fences_written hplace (hopening ▸ htakes.toTakes) hu hclean hline hparts
    exact ⟨_, _, B', hreplaced, hfront, hfences', rfl, rfl, hB⟩
  · -- nothing is written behind the last line
    obtain ⟨hrest, hnew⟩ := not_or.1 hwritten
    obtain rfl := not_not.1 hnew
    obtain ⟨rfl, rfl⟩ := List.append_eq_nil_iff.1 (not_not.1 hrest)
    have hbody : d.body = (Text.lines d.body).flatten := (join_lines _).symm
    refine ⟨d.body, f, B, ?_, hsplit, hfences ▸ hparts, rfl, hplace.text, rfl⟩
    rw [hreplaced, hbody, hplace.lines]
    rfl

/-- Blocks of fences that are alike but for the text of one of them. -/
private theorem exists_block {f f' : Fence} {A B B' : List Fence} (path : Path)
    (defaults : HeaderArgs) (hinfo : f'.info = f.info)
    (hB : B'.map Fence.unplaced = B.map Fence.unplaced) {j : Nat} {b₁ : Block}
    (hb : ((A ++ f :: B).map fun f => (f.toBlock path defaults).value)[j]? = some b₁) :
    ∃ b₂, ((A ++ f' :: B').map fun f => (f.toBlock path defaults).value)[j]? = some b₂ ∧
      b₂.text = (if j = A.length then f'.content else b₁.text) ∧
      b₂.language = b₁.language ∧ b₂.args = b₁.args := by
  have halike {g g' : Fence} (h : g'.info = g.info) :
      (g'.toBlock path defaults).value.language = (g.toBlock path defaults).value.language ∧
        (g'.toBlock path defaults).value.args = (g.toBlock path defaults).value.args := by
    rw [Fence.toBlock_language, Fence.toBlock_language, Fence.toBlock_args, Fence.toBlock_args, h]
    exact ⟨rfl, rfl⟩
  rw [List.getElem?_map] at hb
  obtain ⟨g, hg, rfl⟩ := Option.map_eq_some_iff.1 hb
  rw [List.getElem?_map]
  rcases Nat.lt_trichotomy j A.length with hj | rfl | hj
  -- the fences before are the same, and of those behind only the places have changed
  · rw [List.getElem?_append_left hj] at hg
    rw [List.getElem?_append_left hj, hg, if_neg (Nat.ne_of_lt hj)]
    exact ⟨_, rfl, rfl, rfl, rfl⟩
  · rw [List.getElem?_append_right (Nat.le_refl _), Nat.sub_self] at hg
    obtain rfl := Option.some.inj hg
    rw [List.getElem?_append_right (Nat.le_refl _), Nat.sub_self, if_pos rfl]
    exact ⟨_, rfl, Fence.toBlock_text path defaults f', halike hinfo⟩
  · obtain ⟨k, rfl⟩ : ∃ k, j = A.length + (k + 1) := ⟨j - A.length - 1, by omega⟩
    rw [List.getElem?_append_right (Nat.le_add_right _ _), Nat.add_sub_cancel_left,
      List.getElem?_cons_succ] at hg
    rw [List.getElem?_append_right (Nat.le_add_right _ _), Nat.add_sub_cancel_left,
      List.getElem?_cons_succ, if_neg (by omega)]
    have hk := congrArg (·[k]?) hB
    rw [List.getElem?_map, List.getElem?_map, hg] at hk
    obtain ⟨g', hg', hunplaced⟩ := Option.map_eq_some_iff.1 hk
    rw [hg']
    refine ⟨_, rfl, ?_, halike (congrArg (fun f => f.info) hunplaced)⟩
    rw [Fence.toBlock_text, Fence.toBlock_text]
    exact congrArg (fun f => f.content) hunplaced

/-- **What is written is read back**: the document is read again, with as many blocks; the block
that was written to has the new text, with a line feed at its end; the others are as they were. -/
theorem replaceBlock_read_back {i : Nat} (hparse : Document.parse raw path name = .ok d)
    (hblocks : d.blocks = .ok bs) (hb : bs.value[i]? = some b) (hagrees : d.Agrees b)
    (htakes : d.Takes b new) :
    ∃ raw' d' bs', d.replaceBlock b new = .ok raw' ∧ Document.parse raw' path name = .ok d' ∧
      d'.blocks = .ok bs' ∧ bs'.value.length = bs.value.length ∧
      ∀ j b₁, bs.value[j]? = some b₁ → ∃ b₂, bs'.value[j]? = some b₂ ∧
        b₂.text = (if j = i then Replace.withFeed new else b₁.text) ∧
        b₂.language = b₁.language ∧ b₂.args = b₁.args := by
  obtain ⟨dialect, front, hname, hraw, rfl, rfl, hsplit, hfences⟩ := Document.of_parse_eq_ok hparse
  obtain ⟨defaults, hdefaults, hvalue⟩ := Document.of_blocks_eq_ok hblocks
  rw [hvalue, List.getElem?_map] at hb
  obtain ⟨f, hf, rfl⟩ := Option.map_eq_some_iff.1 hb
  obtain ⟨hi, hget⟩ := List.getElem?_eq_some_iff.1 hf
  obtain ⟨A, B, hparts, rfl⟩ : ∃ A B, d.fences = A ++ f :: B ∧ A.length = i :=
    ⟨d.fences.take i, d.fences.drop (i + 1),
      by rw [← hget, List.getElem_cons_drop, List.take_append_drop],
      List.length_take_of_le (Nat.le_of_lt hi)⟩
  obtain ⟨body, f', B', hreplaced, hsplit', hfences', hinfo, hcontent, hB⟩ :=
    exists_written hparse hraw (hraw ▸ hsplit) hfences hparts hagrees htakes
  have hblocks' :
      Document.blocks ⟨d.path, front ++ body, body, d.frontmatter, fences dialect body⟩ =
      .ok (blocksOfFences d.path defaults (fences dialect body)) := by
    rw [Document.blocks, hdefaults]
  refine ⟨_, _, _, hreplaced, ?_, hblocks', ?_, ?_⟩
  · rw [Document.parse, hsplit', hname]
  · have hlength := congrArg List.length hB
    rw [List.length_map, List.length_map] at hlength
    rw [blocksOfFences_value, hvalue, List.length_map, List.length_map, hfences', hparts,
      List.length_append, List.length_append, List.length_cons, List.length_cons, hlength]
  · intro j b₁ hj
    rw [hvalue, hparts] at hj
    rw [blocksOfFences_value, hfences', ← hcontent]
    exact exists_block d.path defaults hinfo hB hj

/-- The fence of a list item, with a form feed behind it. -/
theorem replaceBlock_read_back_item :
    let raw := lit "- step\n\n  ```sh\n  echo one\n  ```\n\n~~~py\nx = 1\x0c\n~~~\n"
    let path := Path.ofText (lit "doc.md")
    let new := lit "cd two\n\n~~~"
    ∃ d bs b, (Document.parse raw path (lit "gfm-like") = .ok d ∧ d.blocks = .ok bs ∧
        bs.value[0]? = some b ∧ d.Agrees b ∧ d.Takes b new) ∧
      ∃ raw' d' bs', d.replaceBlock b new = .ok raw' ∧
        Document.parse raw' path (lit "gfm-like") = .ok d' ∧ d'.blocks = .ok bs' ∧
        bs'.value.map (·.text) = [lit "cd two\n\n~~~\n", lit "x = 1\x0c\n"] := by
  intro raw path new
  let first : Fence := ⟨lit "sh", lit "echo one\n", 2, 5⟩
  let second : Fence := ⟨lit "py", lit "x = 1\x0c\n", 6, 9⟩
  let d : Document := ⟨path, raw, raw, [], [first, second]⟩
  let b := (first.toBlock path []).value
  have hfences : Markdown.fences ⟨true, true, true, 20⟩ raw = [first, second] := by decide +kernel
  have hparse : Document.parse raw path (lit "gfm-like") = .ok d := by
    have hsplit : splitFrontmatter raw = .ok ([], raw) := rfl
    have hname : Dialect.ofName? (lit "gfm-like") = some ⟨true, true, true, 20⟩ := by decide
    rw [Document.parse, hsplit, hname]
    dsimp only
    rw [hfences]
  have hblocks : d.blocks = .ok (blocksOfFences path [] [first, second]) := rfl
  have hvalue : (blocksOfFences path [] [first, second]).value =
      [b, (second.toBlock path []).value] := blocksOfFences_value _ _ _
  have hb : (blocksOfFences path [] [first, second]).value[0]? = some b := by
    rw [hvalue]
    rfl
  have hagrees : d.Agrees b := ⟨by decide +kernel, by decide +kernel, fun _ _ => by decide +kernel⟩
  have htakes : d.Takes b new :=
    ⟨⟨by decide +kernel, fun _ => by decide +kernel, by decide +kernel, by decide +kernel⟩,
      fun h => absurd h (by decide +kernel)⟩
  refine ⟨d, _, b, ⟨hparse, hblocks, hb, hagrees, htakes⟩, ?_⟩
  obtain ⟨raw', d', bs', hreplaced, hparse', hblocks', hlength, hread⟩ :=
    replaceBlock_read_back hparse hblocks hb hagrees htakes
  refine ⟨raw', d', bs', hreplaced, hparse', hblocks', ?_⟩
  rw [hvalue] at hlength hread
  obtain ⟨b₁, hb₁, htext₁, -⟩ := hread 0 _ rfl
  obtain ⟨b₂, hb₂, htext₂, -⟩ := hread 1 _ rfl
  match hvalue' : bs'.value with
  | [] | [_] | _ :: _ :: _ :: _ =>
    rw [hvalue'] at hlength
    cases hlength
  | [c₁, c₂] =>
    rw [hvalue'] at hb₁ hb₂
    obtain rfl := Option.some.inj hb₁
    obtain rfl := Option.some.inj hb₂
    rw [List.map_cons, List.map_cons, htext₁, htext₂]
    decide +kernel

end LiterateEdit
