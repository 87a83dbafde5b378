import LiterateEdit.Proofs.Document.Place

/-!
# Writing a block's own text back

Write-back puts the indentation of the opening line before each line of the text that is not blank,
and adds a line feed at its end if there is none. Reading a block takes as many columns off as the
opening line is indented. So to write the text of a block back to it changes nothing exactly if the
lines of the content have the form that write-back gives them (`replaceBlock_own_text`): each is
ended by a line feed, and keeps its indentation (`KeepsIndent`). A line that is indented less than
the opening line, or with tabs, is written back with spaces; a blank line loses its indentation.

All this is for blocks on which write-back and Markdown agree (`Document.Agrees`).
-/

namespace LiterateEdit

open Text Markdown

variable {raw name t new : Text} {path : Path} {d : Document} {bs : Noted (List Block)} {b : Block}

/-- Does a line keep an indentation of `n` columns when it is taken off and written again? A blank
line keeps only what does not count as indentation. -/
def KeepsIndent (n : Nat) (t : Text) : Prop :=
  if isBlankText t then n = 0 ∨ t.head?.all (!isGap ·) = true else List.replicate n ' ' <+: t

instance (n : Nat) (t : Text) : Decidable (KeepsIndent n t) :=
  inferInstanceAs (Decidable (if isBlankText t then _ ∨ _ else List.replicate n ' ' <+: t))

/-- An indentation is blank, so a line is blank without it if it is with it. -/
private theorem isBlankText_outdentText (n : Nat) (h : IsFed t) :
    isBlankText (outdentText n t) = isBlankText t := by
  obtain ⟨u, -, rfl⟩ := h
  obtain ⟨gaps, rest, added, rfl, hgaps, hdrop, -⟩ := exists_outdented n u
  have hspaces : (List.replicate added ' ').all isBlank = true :=
    List.all_eq_true.2 fun d hd => by
      rw [List.eq_of_mem_replicate hd]
      decide
  have hblank : gaps.all isBlank = true :=
    List.all_eq_true.2 fun d hd => isBlank_of_isGap (hgaps d hd)
  rw [outdentText_feed, hdrop]
  simp only [isBlankText, List.all_append, hspaces, hblank, Bool.true_and]

/-- **A line is written as it was read** if it keeps its indentation. -/
theorem indentLine_outdentText (n : Nat) (h : IsFed t) :
    Replace.indentLine (List.replicate n ' ') (outdentText n t) = t ↔ KeepsIndent n t := by
  rw [Replace.indentLine, isBlankText_outdentText n h, KeepsIndent]
  split
  · exact outdentText_eq_self_iff n h
  · refine ⟨fun heq => ⟨_, heq⟩, ?_⟩
    rintro ⟨u, rfl⟩
    have hlast := h.getLast?
    rw [List.getLast?_append] at hlast
    cases hu : u.getLast? with
    | none =>
      -- nothing but spaces, which do not end in a line feed
      rw [hu] at hlast
      have hmem := List.mem_of_getLast? hlast
      exact absurd (List.eq_of_mem_replicate hmem) (by decide)
    | some d =>
      rw [hu] at hlast
      cases hlast
      obtain ⟨v, rfl⟩ := List.getLast?_eq_some_iff.1 hu
      rw [outdentText_spaces]

private theorem isPlain_outdented {ls : List Text} {n : Nat} (h : IsPlain ls.flatten) :
    IsPlain (ls.map (outdentText n)).flatten := by
  intro c hc
  obtain ⟨l, hl, hc⟩ := List.mem_flatten.1 hc
  obtain ⟨t, ht, rfl⟩ := List.mem_map.1 hl
  rcases mem_outdentText hc with rfl | hc
  · exact ⟨by decide, fun hbreak => absurd hbreak (by decide)⟩
  · exact h c (List.mem_flatten.2 ⟨t, ht, hc⟩)

/-- The lines of the content are written as they were read if each of them is ended by a line feed
and keeps its indentation. -/
private theorem newLines_eq_content {content : List Text} {n : Nat} {mark : Text}
    (hmark : mark.head? ≠ some ' ') (hplain : IsPlain content.flatten) :
    Replace.newLines (List.replicate n ' ' ++ mark) (content.map (outdentText n)).flatten
        = content ↔
      ∀ t ∈ content, IsFed t ∧ KeepsIndent n t := by
  have hwritten (hfed : ∀ t ∈ content, IsFed t) :
      Replace.newLines (List.replicate n ' ' ++ mark) (content.map (outdentText n)).flatten =
        content.map fun t => Replace.indentLine (List.replicate n ' ') (outdentText n t) := by
    have hread : ∀ l ∈ content.map (outdentText n), IsFed l := by
      intro l hl
      obtain ⟨t, ht, rfl⟩ := List.mem_map.1 hl
      exact isFed_outdentText n (hfed t ht)
    rw [Replace.newLines_eq n hmark, Replace.withFeed_flatten hread,
      (Cut.of_fed hread).lines_flatten, List.map_map]
    rfl
  constructor
  · intro heq t ht
    have hfed : ∀ t ∈ content, IsFed t :=
      heq ▸ Replace.isFed_newLines n hmark (isPlain_outdented hplain)
    rw [hwritten hfed] at heq
    refine ⟨hfed t ht, (indentLine_outdentText n (hfed t ht)).1 ?_⟩
    exact List.map_inj_left.1 (heq.trans (List.map_id content).symm) t ht
  · intro hall
    rw [hwritten fun t ht => (hall t ht).1]
    refine Eq.trans (List.map_congr_left fun t ht => ?_) (List.map_id content)
    exact (indentLine_outdentText n (hall t ht).1).2 (hall t ht).2

/-- **To write the text of a block back to it changes nothing** exactly if all lines of its content
are ended by line feeds and keep their indentation. -/
theorem replaceBlock_own_text (hparse : Document.parse raw path name = .ok d)
    (hblocks : d.blocks = .ok bs) (hb : b ∈ bs.value) (h : d.Agrees b) :
    d.replaceBlock b b.text = .ok raw ↔
      ∀ t ∈ d.contentOf b, IsFed t ∧ KeepsIndent (d.indentOf b) t := by
  obtain ⟨-, front, -, hraw, hdraw, -, -, -⟩ := Document.of_parse_eq_ok hparse
  obtain ⟨defaults, -, hvalue⟩ := Document.of_blocks_eq_ok hblocks
  rw [hvalue] at hb
  obtain ⟨f, hf, rfl⟩ := List.mem_map.1 hb
  have hfirst := f.toBlock_first d.path defaults
  have hstop := f.toBlock_stop d.path defaults
  have htext := f.toBlock_text d.path defaults
  obtain ⟨before, mark, behind, hplace, hclosing⟩ := h.exists_place hparse hf hfirst hstop htext
  have hmark := hplace.mark_ne_space
  generalize d.contentOf (f.toBlock d.path defaults).value = content at *
  generalize d.indentOf (f.toBlock d.path defaults).value = n at *
  have hbody :
      d.body = (before ++ (List.replicate n ' ' ++ mark) :: (content ++ behind)).flatten := by
    rw [← hplace.lines, join_lines]
  rw [Document.replaceBlock_eq_ok (hdraw.trans hraw) hfirst hstop hplace hclosing, htext,
    hplace.text, hraw, hbody, Except.ok.injEq, List.append_right_inj]
  cases content with
  | nil =>
    -- there is nothing to write
    exact iff_of_true rfl fun t ht => absurd ht List.not_mem_nil
  | cons t content =>
    have hplain : IsPlain (t :: content).flatten := isPlain_flatten.2 fun l hl =>
      hplace.plain l (List.mem_append_right before (List.mem_cons_of_mem _ hl))
    have hfed := (Cut.of_cons (Cut.of_append hplace.cut).1).2 (List.cons_ne_nil t content)
    have hnew := Replace.isFed_newLines n hmark (isPlain_outdented (n := n) hplain)
    rw [Replace.openingLine_eq (.inr hfed), List.flatten_append, List.flatten_append,
      List.append_right_inj, List.flatten_cons, List.flatten_cons, List.append_right_inj,
      List.flatten_append, List.flatten_append, List.append_left_inj,
      Cut.flatten_inj (.of_fed hnew) hplace.cut_content]
    exact newLines_eq_content hmark hplain

/-- The fence of a list item, with a blank line in it. -/
theorem replaceBlock_own_text_item :
    let raw := lit "- step\n\n  ```sh\n  echo one\n\n  ```\n"
    let path := Path.ofText (lit "doc.md")
    ∃ d bs b, (Document.parse raw path (lit "gfm-like") = .ok d ∧ d.blocks = .ok bs ∧ b ∈ bs.value ∧
        d.Agrees b ∧ ∀ t ∈ d.contentOf b, IsFed t ∧ KeepsIndent (d.indentOf b) t) ∧
      d.indentOf b = 2 ∧ d.replaceBlock b b.text = .ok raw := by
  intro raw path
  let fence : Fence := ⟨lit "sh", lit "echo one\n\n", 2, 6⟩
  let d : Document := ⟨path, raw, raw, [], [fence]⟩
  let b := (fence.toBlock path []).value
  have hfences : Markdown.fences ⟨true, true, true, 20⟩ raw = [fence] := by decide +kernel
  have hparse : Document.parse raw path (lit "gfm-like") = .ok d := by
    have hsplit : splitFrontmatter raw = .ok ([], raw) := rfl
    have hname : Dialect.ofName? (lit "gfm-like") = some ⟨true, true, true, 20⟩ := by decide
    rw [Document.parse, hsplit, hname]
    dsimp only
    rw [hfences]
  have hblocks : d.blocks = .ok (blocksOfFences path [] [fence]) := rfl
  have hb : b ∈ (blocksOfFences path [] [fence]).value := by
    rw [blocksOfFences_value]
    exact List.mem_singleton_self _
  have hagrees : d.Agrees b := ⟨by decide +kernel, by decide +kernel, fun _ _ => by decide +kernel⟩
  have hkept : ∀ t ∈ d.contentOf b, IsFed t ∧ KeepsIndent (d.indentOf b) t := by decide +kernel
  refine ⟨d, _, b, ⟨hparse, hblocks, hb, hagrees, hkept⟩, by decide +kernel, ?_⟩
  exact (replaceBlock_own_text hparse hblocks hb hagrees).2 hkept

end LiterateEdit
