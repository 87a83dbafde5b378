import LiterateEdit.Proofs.Document.Frontmatter
import LiterateEdit.Proofs.Document.Span
import LiterateEdit.Proofs.Document.Written

/-!
# When the front matter stays the same

A document to which a text was written is read again, and its front matter is looked for again, in
the whole text. The mark of the opening line tells apart what can change: a front matter that ended
before it still ends there, unless something is found behind the mark that was not found before
(`splitFrontmatter_exchange_iff`). That is a delimiter among the lines that are written, and it does
no harm where none is looked for: in a document that does not open with a delimiter (`Opens`), and
in one whose front matter is not blank (`IsFilled`), because the search for that ends at its own
delimiter whichever way it starts.

So write-back keeps the front matter exactly in these cases (`replaceBlock_keeps_front`), whatever
the new text is and whatever containers the block stands in.
-/

namespace LiterateEdit

open Text Frontmatter Markdown

namespace Frontmatter

variable {d : Char} {p q s s' : Text} {cut : FrontmatterCut}

/-- Has a text a front matter that is not blank? -/
def IsFilled (t : Text) : Prop := ∃ cut, cut? t = some cut ∧ isBlankText cut.header = false

theorem opens_of_cut? {t : Text} (h : cut? t = some cut) : Opens t := by
  rw [opens_iff]
  intro hnil
  rw [cut?_eq, hnil] at h
  cases h

/-! ### An exchange of what stands behind `d` -/

/-- **A front matter that ends before `d` stays the same** if nothing is found behind `d` that was
not found before, or if it is not blank. -/
private theorem cut?_exchange (hd : isBlank d = false) (hne : d ≠ '-') {header : Text}
    (h : cut? (p ++ d :: s) = some ⟨header, q ++ d :: s⟩)
    (hnew : isBlankText header = false ∨ untilClosing (d :: s') = none) :
    cut? (p ++ d :: s') = some ⟨header, q ++ d :: s'⟩ := by
  obtain ⟨zs, hzs⟩ := exists_starts hd hne p
  have hstarts := pairwise_starts (p ++ d :: s)
  rw [hzs] at hstarts
  rw [cut?_eq, hzs, List.findSome?_map, List.findSome?_eq_some_iff] at h
  obtain ⟨before, z, behind, rfl, hz, hbefore⟩ := h
  rw [cut?_eq, hzs, List.findSome?_map, List.findSome?_eq_some_iff]
  refine ⟨before, z, behind, rfl, ?_, fun x hx => ?_⟩
  · rcases exists_untilClosing hd hne z with ⟨header', body, hfound⟩ | hlater
    · have heq := (hfound s).symm.trans hz
      obtain ⟨rfl, hbody⟩ := (FrontmatterCut.mk.injEq _ _ _ _ ▸ Option.some.inj heq)
      rw [← List.append_cancel_right hbody]
      exact hfound s'
    · -- what is found behind `d` leaves less than what stands behind it
      obtain ⟨cut, hfound, hbody⟩ := Option.map_eq_some_iff.1 ((hlater s).symm.trans hz)
      have hlength := (suffix_of_untilClosing_cons (ne_feed hd) hfound).length_le
      obtain ⟨-, hbody⟩ := (FrontmatterCut.mk.injEq _ _ _ _ ▸ hbody)
      rw [hbody, List.length_append, List.length_cons] at hlength
      omega
  · have hx' : untilClosing (x ++ d :: s) = none := hbefore x hx
    rcases exists_untilClosing hd hne x with ⟨header', body, hfound⟩ | hlater
    · rw [hfound] at hx'
      cases hx'
    · change untilClosing (x ++ d :: s') = none
      rw [hlater, Option.map_eq_none_iff]
      rcases hnew with hheader | hnew
      · rw [List.map_append, List.map_cons] at hstarts
        obtain ⟨b, hb, hsplit⟩ := (List.pairwise_append.1 hstarts).2.2 _ (List.mem_map_of_mem hx) _
          List.mem_cons_self
        change untilClosing (z ++ d :: s) = _ at hz
        rw [hsplit] at hz
        obtain ⟨w, rfl⟩ := header_prefix hz (hbefore x hx)
        rw [isBlankText, List.all_append, Bool.and_eq_true] at hb
        exact absurd hb.1 (Bool.eq_false_iff.1 hheader)
      · exact hnew

private theorem cut?_eq_none_exchange (hd : isBlank d = false) (hne : d ≠ '-')
    (h : cut? (p ++ d :: s) = none)
    (hnew : Opens (p ++ d :: s) → untilClosing (d :: s') = none) : cut? (p ++ d :: s') = none := by
  obtain ⟨zs, hzs⟩ := exists_starts hd hne p
  rw [opens_iff, hzs] at hnew
  rw [cut?_eq, hzs, List.findSome?_eq_none_iff] at h ⊢
  intro z hz
  obtain ⟨x, hx, rfl⟩ := List.mem_map.1 hz
  have hx' := h _ (List.mem_map_of_mem hx)
  rcases exists_untilClosing hd hne x with ⟨header', body, hfound⟩ | hlater
  · rw [hfound] at hx'
    cases hx'
  · rw [hlater, Option.map_eq_none_iff]
    exact hnew (List.ne_nil_of_mem (List.mem_map_of_mem hx))

/-- What is found behind `d` is taken for the end of the front matter, if the document opens with a
delimiter and its front matter is blank or there is none. -/
private theorem exists_cut?_exchange (hd : isBlank d = false) (hne : d ≠ '-')
    (hopens : Opens (p ++ d :: s)) (hblank : ¬ IsFilled (p ++ d :: s))
    (hfound : untilClosing (d :: s') = some cut) :
    ∃ header, cut? (p ++ d :: s') = some ⟨header, cut.body⟩ := by
  have hblank : ∀ cut, cut? (p ++ d :: s) = some cut → isBlankText cut.header = true :=
    fun cut hcut => eq_true_of_ne_false fun hheader => hblank ⟨cut, hcut, hheader⟩
  obtain ⟨x, rest, hstarts, hnone⟩ := exists_start_of_blank hopens hblank
  obtain ⟨zs, hzs⟩ := exists_starts hd hne p
  rw [hzs] at hstarts
  obtain ⟨z, zs, rfl, rfl, -⟩ := List.map_eq_cons_iff.1 hstarts
  rcases exists_untilClosing hd hne z with ⟨header, body, hbefore⟩ | hlater
  · rw [hbefore] at hnone
    cases hnone
  · refine ⟨z ++ cut.header, ?_⟩
    rw [cut?_eq, hzs, List.map_cons, List.findSome?_cons, hlater, hfound]
    rfl

end Frontmatter

/-- A front matter that ends before `d` is found again, and so is that there is none. -/
private theorem splitFrontmatter_exchange {d : Char} {p q s s' : Text} {front : Frontmatter}
    (hd : isBlank d = false) (hne : d ≠ '-')
    (h : splitFrontmatter (p ++ (q ++ d :: s)) = .ok (front, q ++ d :: s))
    (hnew : Opens (p ++ (q ++ d :: s)) →
      IsFilled (p ++ (q ++ d :: s)) ∨ untilClosing (d :: s') = none) :
    splitFrontmatter (p ++ (q ++ d :: s')) = .ok (front, q ++ d :: s') := by
  unfold splitFrontmatter at h
  rw [← List.append_assoc] at h hnew
  rw [← List.append_assoc]
  cases hcut : cut? (p ++ q ++ d :: s) with
  | none =>
    -- there is no front matter, so that nothing stands before the body
    rw [hcut] at h
    obtain ⟨rfl, hp⟩ := Prod.mk.inj (Except.ok.inj h)
    have hnone : cut? (p ++ q ++ d :: s') = none := by
      refine cut?_eq_none_exchange hd hne hcut fun hopens => (hnew hopens).resolve_left ?_
      rintro ⟨cut, hcut', -⟩
      rw [hcut] at hcut'
      cases hcut'
    have hfront : p = [] := by
      have hlength := congrArg List.length hp
      simp only [List.length_append] at hlength
      exact List.length_eq_zero_iff.1 (by omega)
    rw [splitFrontmatter, hnone, hfront]
    rfl
  | some cut =>
    rw [hcut] at h
    dsimp only at h
    cases hheader : Frontmatter.ofHeader cut.header with
    | error e =>
      rw [hheader] at h
      cases h
    | ok entries =>
      -- its header stands before `d` and says the same again
      rw [hheader] at h
      obtain ⟨rfl, hbody⟩ := Prod.mk.inj (Except.ok.inj h)
      have hcut' : cut? (p ++ q ++ d :: s) = some ⟨cut.header, q ++ d :: s⟩ := by
        rw [hcut, ← hbody]
      have hopens : Opens (p ++ q ++ d :: s) := opens_of_cut? hcut
      have hkept : cut? (p ++ q ++ d :: s') = some ⟨cut.header, q ++ d :: s'⟩ := by
        refine cut?_exchange hd hne hcut' ((hnew hopens).imp_left ?_)
        rintro ⟨cut', hcut'', hfilled⟩
        obtain rfl := Option.some.inj (hcut.symm.trans hcut'')
        exact hfilled
      rw [splitFrontmatter, hkept]
      dsimp only
      rw [hheader]

/-- **A document keeps its front matter** when what stands behind `d` is exchanged exactly if no
delimiter is found there, or if none is looked for: the document does not open with a delimiter, or
has a front matter that is not blank. -/
theorem splitFrontmatter_exchange_iff {d : Char} {p q s s' : Text} {front : Frontmatter}
    (hd : isBlank d = false) (hne : d ≠ '-')
    (h : splitFrontmatter (p ++ (q ++ d :: s)) = .ok (front, q ++ d :: s)) :
    splitFrontmatter (p ++ (q ++ d :: s')) = .ok (front, q ++ d :: s') ↔
      (Opens (p ++ (q ++ d :: s)) →
        IsFilled (p ++ (q ++ d :: s)) ∨ untilClosing (d :: s') = none) := by
  refine ⟨fun hkept hopens => ?_, splitFrontmatter_exchange hd hne h⟩
  by_cases hfilled : IsFilled (p ++ (q ++ d :: s))
  · exact .inl hfilled
  · right
    cases hfound : untilClosing (d :: s') with
    | none => rfl
    | some cut =>
      -- the body would begin behind the delimiter that is found
      rw [← List.append_assoc] at hopens hfilled hkept
      obtain ⟨header, hcut⟩ := exists_cut?_exchange hd hne hopens hfilled hfound
      rw [splitFrontmatter, hcut] at hkept
      dsimp only at hkept
      cases hheader : Frontmatter.ofHeader header with
      | error e =>
        rw [hheader] at hkept
        cases hkept
      | ok entries =>
        rw [hheader] at hkept
        have hbody : cut.body = q ++ d :: s' := congrArg Prod.snd (Except.ok.inj hkept)
        have hlength := (suffix_of_untilClosing_cons (ne_feed hd) hfound).length_le
        rw [hbody, List.length_append, List.length_cons] at hlength
        omega

/-! ### What is written to a block -/

section Written

variable {front opening new : Text} {before content behind : List Text} {frontmatter : Frontmatter}

/-- If nothing is found behind the mark of an opening line, nothing is found behind the content. -/
private theorem untilClosing_behind {e : Char} {y tail : Text}
    (htail : tail = ['\n'] ∨ tail = [] ∧ content ++ behind = [])
    (hfed : behind ≠ [] → ∀ l ∈ content, IsFeedLine l)
    (hnone : untilClosing (e :: (y ++ (tail ++ (content ++ behind).flatten))) = none) :
    untilClosing ('\n' :: behind.flatten) = none := by
  by_cases hbehind : behind = []
  · rw [hbehind]
    rfl
  · obtain rfl := htail.resolve_right fun h => hbehind (List.append_eq_nil_iff.1 h.2).2
    -- the content ends in a line feed, and so does the opening line
    have hend : ∃ z, e :: (y ++ (['\n'] ++ content.flatten)) = z ++ ['\n'] := by
      rcases List.eq_nil_or_concat content with rfl | ⟨init, l, rfl⟩
      · exact ⟨e :: y, rfl⟩
      · obtain ⟨w, -, rfl⟩ := hfed hbehind l (by simp)
        exact ⟨e :: (y ++ (['\n'] ++ (init.flatten ++ w))), by simp⟩
    obtain ⟨z, hz⟩ := hend
    refine untilClosing_eq_none_of_suffix ⟨z, ?_⟩ hnone
    calc z ++ '\n' :: behind.flatten = z ++ ['\n'] ++ behind.flatten := by simp
      _ = e :: (y ++ (['\n'] ++ (content ++ behind).flatten)) := by rw [← hz]; simp

/-- **A document to which a text is written keeps its front matter** exactly if no line that is
written is a delimiter, or if none is looked for. -/
theorem splitFrontmatter_written_iff (hmark : HoldsMark opening)
    (hopening : IsFeedLine opening ∨ '\n' ∉ opening ∧ content ++ behind = [])
    (hfed : behind ≠ [] → ∀ l ∈ content, IsFeedLine l)
    (hsplit : splitFrontmatter (front ++ (before ++ opening :: (content ++ behind)).flatten) =
      .ok (frontmatter, (before ++ opening :: (content ++ behind)).flatten)) :
    splitFrontmatter (front ++ (before ++ Replace.openingLine opening new ::
        (Replace.newLines opening new ++ behind)).flatten) =
      .ok (frontmatter, (before ++ Replace.openingLine opening new ::
        (Replace.newLines opening new ++ behind)).flatten) ↔
    (Opens (front ++ (before ++ opening :: (content ++ behind)).flatten) →
      IsFilled (front ++ (before ++ opening :: (content ++ behind)).flatten) ∨
        ∀ l ∈ Replace.writtenLines opening new, ¬ IsDelimiter l) := by
  obtain ⟨u, tail, rfl, hu, htail⟩ : ∃ u tail, opening = u ++ tail ∧ '\n' ∉ u ∧
      (tail = ['\n'] ∨ tail = [] ∧ content ++ behind = []) := by
    rcases hopening with ⟨u, hu, rfl⟩ | ⟨hu, hrest⟩
    · exact ⟨u, _, rfl, hu, .inl rfl⟩
    · exact ⟨opening, [], (List.append_nil _).symm, hu, .inr ⟨rfl, hrest⟩⟩
  by_cases hnothing : tail = [] ∧ new = []
  -- nothing is written behind the last line
  · obtain ⟨rfl, rfl⟩ := hnothing
    obtain ⟨rfl, rfl⟩ := List.append_eq_nil_iff.1 (htail.resolve_left (List.cons_ne_nil _ _).symm).2
    exact iff_of_true hsplit fun _ => .inr fun l hl => absurd hl List.not_mem_nil
  · obtain ⟨e, hmem, he⟩ := hmark
    have hblank : isBlank e = false := by rcases he with rfl | rfl <;> decide
    have hhyphen : e ≠ '-' := by rcases he with rfl | rfl <;> decide
    have heu : e ∈ u := by
      refine (List.mem_append.1 hmem).resolve_right fun htaile => ?_
      rcases htail with rfl | ⟨rfl, -⟩
      · rw [List.mem_singleton.1 htaile] at hblank
        exact absurd hblank (by decide)
      · exact absurd htaile List.not_mem_nil
    have hwritten : Replace.openingLine (u ++ tail) new = u ++ ['\n'] := by
      refine Replace.openingLine_append hu ?_
      rcases htail with rfl | ⟨rfl, -⟩
      · exact .inl rfl
      · exact .inr ⟨rfl, List.ne_nil_of_mem heu, fun hnew => hnothing ⟨rfl, hnew⟩⟩
    obtain ⟨x, y, rfl⟩ := List.append_of_mem heu
    have hold : (before ++ (x ++ e :: y ++ tail) :: (content ++ behind)).flatten =
        before.flatten ++ x ++ e :: (y ++ (tail ++ (content ++ behind).flatten)) := by simp
    have hnew : (before ++ (x ++ e :: y ++ ['\n']) ::
          (Replace.newLines (x ++ e :: y ++ tail) new ++ behind)).flatten =
        before.flatten ++ x ++ e :: (y ++ '\n' ::
          ((Replace.writtenLines (x ++ e :: y ++ tail) new).flatten ++ behind.flatten)) := by
      rw [Replace.flatten_writtenLines]
      simp
    rw [hold] at hsplit
    rw [hwritten, hold, hnew, splitFrontmatter_exchange_iff hblank hhyphen hsplit]
    refine forall_congr' fun hopens => ?_
    by_cases hfilled : IsFilled (front ++
      (before.flatten ++ x ++ e :: (y ++ (tail ++ (content ++ behind).flatten))))
    · exact iff_of_true (.inl hfilled) (.inl hfilled)
    -- in the document as it was nothing is found behind the mark
    · have hnone := ((splitFrontmatter_exchange_iff hblank hhyphen hsplit).1 hsplit
        hopens).resolve_left hfilled
      have hbehind := untilClosing_behind htail hfed hnone
      have hey : '\n' ∉ e :: y := mt (List.mem_append_right x) hu
      have hlines := Frontmatter.untilClosing_feedLines_eq_none_iff
        (Replace.isFeedLine_writtenLines (x ++ e :: y ++ tail) new) hey behind.flatten
      rw [List.cons_append] at hlines
      rw [hlines, and_iff_left hbehind]

end Written

variable {raw name new : Text} {path : Path} {d : Document} {bs : Noted (List Block)} {b : Block}

/-- **Write-back keeps the front matter** exactly if no line that is written is a delimiter, or if
none is looked for: the document does not open with a delimiter, or its front matter is not blank.
What stands before the body stays, the new document is read with the same front matter, and its body
is the rest. -/
theorem replaceBlock_keeps_front (hparse : Document.parse raw path name = .ok d)
    (hblocks : d.blocks = .ok bs) (hb : b ∈ bs.value)
    (hlines : ∀ l ∈ (Text.lines d.body).take b.stop.toNat, FeedBroken l) (new : Text) :
    ∃ front body, raw = front ++ d.body ∧ d.replaceBlock b new = .ok (front ++ body) ∧
      (splitFrontmatter (front ++ body) = .ok (d.frontmatter, body) ↔
        (Opens raw → IsFilled raw ∨
          ∀ l ∈ Replace.writtenLines (d.openingOf b) new, ¬ IsDelimiter l)) := by
  obtain ⟨dialect, front, -, hraw, hself, -, hsplit, -⟩ := Document.of_parse_eq_ok hparse
  obtain ⟨before, content, behind, hspan⟩ := Document.exists_span hparse hblocks hb hlines
  have hbody : d.body = (before ++ d.openingOf b :: (content ++ behind)).flatten := by
    rw [← hspan.lines, join_lines]
  refine ⟨front, _, hraw, hspan.replaceBlock_eq_ok (hself.trans hraw) new, ?_⟩
  rw [hraw, hbody] at hsplit
  rw [splitFrontmatter_written_iff hspan.mark hspan.opening_fed
    (fun hne l hl => hspan.fed hne l (List.mem_cons_of_mem _ hl)) hsplit, ← hbody, ← hraw]

/-- A delimiter is written to the fence of a block quote, in a document with front matter. -/
theorem replaceBlock_keeps_front_filled :
    let raw := lit "---\ntitle: notes\n---\n> ```sh\n> one\n> ```\n"
    let path := Path.ofText (lit "doc.md")
    let new := lit "---\n"
    ∃ d bs b, (Document.parse raw path (lit "gfm-like") = .ok d ∧ d.blocks = .ok bs ∧ b ∈ bs.value ∧
        ∀ l ∈ (Text.lines d.body).take b.stop.toNat, FeedBroken l) ∧
      ∃ front body, raw = front ++ d.body ∧ d.replaceBlock b new = .ok (front ++ body) ∧
        splitFrontmatter (front ++ body) = .ok (d.frontmatter, body) := by
  intro raw path new
  let body := lit "> ```sh\n> one\n> ```\n"
  let fence : Fence := ⟨lit "sh", lit "one\n", 0, 3⟩
  let b := (fence.toBlock path []).value
  have hfences : Markdown.fences ⟨true, true, true, 20⟩ body = [fence] := by decide +kernel
  obtain ⟨frontmatter, hsplit, hdefaults⟩ : ∃ frontmatter,
      splitFrontmatter raw = .ok (frontmatter, body) ∧ frontmatter.headerArgs = .ok [] := by
    have hread : ((splitFrontmatter raw).toOption.bind fun r =>
        r.1.headerArgs.toOption.map (·, r.2)) = some ([], body) := by decide +kernel
    cases hsplit : splitFrontmatter raw with
    | error e =>
      rw [hsplit] at hread
      cases hread
    | ok r =>
      obtain ⟨frontmatter, t⟩ := r
      rw [hsplit] at hread
      change (frontmatter.headerArgs.toOption.map (·, t)) = _ at hread
      cases hdefaults : frontmatter.headerArgs with
      | error e =>
        rw [hdefaults] at hread
        cases hread
      | ok defaults =>
        rw [hdefaults] at hread
        obtain ⟨rfl, rfl⟩ := Prod.mk.inj (Option.some.inj hread)
        exact ⟨frontmatter, rfl, hdefaults⟩
  let d : Document := ⟨path, raw, body, frontmatter, [fence]⟩
  have hparse : Document.parse raw path (lit "gfm-like") = .ok d := by
    have hname : Dialect.ofName? (lit "gfm-like") = some ⟨true, true, true, 20⟩ := by decide
    rw [Document.parse, hsplit, hname]
    dsimp only
    rw [hfences]
  have hblocks : d.blocks = .ok (blocksOfFences path [] [fence]) := by
    rw [Document.blocks, hdefaults]
  have hb : b ∈ (blocksOfFences path [] [fence]).value := by
    rw [blocksOfFences_value]
    exact List.mem_singleton_self _
  have hlines : ∀ l ∈ (Text.lines body).take b.stop.toNat, FeedBroken l := by decide +kernel
  have hfilled : IsFilled raw := ⟨⟨lit "title: notes", body⟩, by decide +kernel, by decide +kernel⟩
  obtain ⟨front, body', hraw, hreplaced, hkept⟩ :=
    replaceBlock_keeps_front hparse hblocks hb hlines new
  exact ⟨d, _, b, ⟨hparse, hblocks, hb, hlines⟩, front, body', hraw, hreplaced,
    hkept.2 fun _ => .inl hfilled⟩

end LiterateEdit
