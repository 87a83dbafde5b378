import LiterateEdit.Document.Replace
import LiterateEdit.Proofs.Text.Cut
import LiterateEdit.Proofs.Text.Slice

/-!
# Replacing a span of lines

A document is written to as a list of lines: those before the opening line stay, and so do those
from the closing line on (`Replace.spliceLines_append`). Which line that is depends on the last line
of the span alone (`Replace.closingAt_closed`, `Replace.closingAt_open`). The lines that come in
between are those of the new text, each with the spaces that lead the opening line unless it is
blank (`Replace.newLines_eq`).
-/

namespace LiterateEdit

open Text

namespace Replace

variable {opening last new : Text} {before content behind : List Text}

theorem openingLine_eq (h : new = [] ∨ IsFed opening) : openingLine opening new = opening := by
  unfold openingLine
  split
  · rfl
  · next hne =>
    rcases h with hnil | hfed
    · exact absurd hnil hne
    · exact if_pos (.inr hfed.getLast?)

/-- The opening line as it is written ends in a line feed, unless nothing is written behind it. -/
theorem openingLine_append {u tail : Text} (hu : '\n' ∉ u)
    (h : tail = ['\n'] ∨ tail = [] ∧ u ≠ [] ∧ new ≠ []) :
    openingLine (u ++ tail) new = u ++ ['\n'] := by
  rcases h with rfl | ⟨rfl, hne, hnew⟩
  · unfold openingLine
    split
    · rfl
    · exact if_pos (.inr List.getLast?_concat)
  · have hlast : u.getLast? ≠ some '\n' := fun hlast => hu (List.mem_of_getLast? hlast)
    rw [List.append_nil, openingLine, if_neg hnew, withFeed, if_neg (not_or.2 ⟨hne, hlast⟩)]

theorem getD_before (before : List Text) (o : Text) (rest : List Text) :
    (before ++ o :: rest).getD before.length [] = o := by
  rw [List.getD_eq_getElem?_getD, List.getElem?_append_right (Nat.le_refl _), Nat.sub_self]
  rfl

/-- A list of lines around one of them and those behind it. -/
theorem exists_split {lines : List Text} {first closing : Nat} (h : first < closing)
    (hle : closing ≤ lines.length) :
    ∃ before content behind, lines = before ++ lines.getD first [] :: (content ++ behind) ∧
      before.length = first ∧ before.length + 1 + content.length = closing := by
  have hfirst : first < lines.length := Nat.lt_of_lt_of_le h hle
  refine ⟨lines.take first, (lines.drop (first + 1)).take (closing - (first + 1)),
    (lines.drop (first + 1)).drop (closing - (first + 1)), ?_, ?_, ?_⟩
  · rw [List.take_append_drop, List.getD_eq_getElem?_getD, List.getElem?_eq_getElem hfirst,
      Option.getD_some, List.getElem_cons_drop, List.take_append_drop]
  · exact List.length_take_of_le (Nat.le_of_lt hfirst)
  · rw [List.length_take_of_le (Nat.le_of_lt hfirst), List.length_take_of_le]
    · omega
    · rw [List.length_drop]
      omega

/-- **Only what stands between the opening and the closing line is exchanged.** -/
theorem spliceLines_append {stop : Nat}
    (hclosing : closingAt (before ++ opening :: (content ++ behind)) before.length stop =
      before.length + 1 + content.length) (new : Text) :
    spliceLines (before ++ opening :: (content ++ behind)) before.length stop new =
      before ++ openingLine opening new :: (newLines opening new ++ behind) := by
  have hdrop :
      (before ++ opening :: (content ++ behind)).drop (before.length + 1 + content.length) =
      behind := by
    rw [Nat.add_assoc, List.drop_append, List.drop_eq_nil_of_le (by omega), List.nil_append,
      Nat.add_sub_cancel_left, Nat.add_comm 1, List.drop_succ_cons, List.drop_left]
  unfold spliceLines
  rw [getD_before, hclosing, hdrop, List.take_left, List.append_assoc, List.append_assoc]
  rfl

theorem closingAt_closed (h : isClosingFence last = true) (before : List Text) (opening : Text)
    (content behind : List Text) :
    closingAt (before ++ opening :: (content ++ last :: behind)) before.length
      (before.length + content.length + 2) = before.length + 1 + content.length := by
  have hlast : (before ++ opening :: (content ++ last :: behind)).getD
      (before.length + content.length + 2 - 1) [] = last := by
    have hsplit : before ++ opening :: (content ++ last :: behind) =
        (before ++ opening :: content) ++ last :: behind := by
      rw [List.append_assoc, List.cons_append]
    have hlength :
        before.length + content.length + 2 - 1 = (before ++ opening :: content).length := by
      rw [List.length_append, List.length_cons]
      omega
    rw [hsplit, hlength, getD_before]
  rw [closingAt, hlast, if_pos ⟨by omega, h⟩]
  omega

theorem closingAt_open {ls : List Text} {first stop : Nat}
    (h : first + 1 < stop → isClosingFence (ls.getD (stop - 1) []) = false) :
    closingAt ls first stop = stop := by
  refine if_neg fun hclosing => ?_
  rw [h hclosing.1] at hclosing
  exact absurd hclosing.2 Bool.false_ne_true

/-- Three or more backticks or tildes, and blank characters around them, are a closing fence. -/
theorem isClosingFence_run {lead trail : Text} {c : Char} {n : Nat} (hc : c = '`' ∨ c = '~')
    (hn : 3 ≤ n) (hlead : ∀ d ∈ lead, isBlank d = true) (htrail : ∀ d ∈ trail, isBlank d = true) :
    isClosingFence (lead ++ List.replicate n c ++ trail) = true := by
  have hblank : isBlank c = false := by rcases hc with rfl | rfl <;> decide
  obtain ⟨n, rfl⟩ : ∃ k, n = k + 1 := ⟨n - 1, by omega⟩
  have hdrop : (lead ++ List.replicate (n + 1) c ++ trail).dropWhile isBlank =
      c :: (List.replicate n c ++ trail) := by
    rw [List.append_assoc, List.dropWhile_append_of_pos hlead, List.replicate_succ,
      List.cons_append, List.dropWhile_cons, hblank]
    rfl
  -- blanks end the run, because `c` is none
  have hstop : trail.takeWhile (· = c) = [] := by
    cases trail with
    | nil => rfl
    | cons d trail =>
      rw [List.takeWhile_cons, if_neg]
      intro hd
      have hdc := htrail d List.mem_cons_self
      rw [of_decide_eq_true hd, hblank] at hdc
      cases hdc
  have hrun :
      (c :: (List.replicate n c ++ trail)).takeWhile (· = c) = List.replicate (n + 1) c := by
    rw [← List.cons_append, ← List.replicate_succ, List.takeWhile_append_of_pos, hstop,
      List.append_nil]
    exact fun d hd => decide_eq_true (List.eq_of_mem_replicate hd)
  have hrest : (c :: (List.replicate n c ++ trail)).drop (n + 1) = trail := by
    rw [← List.cons_append, ← List.replicate_succ]
    exact List.drop_left' List.length_replicate
  unfold isClosingFence
  rw [hdrop]
  dsimp only
  rw [hrun, List.length_replicate, hrest, List.all_eq_true.2 htrail, decide_eq_true hn]
  rcases hc with rfl | rfl <;> rfl

/-! ### New lines -/

@[simp] theorem indentLine_nil (line : Text) : indentLine [] line = line := by
  rw [indentLine]
  split <;> rfl

theorem takeWhile_spaces (n : Nat) (h : opening.head? ≠ some ' ') :
    (List.replicate n ' ' ++ opening).takeWhile (· = ' ') = List.replicate n ' ' := by
  have hrest : opening.takeWhile (· = ' ') = [] := by
    cases opening with
    | nil => rfl
    | cons c t =>
      rw [List.takeWhile_cons, if_neg fun hc => h (congrArg some (of_decide_eq_true hc))]
  rw [List.takeWhile_append_of_pos fun c hc => decide_eq_true (List.eq_of_mem_replicate hc), hrest,
    List.append_nil]

/-- The new text is written with the spaces that lead the opening line. -/
theorem newLines_eq (n : Nat) (h : opening.head? ≠ some ' ') (new : Text) :
    newLines (List.replicate n ' ' ++ opening) new =
      (Text.lines (withFeed new)).map (indentLine (List.replicate n ' ')) := by
  rw [newLines, takeWhile_spaces n h]

/-- Lines that are ended by line feeds need no further one. -/
theorem withFeed_flatten {ls : List Text} (h : ∀ l ∈ ls, IsFed l) :
    withFeed ls.flatten = ls.flatten := by
  refine if_pos ?_
  rcases List.eq_nil_or_concat ls with rfl | ⟨front, l, hls⟩
  · exact .inl rfl
  · right
    rw [List.concat_eq_append] at hls
    subst hls
    obtain ⟨u, -, rfl⟩ := h l (List.mem_append_right front List.mem_cons_self)
    rw [List.flatten_append, List.flatten_cons, List.flatten_nil, List.append_nil,
      ← List.append_assoc]
    exact List.getLast?_concat

theorem isPlain_withFeed (h : IsPlain new) : IsPlain (withFeed new) := by
  unfold withFeed
  split
  · exact h
  · exact isPlain_append.2 ⟨h, List.forall_mem_singleton.2 ⟨by decide, fun _ => rfl⟩⟩

theorem isClean_withFeed (h : IsClean new) : IsClean (withFeed new) := by
  unfold withFeed
  split
  · exact h
  · intro c hc
    rcases List.mem_append.1 hc with hc | hc
    · exact h c hc
    · rw [List.mem_singleton.1 hc]
      decide

theorem getLast?_withFeed (new : Text) :
    withFeed new = [] ∨ (withFeed new).getLast? = some '\n' := by
  unfold withFeed
  split
  · assumption
  · exact .inr List.getLast?_concat

/-- The lines of a plain text that is given a line feed at its end. -/
theorem isFed_lines_withFeed (h : IsPlain new) : ∀ l ∈ Text.lines (withFeed new), IsFed l := by
  refine (isPlain_withFeed h).cut_lines.isFed_of_getLast? ?_
  rw [join_lines]
  exact getLast?_withFeed new

/-- The lines of a text end as the text does, also when they are indented. -/
private theorem getLast?_flatten_indentLine (indent : Text) (ls : List Text) :
    (ls.map (indentLine indent)).flatten.getLast? = ls.flatten.getLast? := by
  induction ls with
  | nil => rfl
  | cons l ls ih =>
    have hline : (indentLine indent l).getLast? = l.getLast? := by
      cases l with
      | nil => rfl
      | cons c l =>
        unfold indentLine
        split
        · rfl
        · rw [List.getLast?_append, List.getLast?_cons]
          rfl
    rw [List.map_cons, List.flatten_cons, List.flatten_cons, List.getLast?_append,
      List.getLast?_append, ih, hline]

/-- What is written for a new text ends in a line feed. -/
theorem getLast?_newLines (opening new : Text) :
    (newLines opening new).flatten = [] ∨ (newLines opening new).flatten.getLast? = some '\n' := by
  rw [newLines, getLast?_flatten_indentLine, join_lines]
  refine (getLast?_withFeed new).imp_left fun hnil => ?_
  rw [hnil]
  rfl

/-- Indentation puts spaces before a line, or nothing. -/
theorem exists_indentLine (n : Nat) (l : Text) :
    ∃ k, indentLine (List.replicate n ' ') l = List.replicate k ' ' ++ l := by
  unfold indentLine
  split
  · exact ⟨0, rfl⟩
  · exact ⟨n, rfl⟩

theorem unbroken_spaces {u : Text} (k : Nat) (hu : Unbroken u) :
    Unbroken (List.replicate k ' ' ++ u) := by
  intro c hc
  rcases List.mem_append.1 hc with hc | hc
  · rw [List.eq_of_mem_replicate hc]
    decide
  · exact hu c hc

theorem isFed_indentLine {l : Text} (h : IsFed l) (n : Nat) :
    IsFed (indentLine (List.replicate n ' ') l) := by
  obtain ⟨u, hu, rfl⟩ := h
  obtain ⟨k, hline⟩ := exists_indentLine n (u ++ ['\n'])
  rw [hline]
  exact ⟨_, unbroken_spaces k hu, (List.append_assoc _ _ _).symm⟩

/-- The new lines are ended by line feeds, if the new text is plain. -/
theorem isFed_newLines (n : Nat) (hopening : opening.head? ≠ some ' ') (h : IsPlain new) :
    ∀ l ∈ newLines (List.replicate n ' ' ++ opening) new, IsFed l := by
  rw [newLines_eq n hopening]
  intro l hl
  obtain ⟨line, hline, rfl⟩ := List.mem_map.1 hl
  exact isFed_indentLine (isFed_lines_withFeed h line hline) n

theorem isPlain_newLines (n : Nat) (hopening : opening.head? ≠ some ' ') (h : IsPlain new) :
    ∀ l ∈ newLines (List.replicate n ' ' ++ opening) new, IsPlain l := by
  have hlines : ∀ l ∈ Text.lines (withFeed new), IsPlain l :=
    isPlain_flatten.1 (by rw [join_lines]; exact isPlain_withFeed h)
  rw [newLines_eq n hopening]
  intro l hl
  obtain ⟨line, hline, rfl⟩ := List.mem_map.1 hl
  obtain ⟨k, hspaces⟩ := exists_indentLine n line
  rw [hspaces]
  refine isPlain_append.2 ⟨fun c hc => ?_, hlines line hline⟩
  rw [List.eq_of_mem_replicate hc]
  decide

/-- Under an opening line without indentation the new text is written as it is. -/
theorem flatten_newLines (h : opening.head? ≠ some ' ') (new : Text) :
    (newLines opening new).flatten = withFeed new := by
  have hlines := newLines_eq 0 h new
  rw [List.replicate_zero, List.nil_append] at hlines
  rw [hlines, List.map_congr_left fun line _ => indentLine_nil line, List.map_id', join_lines]

end Replace

/-- A span of lines that lies in the document is replaced. -/
theorem replaceLines_eq_ok (before body identity : Text) {first stop : Nat} (h : first < stop)
    (hstop : stop ≤ (Text.lines body).length) (new : Text) :
    replaceLines (before ++ body) body identity first stop new =
      .ok (before ++ (Replace.spliceLines (Text.lines body) first stop new).flatten) := by
  have hspan :
      (0 : Int) ≤ first ∧ (first : Int) < stop ∧ (stop : Int) ≤ (Text.lines body).length := by
    omega
  have hbefore : ((before ++ body).length : Int) - body.length = before.length := by
    rw [List.length_append]
    omega
  have hslice := slice_append_before before body []
  rw [List.append_nil] at hslice
  unfold replaceLines
  rw [if_pos hspan, hbefore, hslice]
  rfl

end LiterateEdit
