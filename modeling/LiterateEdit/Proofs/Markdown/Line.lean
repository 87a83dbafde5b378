import LiterateEdit.Markdown.Line
import LiterateEdit.Proofs.Text.Cut
import LiterateEdit.Proofs.Text.Newline
import LiterateEdit.Proofs.Text.Split

/-!
# The lines of a document and the text that they are written as

Markdown numbers the lines of a document; whoever writes to the document counts the lines that its
text is cut into. As far as a text is plain (`Text.IsPlain`) both count alike: `numbered` reads a
list of lines of text, one after another, and `lines_take` says that it reads the first lines of a
document, whatever stands behind them (`linesFrom`). The end of a document behind its last line feed
is no line of Markdown if it holds nothing but gaps.
-/

namespace LiterateEdit.Markdown

open LiterateEdit.Text

variable {k n : Nat} {t u l : Text} {ls ls' : List Text}

/-- The line with a number that is written as a text, which may end in a line feed. -/
def Line.ofCut (k : Nat) (t : Text) : Line :=
  if t.getLast? = some '\n' then .ofText k true t.dropLast else .ofText k false t

/-- The lines, numbered from `k` on, of a text that is cut into `ls`. -/
def numbered (k : Nat) : List Text → List Line
  | [] => []
  | t :: ls => if t.all isGap then numbered (k + 1) ls else .ofCut k t :: numbered (k + 1) ls

theorem Line.ofCut_feed (k : Nat) (u : Text) : Line.ofCut k (u ++ ['\n']) = .ofText k true u := by
  rw [ofCut, if_pos List.getLast?_concat, List.dropLast_concat]

theorem Line.ofCut_unbroken (h : Unbroken l) : Line.ofCut k l = .ofText k false l := by
  refine if_neg fun hlast => ?_
  exact absurd (h '\n' (List.mem_of_getLast? hlast)) (by decide)

theorem Line.number_ofCut (k : Nat) (t : Text) : (Line.ofCut k t).number = k := by
  unfold Line.ofCut
  split <;> rfl

/-- Of a line read off a text only the number depends on where it stands. -/
theorem Line.ofCut_eq (k : Nat) (t : Text) :
    Line.ofCut k t = { Line.ofCut 0 t with number := k } := by
  unfold Line.ofCut
  split <;> rfl

theorem not_all_isGap_feed (u : Text) : (u ++ ['\n']).all isGap = false := by
  rw [List.all_append, Bool.and_eq_false_iff]
  exact .inr (by decide)

theorem not_all_isGap_of_isFed (h : IsFed t) : t.all isGap = false := by
  obtain ⟨u, -, rfl⟩ := h
  exact not_all_isGap_feed u

/-! ### A document is read line by line -/

/-- The lines of a text that stands in a document behind `k` lines. -/
def linesFrom (k : Nat) (t : Text) : List Line :=
  Line.ofPieces k (feedPieces ((unixNewlines t).map fun c => if c = '\x00' then '\ufffd' else c))

/-- A text with its null characters replaced. -/
def cleaned (t : Text) : Text := t.map fun c => if c = '\x00' then '\ufffd' else c

private theorem cleaned_eq (hu : IsClean u) : cleaned u = u :=
  (List.map_congr_left fun c hc => if_neg (hu c hc).2).trans u.map_id'

theorem mem_of_mem_cleaned {c : Char} (h : c ∈ cleaned t) (hc : c ≠ '\ufffd') : c ∈ t := by
  obtain ⟨d, hd, rfl⟩ := List.mem_map.1 h
  split at hc
  · exact absurd rfl hc
  · next hnull => rwa [if_neg hnull]

private theorem feedPieces_ne_nil (t : Text) : feedPieces t ≠ [] := splitOn_ne_nil _ t

private theorem feedPieces_last (h : '\n' ∉ u) : feedPieces u = [u] := splitOn_of_not_mem h

private theorem feedPieces_feed (h : '\n' ∉ u) (t : Text) :
    feedPieces (u ++ '\n' :: t) = u :: feedPieces t := splitOn_append h t

private theorem ofPieces_cons (k : Nat) (t : Text) (h : ls ≠ []) :
    Line.ofPieces k (t :: ls) = .ofText k true t :: Line.ofPieces (k + 1) ls := by
  cases ls with
  | nil => exact absurd rfl h
  | cons u rest => rfl

theorem linesFrom_nil (k : Nat) : linesFrom k [] = [] := rfl

/-- What ends in a line feed is one line, also if a carriage return stands before it. -/
theorem linesFrom_feed (k : Nat) {brk : Text} (hbrk : brk = ['\n'] ∨ brk = ['\r', '\n'])
    (hcr : '\r' ∉ u) (hfeed : '\n' ∉ u) (t : Text) :
    linesFrom k (u ++ (brk ++ t)) = .ofText k true (cleaned u) :: linesFrom (k + 1) t := by
  have hbreak : unixNewlines (brk ++ t) = '\n' :: unixNewlines t := by
    rcases hbrk with rfl | rfl <;> rfl
  have hcleaned : '\n' ∉ cleaned u := fun hmem => hfeed (mem_of_mem_cleaned hmem (by decide))
  change Line.ofPieces k (feedPieces (cleaned (unixNewlines (u ++ (brk ++ t))))) = _
  have happend : cleaned (u ++ '\n' :: unixNewlines t) =
      cleaned u ++ '\n' :: cleaned (unixNewlines t) := by
    rw [cleaned, List.map_append]
    rfl
  rw [unixNewlines_append hcr, hbreak, happend, feedPieces_feed hcleaned,
    ofPieces_cons k _ (feedPieces_ne_nil _)]
  rfl

/-- What has no break is one line, unless it is blank. -/
theorem linesFrom_unbroken (k : Nat) (hcr : '\r' ∉ u) (hfeed : '\n' ∉ u) :
    linesFrom k u = if (cleaned u).all isGap then [] else [.ofText k false (cleaned u)] := by
  have hcleaned : '\n' ∉ cleaned u := fun hmem => hfeed (mem_of_mem_cleaned hmem (by decide))
  change Line.ofPieces k (feedPieces (cleaned (unixNewlines u))) = _
  rw [unixNewlines_of_not_mem hcr, feedPieces_last hcleaned]
  rfl

/-- A row is one line. -/
theorem linesFrom_row (k : Nat) (h : IsRow l) (t : Text) :
    linesFrom k (l ++ t) = .ofCut k l :: linesFrom (k + 1) t := by
  obtain ⟨u, hu, hfeed, rfl⟩ := h
  have hcr : '\r' ∉ u := fun hmem => (hu _ hmem).1 rfl
  rw [List.append_assoc, linesFrom_feed k (.inl rfl) hcr hfeed, cleaned_eq hu, Line.ofCut_feed]

/-- A last line without line feed, if it holds anything but gaps. -/
theorem linesFrom_last (k : Nat) (hclean : IsClean u) (hfeed : '\n' ∉ u) :
    linesFrom k u = numbered k [u] := by
  have hcr : '\r' ∉ u := fun hmem => (hclean _ hmem).1 rfl
  have hline : Line.ofCut k u = .ofText k false u :=
    if_neg fun hlast => hfeed (List.mem_of_getLast? hlast)
  rw [linesFrom_unbroken k hcr hfeed, cleaned_eq hclean, numbered, hline]
  rfl

/-- **A document is read row by row**, whatever stands behind the rows. -/
theorem linesFrom_rows (k : Nat) (h : ∀ l ∈ ls, IsRow l) (t : Text) :
    linesFrom k (ls.flatten ++ t) = numbered k ls ++ linesFrom (k + ls.length) t := by
  induction ls generalizing k with
  | nil => rfl
  | cons l ls ih =>
    obtain ⟨hl, hls⟩ := List.forall_mem_cons.1 h
    have hgap : l.all isGap = false := by
      obtain ⟨u, -, -, rfl⟩ := hl
      exact not_all_isGap_feed u
    rw [List.flatten_cons, List.append_assoc, linesFrom_row k hl, ih (k + 1) hls, numbered, hgap,
      List.length_cons, Nat.add_assoc, Nat.add_comm 1]
    rfl

/-- Lines of a plain text may stand before anything if all of them have their line feeds. -/
theorem linesFrom_cut (k : Nat) (h : Cut ls) (hplain : ∀ l ∈ ls, IsPlain l)
    (hfed : t ≠ [] → ∀ l ∈ ls, IsFed l) :
    linesFrom k (ls.flatten ++ t) = numbered k ls ++ linesFrom (k + ls.length) t := by
  by_cases ht : t = []
  · subst ht
    rw [List.append_nil, linesFrom_nil, List.append_nil]
    induction h generalizing k with
    | nil => rfl
    | @last u hne hu =>
      rw [List.flatten_cons, List.flatten_nil, List.append_nil]
      exact linesFrom_last k (hplain u List.mem_cons_self).isClean hu.not_mem_feed
    | @cons u ls hu hls ih =>
      obtain ⟨hl, hplain⟩ := List.forall_mem_cons.1 hplain
      have hfed : IsFed (u ++ ['\n']) := ⟨u, hu, rfl⟩
      rw [List.flatten_cons, linesFrom_row k (hfed.isRow hl),
        ih (k + 1) hplain fun h => absurd rfl h, numbered, not_all_isGap_feed]
      rfl
  · exact linesFrom_rows k (fun l hl => (hfed ht l hl).isRow (hplain l hl)) t

/-- **A plain document is read line by line**, and its lines are numbered as its text is cut. -/
theorem lines_flatten (h : Cut ls) (hplain : IsPlain ls.flatten) :
    lines ls.flatten = numbered 0 ls := by
  have hlines := linesFrom_cut (t := []) 0 h (isPlain_flatten.1 hplain) fun h => absurd rfl h
  rwa [List.append_nil, linesFrom_nil, List.append_nil] at hlines

/-- The first lines of a document, if they are plain, and what stands behind them. -/
theorem lines_take (h : ∀ l ∈ (Text.lines t).take n, IsPlain l) :
    lines t = numbered 0 ((Text.lines t).take n) ++
      linesFrom ((Text.lines t).take n).length ((Text.lines t).drop n).flatten := by
  obtain ⟨hcut, hfed⟩ := cut_take h
  have hsplit : t = ((Text.lines t).take n).flatten ++ ((Text.lines t).drop n).flatten := by
    rw [← List.flatten_append, List.take_append_drop, join_lines]
  have hbehind : ((Text.lines t).drop n).flatten ≠ [] → ∀ l ∈ (Text.lines t).take n, IsFed l :=
    fun hne => hfed fun hnil => hne (by rw [hnil]; rfl)
  have hlines := linesFrom_cut 0 hcut h hbehind
  rw [← hsplit, Nat.zero_add] at hlines
  exact hlines

private theorem mem_ofPieces {line : Line} (h : line ∈ Line.ofPieces k ls) :
    k ≤ line.number ∧ ∃ b, ∃ u ∈ ls, line = .ofText line.number b u := by
  fun_induction Line.ofPieces k ls with
  | case1 => exact absurd h List.not_mem_nil
  | case2 => exact absurd h List.not_mem_nil
  | case3 k t =>
    obtain rfl := List.mem_singleton.1 h
    exact ⟨Nat.le_refl k, false, t, List.mem_cons_self, rfl⟩
  | case4 k t u rest ih =>
    rcases List.mem_cons.1 h with rfl | h
    · exact ⟨Nat.le_refl k, true, t, List.mem_cons_self, rfl⟩
    · obtain ⟨hle, b, v, hv, hline⟩ := ih h
      exact ⟨Nat.le_of_succ_le hle, b, v, List.mem_cons_of_mem t hv, hline⟩

/-- The lines of what stands in a document behind `k` lines are numbered from there on, and each is
read off a text without line feeds. -/
theorem mem_linesFrom {line : Line} (h : line ∈ linesFrom k t) :
    k ≤ line.number ∧ ∃ b u, '\n' ∉ u ∧ line = .ofText line.number b u := by
  obtain ⟨hle, b, u, hu, hline⟩ := mem_ofPieces h
  exact ⟨hle, b, u, not_mem_of_mem_splitOn hu, hline⟩

private theorem pairwise_ofPieces (k : Nat) (ls : List Text) :
    (Line.ofPieces k ls).Pairwise fun l l' => l.number < l'.number ∧ l.terminated = true := by
  fun_induction Line.ofPieces k ls with
  | case1 => exact .nil
  | case2 => exact .nil
  | case3 => exact List.pairwise_singleton _ _
  | case4 k t u rest ih => exact List.pairwise_cons.2 ⟨fun l hl => ⟨(mem_ofPieces hl).1, rfl⟩, ih⟩

/-- The lines of a document are numbered one after another. -/
theorem pairwise_linesFrom (k : Nat) (t : Text) :
    ((linesFrom k t).map Line.number).Pairwise (· < ·) :=
  List.pairwise_map.2 ((pairwise_ofPieces k _).imp And.left)

/-- Only the last line of a document may lack its line feed. -/
theorem pairwise_terminated_linesFrom (k : Nat) (t : Text) :
    (linesFrom k t).Pairwise fun l _ => l.terminated = true :=
  (pairwise_ofPieces k _).imp And.right

/-- **Markdown and whoever writes to the document count its first lines alike**, if these are broken
by line feeds only. -/
theorem exists_linesFrom_take (k : Nat) (h : ∀ l ∈ (Text.lines t).take n, FeedBroken l) :
    ∃ near, linesFrom k t =
        near ++ linesFrom (k + ((Text.lines t).take n).length) ((Text.lines t).drop n).flatten ∧
      ∀ q ∈ near, ∃ i l, q.number = k + i ∧ ((Text.lines t).take n)[i]? = some l ∧
        ∀ c ∈ q.chars, c ≠ '\ufffd' → c ∈ l := by
  have hclear {u : Text} (hu : Unbroken u) : '\r' ∉ u ∧ '\n' ∉ u :=
    ⟨fun hmem => absurd (hu _ hmem) (by decide), hu.not_mem_feed⟩
  induction n generalizing k t with
  | zero =>
    refine ⟨[], ?_, fun q hq => absurd hq List.not_mem_nil⟩
    rw [List.take_zero, List.drop_zero, join_lines]
    rfl
  | succ n ih =>
    by_cases ht : Unbroken t
    -- the last line, which both cut in the same way, if there is one
    · obtain ⟨hcr, hfeed⟩ := hclear ht
      by_cases hnil : t = []
      · subst hnil
        exact ⟨[], rfl, fun q hq => absurd hq List.not_mem_nil⟩
      · rw [lines_unbroken hnil ht, List.take_succ_cons, List.drop_succ_cons, List.take_nil,
          List.drop_nil, linesFrom_unbroken k hcr hfeed]
        refine ⟨_, (List.append_nil _).symm, fun q hq => ?_⟩
        split at hq
        · exact absurd hq List.not_mem_nil
        · obtain rfl := List.mem_singleton.1 hq
          exact ⟨0, t, rfl, rfl, fun c hc hne => mem_of_mem_cleaned hc hne⟩
    -- a line that ends in a break, which is a line feed
    · obtain ⟨u, brk, rest, hu, hbrk, rfl, hlines⟩ := exists_first_line ht
      obtain ⟨hcr, hfeed⟩ := hclear hu
      rw [hlines, List.take_succ_cons] at h
      obtain ⟨hfirst, hrest⟩ := List.forall_mem_cons.1 h
      obtain ⟨near, hnear, hmem⟩ := ih (k + 1) hrest
      rw [hlines, List.take_succ_cons, List.drop_succ_cons,
        linesFrom_feed k (hfirst.of_isBreak hbrk) hcr hfeed, hnear, List.length_cons,
        Nat.add_right_comm k 1]
      refine ⟨.ofText k true (cleaned u) :: near, rfl, List.forall_mem_cons.2 ⟨?_, fun q hq => ?_⟩⟩
      · refine ⟨0, u ++ brk, rfl, rfl, fun c hc hne => List.mem_append_left brk ?_⟩
        exact mem_of_mem_cleaned hc hne
      · obtain ⟨i, l, hnumber, hl, hchars⟩ := hmem q hq
        exact ⟨i + 1, l, by omega, hl, hchars⟩

/-! ### Numbered lines -/

theorem numbered_append (k : Nat) (ls ls' : List Text) :
    numbered k (ls ++ ls') = numbered k ls ++ numbered (k + ls.length) ls' := by
  induction ls generalizing k with
  | nil => rfl
  | cons t ls ih =>
    have hk : k + 1 + ls.length = k + (t :: ls).length := by
      rw [List.length_cons]
      omega
    rw [List.cons_append, numbered, numbered, ih, hk]
    split <;> rfl

theorem numbered_cons (k : Nat) (hgap : t.all isGap = false) (ls : List Text) :
    numbered k (t :: ls) = .ofCut k t :: numbered (k + 1) ls := by
  rw [numbered, hgap]
  rfl

theorem numbered_feed (k : Nat) (u : Text) (ls : List Text) :
    numbered k ((u ++ ['\n']) :: ls) = .ofText k true u :: numbered (k + 1) ls := by
  rw [numbered_cons k (not_all_isGap_feed u), Line.ofCut_feed]

/-- Lines that hold anything but gaps are all lines of Markdown. -/
theorem length_numbered_of_ungapped (k : Nat) (h : ∀ l ∈ ls, l.all isGap = false) :
    (numbered k ls).length = ls.length := by
  induction ls generalizing k with
  | nil => rfl
  | cons l ls ih =>
    rw [numbered_cons k (h l List.mem_cons_self), List.length_cons, List.length_cons,
      ih (k + 1) fun l hl => h l (List.mem_cons_of_mem _ hl)]

/-- Lines that are ended by a line feed are all lines of Markdown. -/
theorem length_numbered (k : Nat) (h : ∀ l ∈ ls, IsFed l) : (numbered k ls).length = ls.length :=
  length_numbered_of_ungapped k fun l hl => not_all_isGap_of_isFed (h l hl)

/-- The lines of a document are those that its text is cut into, but for a last one of gaps. -/
theorem mem_numbered {line : Line} (h : line ∈ numbered k ls) :
    ∃ i, ∃ t, ls[i]? = some t ∧ t.all isGap = false ∧ line = .ofCut (k + i) t := by
  induction ls generalizing k with
  | nil => exact absurd h List.not_mem_nil
  | cons t ls ih =>
    have later (h : line ∈ numbered (k + 1) ls) :
        ∃ i, ∃ u, (t :: ls)[i]? = some u ∧ u.all isGap = false ∧ line = .ofCut (k + i) u := by
      obtain ⟨i, u, hu, hgap, rfl⟩ := ih h
      exact ⟨i + 1, u, by rw [List.getElem?_cons_succ, hu], hgap, by rw [Nat.add_right_comm]; rfl⟩
    rw [numbered] at h
    split at h
    · exact later h
    · next hgap =>
      rcases List.mem_cons.1 h with rfl | h
      · exact ⟨0, t, rfl, Bool.eq_false_iff.2 hgap, rfl⟩
      · exact later h

/-! ### Lines of Markdown and lines of text -/

/-- A stretch of the lines of a document is a stretch of the lines that its text is cut into. -/
theorem numbered_eq_append (h : Cut ls) {front back : List Line}
    (heq : numbered k ls = front ++ back) :
    ∃ ls₁ ls₂, ls = ls₁ ++ ls₂ ∧ front = numbered k ls₁ ∧ ls₁.length = front.length ∧
      back = numbered (k + ls₁.length) ls₂ ∧ ∀ l ∈ ls₁, l.all isGap = false := by
  induction front generalizing k ls with
  | nil => exact ⟨[], ls, rfl, rfl, rfl, heq.symm, fun l hl => absurd hl List.not_mem_nil⟩
  | cons line front ih =>
    cases ls with
    | nil => cases heq
    | cons l ls =>
      cases hgap : l.all isGap with
      | true =>
        -- only the last line may be dropped
        rw [numbered, if_pos hgap] at heq
        cases h with
        | last => cases heq
        | cons hl hls =>
          rw [not_all_isGap_feed] at hgap
          cases hgap
      | false =>
        rw [numbered_cons k hgap] at heq
        obtain ⟨rfl, hrest⟩ := List.cons.inj heq
        obtain ⟨ls₁, ls₂, rfl, hfront, hlength, hback, hall⟩ := ih (Cut.of_cons h).1 hrest
        refine ⟨l :: ls₁, ls₂, rfl, ?_, congrArg (· + 1) hlength, ?_, ?_⟩
        · rw [numbered_cons k hgap, hfront]
        · rw [hback, List.length_cons, Nat.add_right_comm]
          rfl
        · intro l' hl'
          rcases List.mem_cons.1 hl' with rfl | hl'
          · exact hgap
          · exact hall l' hl'

theorem numbered_eq_cons (h : Cut ls) {line : Line} {back : List Line}
    (heq : numbered k ls = line :: back) :
    ∃ l ls₂, ls = l :: ls₂ ∧ line = .ofCut k l ∧ back = numbered (k + 1) ls₂ ∧
      l.all isGap = false := by
  have hsplit : numbered k ls = [line] ++ back := heq
  obtain ⟨ls₁, ls₂, rfl, hline, hlength, hback, hgap⟩ := numbered_eq_append h hsplit
  obtain ⟨l, rfl⟩ := List.length_eq_one_iff.1 hlength
  have hl := hgap l List.mem_cons_self
  rw [numbered_cons k hl] at hline
  exact ⟨l, ls₂, rfl, (List.cons.inj hline).1, hback, hl⟩

end LiterateEdit.Markdown
