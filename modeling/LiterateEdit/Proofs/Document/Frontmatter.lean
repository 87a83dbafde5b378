import LiterateEdit.Document.Frontmatter
import LiterateEdit.Proofs.Text.Cut

/-!
# Where the front matter is found

The front matter of a document is looked for in the whole text: its closing hyphens are the first
ones that follow a line feed, wherever they stand. So a change in the body may give a document a
front matter, or another one.

A character `d` that is neither blank nor a hyphen bounds the search. What is found before it is
found whatever stands behind it, and where nothing is found the search goes on behind it
(`exists_untilClosing`). The search may start more than once, behind each line feed of the white
space that follows the opening hyphens (`starts`); only for a front matter that is blank it starts
in vain before it starts where that is found (`exists_start_of_blank`). In lines nothing is found
unless one of them is a delimiter (`untilClosing_feedLines_eq_none_iff`).
-/

namespace LiterateEdit

open Text

namespace Frontmatter

variable {d : Char} {p q s s' t u v x : Text} {ls : List Text} {cut : FrontmatterCut}

/-- A line that closes a front matter: three hyphens and blank characters. -/
def IsDelimiter (l : Text) : Prop := fence <+: l ∧ isBlankText (l.drop fence.length) = true

instance (l : Text) : Decidable (IsDelimiter l) := inferInstanceAs (Decidable (_ ∧ _))

/-- Does a text open with a delimiter, as one with a front matter does? -/
def Opens (t : Text) : Prop := ∃ u v, t = u ++ '\n' :: v ∧ IsDelimiter u

theorem Opens.fence_prefix (h : Opens t) : fence <+: t := by
  obtain ⟨u, v, rfl, hfence, -⟩ := h
  exact hfence.trans (List.prefix_append _ _)

/-! ### The search is bounded -/

private theorem closing?_eq_none (hc : d ≠ '\n') (t : Text) : closing? (d :: t) = none := by
  unfold closing?
  split
  · next u heq => exact absurd (List.cons.inj heq).1 hc
  · rfl

theorem suffix_of_untilClosing_cons (hc : d ≠ '\n') (h : untilClosing (d :: t) = some cut) :
    cut.body <:+ t := by
  rw [untilClosing, closing?_eq_none hc] at h
  obtain ⟨cut', hcut', rfl⟩ := Option.map_eq_some_iff.1 h
  change cut'.body <:+ t
  exact suffix_of_untilClosing hcut'

theorem ne_feed (hd : isBlank d = false) : d ≠ '\n' := by
  rintro rfl
  revert hd
  decide

/-- A pattern without `d` does not reach over it. -/
private theorem exists_of_append_eq {pattern : Text} (hd : d ∉ pattern)
    (h : pattern ++ u = p ++ d :: s) : ∃ v, p = pattern ++ v ∧ u = v ++ d :: s := by
  induction pattern generalizing p with
  | nil => exact ⟨p, rfl, h⟩
  | cons a pattern ih =>
    obtain ⟨hne, hd⟩ := not_or.1 (mt List.mem_cons.2 hd)
    cases p with
    | nil => exact absurd (List.cons.inj h).1.symm hne
    | cons b p =>
      obtain ⟨rfl, htail⟩ := List.cons.inj h
      obtain ⟨v, rfl, hu⟩ := ih hd htail
      exact ⟨v, rfl, hu⟩

/-- The blank characters that a text starts with end before `d`. -/
private theorem exists_behindFeeds (hd : isBlank d = false) (p : Text) :
    ∃ zs : List Text, ∀ s, behindFeeds (p ++ d :: s) = zs.map (· ++ d :: s) := by
  induction p with
  | nil =>
    refine ⟨[], fun s => ?_⟩
    rw [List.nil_append, behindFeeds, hd]
    rfl
  | cons c p ih =>
    obtain ⟨zs, hzs⟩ := ih
    refine ⟨if isBlank c then if c = '\n' then zs ++ [p] else zs else [], fun s => ?_⟩
    rw [List.cons_append, behindFeeds, hzs]
    split
    · split
      · rw [List.map_append]
        rfl
      · rfl
    · rfl

private theorem exists_closing? (hd : isBlank d = false) (hne : d ≠ '-') (p : Text) :
    ∃ body : Option Text, ∀ s, closing? (p ++ d :: s) = body.map (· ++ d :: s) := by
  have hpattern : d ∉ '\n' :: fence := by
    simp only [fence, List.mem_cons, List.not_mem_nil, or_false, not_or]
    exact ⟨ne_feed hd, hne, hne, hne⟩
  by_cases hp : ∃ v, p = '\n' :: fence ++ v
  · obtain ⟨v, rfl⟩ := hp
    obtain ⟨zs, hzs⟩ := exists_behindFeeds hd v
    refine ⟨zs.head?, fun s => ?_⟩
    change (behindFeeds (v ++ d :: s)).head? = _
    rw [hzs, List.head?_map]
  · refine ⟨none, fun s => ?_⟩
    unfold closing?
    split
    · next u heq =>
      have hstart : '\n' :: fence ++ u = p ++ d :: s := heq.symm
      obtain ⟨v, hv, -⟩ := exists_of_append_eq hpattern hstart
      exact absurd ⟨v, hv⟩ hp
    · rfl

/-- **The search stops before `d` or goes on behind it**, and which of both does not depend on what
stands behind it. -/
theorem exists_untilClosing (hd : isBlank d = false) (hne : d ≠ '-') (p : Text) :
    (∃ header body, ∀ s, untilClosing (p ++ d :: s) = some ⟨header, body ++ d :: s⟩) ∨
      ∀ s, untilClosing (p ++ d :: s) =
        (untilClosing (d :: s)).map fun cut => ⟨p ++ cut.header, cut.body⟩ := by
  induction p with
  | nil =>
    right
    intro s
    exact Option.map_id'.symm
  | cons c p ih =>
    obtain ⟨body, hbody⟩ := exists_closing? hd hne (c :: p)
    have hstep (s : Text) : untilClosing (c :: p ++ d :: s) =
        match body.map (· ++ d :: s) with
        | some body => some ⟨[], body⟩
        | none => (untilClosing (p ++ d :: s)).map fun cut => ⟨c :: cut.header, cut.body⟩ := by
      rw [← hbody]
      rfl
    cases body with
    | some body =>
      -- the closing delimiter stands right here
      left
      exact ⟨[], body, hstep⟩
    | none =>
      -- `c` belongs to the header, wherever that ends
      rcases ih with ⟨header, body, hfound⟩ | hlater
      · left
        refine ⟨c :: header, body, fun s => ?_⟩
        rw [hstep]
        dsimp only [Option.map_none]
        rw [hfound]
        rfl
      · right
        intro s
        rw [hstep]
        dsimp only [Option.map_none]
        rw [hlater, Option.map_map]
        rfl

/-! ### The search may start more than once -/

private theorem isBlankText_cons {c : Char} {b : Text} :
    isBlankText (c :: b) = true ↔ isBlank c = true ∧ isBlankText b = true := by
  rw [isBlankText, List.all_cons, Bool.and_eq_true]
  exact Iff.rfl

private theorem mem_behindFeeds {b : Text} (hb : isBlankText b = true) (x : Text) :
    x ∈ behindFeeds (b ++ '\n' :: x) := by
  induction b with
  | nil => exact List.mem_append_right _ List.mem_cons_self
  | cons c b ih =>
    obtain ⟨hc, hb⟩ := isBlankText_cons.1 hb
    rw [List.cons_append, behindFeeds, if_pos hc]
    split
    · exact List.mem_append_left _ (ih hb)
    · exact ih hb

private theorem exists_of_mem_behindFeeds (h : x ∈ behindFeeds t) :
    ∃ b, isBlankText b = true ∧ t = b ++ '\n' :: x := by
  induction t with
  | nil => cases h
  | cons c t ih =>
    rw [behindFeeds] at h
    split at h
    · next hc =>
      have later (h : x ∈ behindFeeds t) : ∃ b, isBlankText b = true ∧ c :: t = b ++ '\n' :: x := by
        obtain ⟨b, hb, rfl⟩ := ih h
        exact ⟨c :: b, isBlankText_cons.2 ⟨hc, hb⟩, rfl⟩
      split at h
      · next hfeed =>
        rcases List.mem_append.1 h with h | h
        · exact later h
        · rw [List.mem_singleton.1 h, hfeed]
          exact ⟨[], rfl, rfl⟩
      · exact later h
    · cases h

/-- **The search starts behind each line feed** that only blank characters stand before. -/
theorem mem_behindFeeds_iff :
    x ∈ behindFeeds t ↔ ∃ b, isBlankText b = true ∧ t = b ++ '\n' :: x := by
  constructor
  · exact exists_of_mem_behindFeeds
  · rintro ⟨b, hb, rfl⟩
    exact mem_behindFeeds hb x

/-- Behind the last of these line feeds there is none. -/
private theorem behindFeeds_of_head? (h : (behindFeeds t).head? = some x) : behindFeeds x = [] := by
  induction t with
  | nil => cases h
  | cons c t ih =>
    rw [behindFeeds] at h
    split at h
    · split at h
      · cases hrest : behindFeeds t with
        | nil =>
          rw [hrest] at h
          exact Option.some.inj h ▸ hrest
        | cons z zs =>
          rw [hrest] at h
          exact ih (hrest ▸ h)
      · exact ih h
    · cases h

/-- A later start of the search lies before an earlier one, with only blank characters between. -/
private theorem pairwise_behindFeeds (t : Text) :
    (behindFeeds t).Pairwise fun x z => ∃ b, isBlankText b = true ∧ z = b ++ x := by
  induction t with
  | nil => exact List.Pairwise.nil
  | cons c t ih =>
    rw [behindFeeds]
    split
    · split
      · refine List.pairwise_append.2 ⟨ih, List.pairwise_singleton _ _, fun x hx z hz => ?_⟩
        obtain ⟨b, hb, rfl⟩ := mem_behindFeeds_iff.1 hx
        refine ⟨b ++ ['\n'], ?_, ?_⟩
        · rw [isBlankText, List.all_append, Bool.and_eq_true]
          exact ⟨hb, by decide⟩
        · rw [List.mem_singleton.1 hz, List.append_assoc]
          rfl
      · exact ih
    · exact List.Pairwise.nil

/-- What is found only if the search starts before `t` begins there. -/
theorem header_prefix {b : Text} (h : untilClosing (b ++ t) = some cut)
    (ht : untilClosing t = none) : cut.header <+: b := by
  induction b generalizing cut with
  | nil =>
    rw [List.nil_append, ht] at h
    cases h
  | cons c b ih =>
    rw [List.cons_append, untilClosing] at h
    split at h
    · cases h
      exact List.nil_prefix
    · obtain ⟨cut', hcut', rfl⟩ := Option.map_eq_some_iff.1 h
      exact List.cons_prefix_cons.2 ⟨rfl, ih hcut'⟩

/-- Where the search for the end of a front matter is started. -/
def starts (t : Text) : List Text :=
  match dropStart? fence t with
  | none => []
  | some u => behindFeeds u

theorem cut?_eq (t : Text) : cut? t = (starts t).findSome? untilClosing := by
  rw [cut?, starts]
  cases dropStart? fence t <;> rfl

/-- The search is started at all if the text opens with a delimiter. -/
theorem opens_iff : Opens t ↔ starts t ≠ [] := by
  constructor
  · rintro ⟨u, v, rfl, ⟨w, rfl⟩, hblank⟩
    rw [List.drop_left] at hblank
    have hstarts : starts (fence ++ w ++ '\n' :: v) = behindFeeds (w ++ '\n' :: v) := rfl
    rw [hstarts]
    exact List.ne_nil_of_mem (mem_behindFeeds_iff.2 ⟨w, hblank, rfl⟩)
  · intro hne
    obtain ⟨x, hx⟩ := List.exists_mem_of_ne_nil _ hne
    rw [starts] at hx
    split at hx
    · exact absurd hx List.not_mem_nil
    · next u hu =>
      obtain ⟨b, hb, rfl⟩ := mem_behindFeeds_iff.1 hx
      refine ⟨fence ++ b, x, ?_, List.prefix_append _ _, ?_⟩
      · rw [List.append_assoc, append_of_dropStart? hu]
      · rwa [List.drop_left]

theorem pairwise_starts (t : Text) :
    (starts t).Pairwise fun x z => ∃ b, isBlankText b = true ∧ z = b ++ x := by
  rw [starts]
  split
  · exact List.Pairwise.nil
  · exact pairwise_behindFeeds _

/-- The search is started before `d`, wherever it is started. -/
theorem exists_starts (hd : isBlank d = false) (hne : d ≠ '-') (p : Text) :
    ∃ zs : List Text, ∀ s, starts (p ++ d :: s) = zs.map (· ++ d :: s) := by
  have hpattern : d ∉ fence := by
    simp only [fence, List.mem_cons, List.not_mem_nil, or_false, not_or]
    exact ⟨hne, hne, hne⟩
  by_cases hp : fence <+: p
  · obtain ⟨v, rfl⟩ := hp
    obtain ⟨zs, hzs⟩ := exists_behindFeeds hd v
    exact ⟨zs, hzs⟩
  · refine ⟨[], fun s => ?_⟩
    rw [starts]
    split
    · rfl
    · next u hu =>
      obtain ⟨v, hv, -⟩ := exists_of_append_eq hpattern (append_of_dropStart? hu)
      exact absurd ⟨v, hv.symm⟩ hp

/-- What is found starts with what stands before the closing hyphens. -/
private theorem exists_header (h : untilClosing t = some cut) :
    ∃ w, t = cut.header ++ '\n' :: w := by
  induction t generalizing cut with
  | nil => cases h
  | cons c t ih =>
    rw [untilClosing] at h
    split at h
    · next body hclosing =>
      cases h
      unfold closing? at hclosing
      split at hclosing
      · next u heq => exact ⟨_, heq⟩
      · cases hclosing
    · obtain ⟨cut', hcut', rfl⟩ := Option.map_eq_some_iff.1 h
      obtain ⟨w, rfl⟩ := ih hcut'
      exact ⟨w, rfl⟩

/-- **A front matter that is blank is not found at the first start**, which lies behind all the
blank lines. -/
theorem exists_start_of_blank (hopens : Opens t)
    (hblank : ∀ cut, cut? t = some cut → isBlankText cut.header = true) :
    ∃ x rest, starts t = x :: rest ∧ untilClosing x = none := by
  obtain ⟨x, rest, hstarts⟩ := List.exists_cons_of_ne_nil (opens_iff.1 hopens)
  refine ⟨x, rest, hstarts, ?_⟩
  cases hfound : untilClosing x with
  | none => rfl
  | some cut =>
    have hcut : cut? t = some cut := by rw [cut?_eq, hstarts, List.findSome?_cons, hfound]
    have hnone : behindFeeds x = [] := by
      rw [starts] at hstarts
      split at hstarts
      · cases hstarts
      · exact behindFeeds_of_head? (congrArg List.head? hstarts)
    obtain ⟨w, hw⟩ := exists_header hfound
    have hmem : w ∈ behindFeeds x := mem_behindFeeds_iff.2 ⟨_, hblank cut hcut, hw⟩
    rw [hnone] at hmem
    exact absurd hmem List.not_mem_nil

/-! ### Delimiters -/

/-- Nothing is found in a line, before its end. -/
private theorem untilClosing_append_eq_none_iff (hu : '\n' ∉ u) (t : Text) :
    untilClosing (u ++ t) = none ↔ untilClosing t = none := by
  induction u with
  | nil => exact Iff.rfl
  | cons c u ih =>
    obtain ⟨hc, hu⟩ := not_or.1 (mt List.mem_cons.2 hu)
    rw [List.cons_append, untilClosing, closing?_eq_none (Ne.symm hc), Option.map_eq_none_iff]
    exact ih hu

private theorem behindFeeds_append (hu : '\n' ∉ u) (t : Text) :
    behindFeeds (u ++ t) = if isBlankText u then behindFeeds t else [] := by
  induction u with
  | nil => rfl
  | cons c u ih =>
    obtain ⟨hc, hu⟩ := not_or.1 (mt List.mem_cons.2 hu)
    have hall : isBlankText (c :: u) = (isBlank c && isBlankText u) := rfl
    rw [List.cons_append, behindFeeds, if_neg (Ne.symm hc), ih hu, hall]
    cases isBlank c <;> rfl

/-- The end of a line closes a front matter if the next line is a delimiter. -/
private theorem closing?_eq_none_iff (hu : '\n' ∉ u) (t : Text) :
    closing? ('\n' :: (u ++ '\n' :: t)) = none ↔ ¬ IsDelimiter (u ++ ['\n']) := by
  have hfence : '\n' ∉ fence := by decide
  by_cases hstart : fence <+: u
  -- the line starts with hyphens, and closes if nothing else is in it
  · obtain ⟨v, rfl⟩ := hstart
    have hv : '\n' ∉ v := mt (List.mem_append_right fence) hu
    have hdelimiter : IsDelimiter (fence ++ v ++ ['\n']) ↔ isBlankText v = true := by
      have hdrop : (fence ++ v ++ ['\n']).drop fence.length = v ++ ['\n'] := by
        rw [List.append_assoc, List.drop_left]
      rw [IsDelimiter, hdrop, isBlankText, List.all_append, List.append_assoc]
      exact ⟨fun h => (Bool.and_eq_true _ _ ▸ h.2).1, fun h =>
        ⟨List.prefix_append _ _, Bool.and_eq_true _ _ ▸ ⟨h, by decide⟩⟩⟩
    change (behindFeeds (v ++ '\n' :: t)).head? = none ↔ _
    rw [hdelimiter, List.head?_eq_none_iff, behindFeeds_append hv]
    cases isBlankText v with
    | false => exact iff_of_true rfl Bool.false_ne_true
    | true =>
      have hfeed : behindFeeds ('\n' :: t) = behindFeeds t ++ [t] := rfl
      rw [if_pos rfl, hfeed]
      refine iff_of_false ?_ fun h => h rfl
      exact List.append_ne_nil_of_right_ne_nil _ (List.cons_ne_nil t [])
  -- it does not, so that it is no delimiter, and hyphens behind it do not count
  · refine iff_of_true ?_ fun h => ?_
    · unfold closing?
      split
      · next w heq =>
        obtain ⟨v, rfl, -⟩ := exists_of_append_eq hfence (List.cons.inj heq).2.symm
        exact absurd (List.prefix_append fence v) hstart
      · rfl
    · obtain ⟨w, hw⟩ := h.1
      obtain ⟨v, rfl, -⟩ := exists_of_append_eq hfence hw
      exact hstart (List.prefix_append fence v)

/-- **Behind the end of a line nothing is found in lines** exactly if none of them is a delimiter,
and nothing is found behind them. -/
theorem untilClosing_feedLines_eq_none_iff (h : ∀ l ∈ ls, IsFeedLine l) (hu : '\n' ∉ u) (t : Text) :
    untilClosing (u ++ '\n' :: (ls.flatten ++ t)) = none ↔
      (∀ l ∈ ls, ¬ IsDelimiter l) ∧ untilClosing ('\n' :: t) = none := by
  rw [untilClosing_append_eq_none_iff hu]
  clear hu
  induction ls with
  | nil => exact ⟨fun h => ⟨fun l hl => absurd hl List.not_mem_nil, h⟩, fun h => h.2⟩
  | cons l ls ih =>
    obtain ⟨⟨u, hu, rfl⟩, hls⟩ := List.forall_mem_cons.1 h
    have hflatten : ((u ++ ['\n']) :: ls).flatten ++ t = u ++ '\n' :: (ls.flatten ++ t) := by
      rw [List.flatten_cons, List.append_assoc, List.append_assoc]
      rfl
    have hiff := closing?_eq_none_iff hu (ls.flatten ++ t)
    rw [hflatten, List.forall_mem_cons, ← hiff, and_assoc, ← ih hls, untilClosing]
    cases hclosing : closing? ('\n' :: (u ++ '\n' :: (ls.flatten ++ t))) with
    | some body => exact iff_of_false (fun hfound => by cases hfound) fun h => by cases h.1
    | none =>
      dsimp only
      rw [Option.map_eq_none_iff, untilClosing_append_eq_none_iff hu, eq_self, true_and]

/-- Where nothing is found, nothing is found further behind. -/
theorem untilClosing_eq_none_of_suffix (hsuffix : u <:+ t) (h : untilClosing t = none) :
    untilClosing u = none := by
  induction t with
  | nil => rwa [List.suffix_nil.1 hsuffix]
  | cons c t ih =>
    rcases List.suffix_cons_iff.1 hsuffix with rfl | hsuffix
    · exact h
    · rw [untilClosing] at h
      split at h
      · cases h
      · exact ih hsuffix (Option.map_eq_none_iff.1 h)

end Frontmatter

end LiterateEdit
