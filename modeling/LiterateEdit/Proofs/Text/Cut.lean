import LiterateEdit.Text.Lines

/-!
# Texts that are cut at line feeds

A text may be cut into lines in two ways (`Text.lines`, `Text.feedPieces`), and the two agree on
texts whose only line breaks are line feeds. For such a text (`Text.IsPlain`) the lines are what one
expects: each is a text without breaks and a line feed, and only the last one may lack the feed.

`Cut` says this of a list of lines without naming the text. A list of that shape is cut exactly as
it is written down (`Cut.lines_flatten`), so a document can be handled as the list of its lines: to
exchange some of them in the list and to exchange the text between two line feeds is the same. It is
enough that the first lines of a text are plain, whatever stands behind them (`cut_take`).

Markdown cuts at line feeds only, once carriage returns and null characters are replaced. A text
without these is clean (`IsClean`), and its lines are rows (`IsRow`), whatever else is in them.
-/

namespace LiterateEdit.Text

variable {t u l : Text} {ls ls' : List Text}

/-- Nothing in the text breaks a line. -/
def Unbroken (t : Text) : Prop := ∀ c ∈ t, isLineBreak c = false

/-- **A plain text** has no line breaks but line feeds, and no null characters. -/
def IsPlain (t : Text) : Prop := ∀ c ∈ t, c ≠ '\x00' ∧ (isLineBreak c = true → c = '\n')

/-- **A clean text** has no carriage returns and no null characters. -/
def IsClean (t : Text) : Prop := ∀ c ∈ t, c ≠ '\r' ∧ c ≠ '\x00'

instance (t : Text) : Decidable (Unbroken t) := List.decidableBAll _ t

instance (t : Text) : Decidable (IsPlain t) := List.decidableBAll _ t

instance (t : Text) : Decidable (IsClean t) := List.decidableBAll _ t

/-- A line that is ended by a line feed. -/
def IsFed (l : Text) : Prop := ∃ u, Unbroken u ∧ l = u ++ ['\n']

theorem isFed_iff_getLast? : IsFed l ↔ l.getLast? = some '\n' ∧ Unbroken l.dropLast := by
  constructor
  · rintro ⟨u, hu, rfl⟩
    exact ⟨List.getLast?_concat, by rwa [List.dropLast_concat]⟩
  · rintro ⟨hlast, hu⟩
    obtain ⟨u, rfl⟩ := List.getLast?_eq_some_iff.1 hlast
    rw [List.dropLast_concat] at hu
    exact ⟨u, hu, rfl⟩

instance (l : Text) : Decidable (IsFed l) := decidable_of_iff' _ isFed_iff_getLast?

/-- A line that is broken by a line feed, with or without a carriage return before it, if it is
broken at all. -/
def FeedBroken (l : Text) : Prop := l.getLast? = some '\n' ∨ Unbroken l

instance (l : Text) : Decidable (FeedBroken l) := inferInstanceAs (Decidable (_ ∨ _))

/-- What ends a line: a character that breaks lines, or a carriage return and a line feed. -/
def IsBreak (t : Text) : Prop := t = ['\r', '\n'] ∨ ∃ c, isLineBreak c = true ∧ t = [c]

/-- A line with the line feed that ends it and no other one. -/
def IsFeedLine (l : Text) : Prop := ∃ u, '\n' ∉ u ∧ l = u ++ ['\n']

/-- **A row** is a line of a clean text, with the line feed that ends it. -/
def IsRow (l : Text) : Prop := ∃ u, IsClean u ∧ '\n' ∉ u ∧ l = u ++ ['\n']

/-- The lines of a text, cut at line feeds only. -/
def feedLines : Text → List Text
  | [] => []
  | c :: t => if c = '\n' then [c] :: feedLines t else consLine c (feedLines t)

/-- Lines as they come out of a plain text: only the last one may lack its line feed. -/
inductive Cut : List Text → Prop where
  | nil : Cut []
  | last {l : Text} (hne : l ≠ []) (hl : Unbroken l) : Cut [l]
  | cons {l : Text} {ls : List Text} (hl : Unbroken l) (hls : Cut ls) : Cut ((l ++ ['\n']) :: ls)

theorem Unbroken.of_cons {c : Char} (h : Unbroken (c :: t)) : isLineBreak c = false ∧ Unbroken t :=
  ⟨h c List.mem_cons_self, fun d hd => h d (List.mem_cons_of_mem c hd)⟩

theorem Unbroken.not_mem_feed (h : Unbroken t) : '\n' ∉ t := fun hmem =>
  absurd (h '\n' hmem) (by decide)

theorem IsPlain.mono (h : IsPlain t) (hsub : ∀ c ∈ u, c ∈ t) : IsPlain u :=
  fun c hc => h c (hsub c hc)

theorem isPlain_append : IsPlain (t ++ u) ↔ IsPlain t ∧ IsPlain u := by
  constructor
  · intro h
    exact ⟨h.mono fun c => List.mem_append_left u, h.mono fun c => List.mem_append_right t⟩
  · rintro ⟨ht, hu⟩ c hc
    rcases List.mem_append.1 hc with hc | hc
    · exact ht c hc
    · exact hu c hc

theorem isPlain_flatten : IsPlain ls.flatten ↔ ∀ l ∈ ls, IsPlain l := by
  constructor
  · exact fun h l hl => h.mono fun c hc => List.mem_flatten.2 ⟨l, hl, hc⟩
  · intro h c hc
    obtain ⟨l, hl, hc⟩ := List.mem_flatten.1 hc
    exact h l hl c hc

/-! ### Cutting -/

/-- The first character is a break or belongs to the first line, unless it is the first half of a
break. -/
theorem lines_cons {c : Char} (h : c = '\r' → t.head? ≠ some '\n') :
    lines (c :: t) = if isLineBreak c then [c] :: lines t else consLine c (lines t) := by
  rw [lines]
  rintro u hcr rfl
  exact h hcr rfl

private theorem ne_of_unbroken {c : Char} (hc : isLineBreak c = false) : c ≠ '\r' := by
  rintro rfl
  revert hc
  decide

/-- A line feed ends the first line. -/
theorem lines_feed (h : Unbroken l) (t : Text) :
    lines (l ++ '\n' :: t) = (l ++ ['\n']) :: lines t := by
  induction l with
  | nil =>
    rw [List.nil_append, lines_cons fun hcr => absurd hcr (by decide)]
    rfl
  | cons c l ih =>
    obtain ⟨hc, hl⟩ := h.of_cons
    rw [List.cons_append, lines_cons fun hcr => absurd hcr (ne_of_unbroken hc), hc, ih hl]
    rfl

theorem lines_unbroken (hne : l ≠ []) (h : Unbroken l) : lines l = [l] := by
  induction l with
  | nil => exact absurd rfl hne
  | cons c l ih =>
    obtain ⟨hc, hl⟩ := h.of_cons
    rw [lines_cons fun hcr => absurd hcr (ne_of_unbroken hc), hc]
    cases l with
    | nil => rfl
    | cons d l =>
      rw [ih (List.cons_ne_nil d l) hl]
      rfl

/-- **Lines are cut as they are written down.** -/
theorem Cut.lines_flatten (h : Cut ls) : lines ls.flatten = ls := by
  induction h with
  | nil => rfl
  | last hne hl =>
    rw [List.flatten_cons, List.flatten_nil, List.append_nil]
    exact lines_unbroken hne hl
  | cons hl hls ih =>
    rw [List.flatten_cons, List.append_assoc]
    exact (lines_feed hl _).trans (congrArg _ ih)

/-- Two texts are equal if their lines are. -/
theorem Cut.flatten_inj (h : Cut ls) (h' : Cut ls') : ls.flatten = ls'.flatten ↔ ls = ls' := by
  constructor
  · intro heq
    rw [← h.lines_flatten, heq, h'.lines_flatten]
  · rintro rfl
    rfl

private theorem cut_consLine {c : Char} (hc : isLineBreak c = false) (h : Cut ls) :
    Cut (consLine c ls) := by
  have hcons : ∀ {l : Text}, Unbroken l → Unbroken (c :: l) := by
    intro l hl d hd
    rcases List.mem_cons.1 hd with rfl | hd
    · exact hc
    · exact hl d hd
  cases h with
  | nil => exact .last (List.cons_ne_nil c []) (hcons fun d hd => absurd hd List.not_mem_nil)
  | last hne hl => exact .last (List.cons_ne_nil c _) (hcons hl)
  | cons hl hls => exact .cons (hcons hl) hls

/-- The lines of a text that breaks at line feeds only. -/
theorem cut_lines (h : ∀ c ∈ t, isLineBreak c = true → c = '\n') : Cut (lines t) := by
  induction t with
  | nil => exact .nil
  | cons c t ih =>
    have ht := ih fun d hd => h d (List.mem_cons_of_mem c hd)
    have hfeed := h c List.mem_cons_self
    have hcr : c ≠ '\r' := by
      rintro rfl
      exact absurd (hfeed (by decide)) (by decide)
    rw [lines_cons fun heq => absurd heq hcr]
    cases hc : isLineBreak c with
    | false => exact cut_consLine hc ht
    | true =>
      rw [hfeed hc]
      exact .cons (l := []) (fun d hd => absurd hd List.not_mem_nil) ht

/-- The lines of a plain text. -/
theorem IsPlain.cut_lines (h : IsPlain t) : Cut (lines t) := Text.cut_lines fun c hc => (h c hc).2

/-! ### Lists of lines -/

/-- Lines with their feeds may be put before others. -/
theorem Cut.append (h : ∀ l ∈ ls, IsFed l) (h' : Cut ls') : Cut (ls ++ ls') := by
  induction ls with
  | nil => exact h'
  | cons l ls ih =>
    obtain ⟨u, hu, rfl⟩ := h l List.mem_cons_self
    exact .cons hu (ih fun l hl => h l (List.mem_cons_of_mem _ hl))

theorem Cut.cons_fed (hl : IsFed l) (h : Cut ls) : Cut (l :: ls) := by
  obtain ⟨u, hu, rfl⟩ := hl
  exact .cons hu h

/-- **The first lines of a text are cut at line feeds** if they are plain, and each of them has its
line feed if another line follows. -/
theorem cut_take {n : Nat} (h : ∀ l ∈ (lines t).take n, IsPlain l) :
    Cut ((lines t).take n) ∧ ((lines t).drop n ≠ [] → ∀ l ∈ (lines t).take n, IsFed l) := by
  fun_induction lines t generalizing n with
  | case1 =>
    rw [List.take_nil, List.drop_nil]
    exact ⟨.nil, fun hne => absurd rfl hne⟩
  | case2 t ih =>
    cases n with
    | zero => exact ⟨.nil, fun _ l hl => absurd hl List.not_mem_nil⟩
    | succ n =>
      -- the first line is not plain
      have hcr := h ['\r', '\n'] List.mem_cons_self '\r' List.mem_cons_self
      exact absurd (hcr.2 (by decide)) (by decide)
  | case3 c t _ hc ih =>
    cases n with
    | zero => exact ⟨.nil, fun _ l hl => absurd hl List.not_mem_nil⟩
    | succ n =>
      rw [List.take_succ_cons] at h ⊢
      obtain ⟨hcut, hfed⟩ := ih fun l hl => h l (List.mem_cons_of_mem _ hl)
      obtain rfl : c = '\n' := (h [c] List.mem_cons_self c List.mem_cons_self).2 hc
      have hfeed : IsFed ['\n'] := ⟨[], fun d hd => absurd hd List.not_mem_nil, rfl⟩
      exact ⟨.cons_fed hfeed hcut, fun hne => List.forall_mem_cons.2 ⟨hfeed, hfed hne⟩⟩
  | case4 c t _ hc ih =>
    have hc : isLineBreak c = false := Bool.eq_false_iff.2 hc
    cases n with
    | zero => exact ⟨.nil, fun _ l hl => absurd hl List.not_mem_nil⟩
    | succ n =>
      cases hlines : lines t with
      | nil =>
        change Cut ([c] :: List.take n []) ∧ (List.drop n [] ≠ [] → _)
        rw [List.take_nil, List.drop_nil]
        exact ⟨.last (List.cons_ne_nil c []) (List.forall_mem_singleton.2 hc),
          fun hne => absurd rfl hne⟩
      | cons l ls =>
        rw [hlines] at h ih
        have hl : IsPlain l := (h (c :: l) List.mem_cons_self).mono fun d => List.mem_cons_of_mem c
        obtain ⟨hcut, hfed⟩ := @ih (n + 1) (List.forall_mem_cons.2
          ⟨hl, fun k hk => h k (List.mem_cons_of_mem _ hk)⟩)
        have hcons : IsFed l → IsFed (c :: l) := by
          rintro ⟨u, hu, rfl⟩
          exact ⟨c :: u, List.forall_mem_cons.2 ⟨hc, hu⟩, rfl⟩
        refine ⟨cut_consLine hc hcut, fun hne => ?_⟩
        obtain ⟨hfirst, hrest⟩ := List.forall_mem_cons.1 (hfed hne)
        exact List.forall_mem_cons.2 ⟨hcons hfirst, hrest⟩

/-- **The first line of a text**, and the lines of what follows it. -/
theorem exists_first_line (ht : ¬ Unbroken t) :
    ∃ u brk rest, Unbroken u ∧ IsBreak brk ∧ t = u ++ (brk ++ rest) ∧
      lines t = (u ++ brk) :: lines rest := by
  fun_induction lines t with
  | case1 => exact absurd (fun c hc => absurd hc List.not_mem_nil) ht
  | case2 t ih => exact ⟨[], _, t, fun c hc => absurd hc List.not_mem_nil, .inl rfl, rfl, rfl⟩
  | case3 c t _ hc ih =>
    exact ⟨[], [c], t, fun c hc => absurd hc List.not_mem_nil, .inr ⟨c, hc, rfl⟩, rfl, rfl⟩
  | case4 c t _ hc ih =>
    have hc : isLineBreak c = false := Bool.eq_false_iff.2 hc
    obtain ⟨u, brk, rest, hu, hbrk, rfl, hlines⟩ :=
      ih fun h => ht (List.forall_mem_cons.2 ⟨hc, h⟩)
    refine ⟨c :: u, brk, rest, List.forall_mem_cons.2 ⟨hc, hu⟩, hbrk, rfl, ?_⟩
    rw [hlines]
    rfl

/-- A line with a break is broken by a line feed. -/
theorem FeedBroken.of_isBreak {brk : Text} (h : FeedBroken (u ++ brk)) (hbrk : IsBreak brk) :
    brk = ['\n'] ∨ brk = ['\r', '\n'] := by
  rcases hbrk with rfl | ⟨c, hc, rfl⟩
  · exact .inr rfl
  · rcases h with hlast | hu
    · rw [List.getLast?_concat] at hlast
      rw [Option.some.inj hlast]
      exact .inl rfl
    · rw [hu c (List.mem_append_right u List.mem_cons_self)] at hc
      cases hc

/-- Every line is ended by a break, but for the last one, which may have none. -/
theorem line_cases (h : lines t = ls ++ l :: ls') :
    (∃ u brk, Unbroken u ∧ IsBreak brk ∧ l = u ++ brk) ∨ Unbroken l ∧ ls' = [] := by
  induction ls generalizing t with
  | nil =>
    by_cases ht : Unbroken t
    · cases t with
      | nil => cases h
      | cons c t =>
        rw [lines_unbroken (List.cons_ne_nil c t) ht] at h
        obtain ⟨rfl, hrest⟩ := List.cons.inj h
        exact .inr ⟨ht, hrest.symm⟩
    · obtain ⟨u, brk, rest, hu, hbrk, -, hlines⟩ := exists_first_line ht
      exact .inl ⟨u, brk, hu, hbrk, (List.cons.inj (h.symm.trans hlines)).1⟩
  | cons k ls ih =>
    by_cases ht : Unbroken t
    · cases t with
      | nil => cases h
      | cons c t =>
        rw [lines_unbroken (List.cons_ne_nil c t) ht] at h
        exact absurd (List.cons.inj h).2.symm
          (List.append_ne_nil_of_right_ne_nil ls (List.cons_ne_nil _ _))
    · obtain ⟨u, brk, rest, -, -, -, hlines⟩ := exists_first_line ht
      exact ih (List.cons.inj (hlines.symm.trans h)).2

/-- A line that is broken by a line feed at most is ended by one, but for the last one. -/
theorem FeedBroken.isFeedLine (hl : FeedBroken l) (h : lines t = ls ++ l :: ls') :
    IsFeedLine l ∨ '\n' ∉ l ∧ ls' = [] := by
  rcases line_cases h with ⟨u, brk, hu, hbrk, rfl⟩ | ⟨hu, hlast⟩
  · left
    rcases hl.of_isBreak hbrk with rfl | rfl
    · exact ⟨u, hu.not_mem_feed, rfl⟩
    · refine ⟨u ++ ['\r'], fun hmem => ?_, by rw [List.append_assoc]; rfl⟩
      rcases List.mem_append.1 hmem with hmem | hmem
      · exact hu.not_mem_feed hmem
      · exact absurd (List.mem_singleton.1 hmem) (by decide)
  · exact .inr ⟨hu.not_mem_feed, hlast⟩

theorem Cut.of_fed (h : ∀ l ∈ ls, IsFed l) : Cut ls := by
  have hcut := Cut.append h .nil
  rwa [List.append_nil] at hcut

theorem Cut.of_cons (h : Cut (l :: ls)) : Cut ls ∧ (ls ≠ [] → IsFed l) := by
  cases h with
  | last hne hl => exact ⟨.nil, fun h => absurd rfl h⟩
  | cons hl hls => exact ⟨hls, fun _ => ⟨_, hl, rfl⟩⟩

/-- The lines behind some others are cut as well, and if there are any, the others are fed. -/
theorem Cut.of_append (h : Cut (ls ++ ls')) : Cut ls' ∧ (ls' ≠ [] → ∀ l ∈ ls, IsFed l) := by
  induction ls with
  | nil => exact ⟨h, fun _ l hl => absurd hl List.not_mem_nil⟩
  | cons l ls ih =>
    obtain ⟨htail, hfed⟩ := Cut.of_cons h
    obtain ⟨hcut, hall⟩ := ih htail
    refine ⟨hcut, fun hne k hk => ?_⟩
    rcases List.mem_cons.1 hk with rfl | hk
    · exact hfed (List.append_ne_nil_of_right_ne_nil ls hne)
    · exact hall hne k hk

/-- The lines before some others are cut as well. -/
theorem Cut.of_append_left (h : Cut (ls ++ ls')) : Cut ls := by
  induction ls with
  | nil => exact .nil
  | cons l ls ih =>
    obtain ⟨htail, hfed⟩ := Cut.of_cons h
    by_cases hnil : ls ++ ls' = []
    · obtain ⟨rfl, rfl⟩ := List.append_eq_nil_iff.1 hnil
      exact h
    · obtain ⟨u, hu, rfl⟩ := hfed hnil
      exact .cons hu (ih htail)

theorem IsFed.getLast? (h : IsFed l) : l.getLast? = some '\n' := by
  obtain ⟨u, -, rfl⟩ := h
  exact List.getLast?_concat

/-- If the text ends in a line feed, all its lines do. -/
theorem Cut.isFed_of_getLast? (h : Cut ls)
    (hlast : ls.flatten = [] ∨ ls.flatten.getLast? = some '\n') : ∀ l ∈ ls, IsFed l := by
  induction h with
  | nil => exact fun l hl => absurd hl List.not_mem_nil
  | last hne hu =>
    rw [List.flatten_cons, List.flatten_nil, List.append_nil] at hlast
    rcases hlast with hnil | hlast
    · exact absurd hnil hne
    · exact absurd (hu '\n' (List.mem_of_getLast? hlast)) (by decide)
  | @cons u ls hu hls ih =>
    intro k hk
    rcases List.mem_cons.1 hk with rfl | hk
    · exact ⟨u, hu, rfl⟩
    · refine ih ?_ k hk
      -- what follows the first line ends as the text does
      rw [List.flatten_cons] at hlast
      cases hrest : ls.flatten.getLast? with
      | none => exact .inl (List.getLast?_eq_none_iff.1 hrest)
      | some c =>
        right
        rcases hlast with hempty | hlast
        · rw [(List.append_eq_nil_iff.1 hempty).2] at hrest
          cases hrest
        · rw [List.getLast?_append, hrest] at hlast
          exact hlast

/-! ### Rows -/

theorem IsPlain.isClean (h : IsPlain t) : IsClean t := by
  intro c hc
  refine ⟨?_, (h c hc).1⟩
  rintro rfl
  exact absurd ((h '\r' hc).2 (by decide)) (by decide)

theorem IsRow.isFeedLine (h : IsRow l) : IsFeedLine l := by
  obtain ⟨u, -, hu, hl⟩ := h
  exact ⟨u, hu, hl⟩

theorem IsFed.isRow (h : IsFed l) (hplain : IsPlain l) : IsRow l := by
  obtain ⟨u, hu, rfl⟩ := h
  exact ⟨u, (isPlain_append.1 hplain).1.isClean, hu.not_mem_feed, rfl⟩

theorem flatten_feedLines (t : Text) : (feedLines t).flatten = t := by
  induction t with
  | nil => rfl
  | cons c t ih =>
    rw [feedLines]
    split
    · rw [List.flatten_cons, ih]
      rfl
    · rw [flatten_consLine, ih]

theorem feedLines_row (h : '\n' ∉ u) (t : Text) :
    feedLines (u ++ '\n' :: t) = (u ++ ['\n']) :: feedLines t := by
  induction u with
  | nil => rfl
  | cons c u ih =>
    obtain ⟨hc, hu⟩ := not_or.1 (mt List.mem_cons.2 h)
    rw [List.cons_append, feedLines, if_neg (Ne.symm hc), ih hu]
    rfl

theorem feedLines_unfed (hne : u ≠ []) (h : '\n' ∉ u) : feedLines u = [u] := by
  induction u with
  | nil => exact absurd rfl hne
  | cons c u ih =>
    obtain ⟨hc, hu⟩ := not_or.1 (mt List.mem_cons.2 h)
    rw [feedLines, if_neg (Ne.symm hc)]
    cases u with
    | nil => rfl
    | cons d u =>
      rw [ih (List.cons_ne_nil d u) hu]
      rfl

/-- **Lines are cut as they are written down** if only the last one may lack its line feed. -/
theorem feedLines_flatten (hfed : ls.Pairwise fun l _ => IsFeedLine l)
    (hls : ∀ l ∈ ls, IsFeedLine l ∨ l ≠ [] ∧ '\n' ∉ l) : feedLines ls.flatten = ls := by
  induction ls with
  | nil => rfl
  | cons l ls ih =>
    obtain ⟨hbefore, hrest⟩ := List.pairwise_cons.1 hfed
    obtain ⟨hl, hall⟩ := List.forall_mem_cons.1 hls
    rw [List.flatten_cons]
    rcases hl with ⟨u, hu, rfl⟩ | ⟨hne, hl⟩
    · rw [List.append_assoc]
      exact (feedLines_row hu _).trans (congrArg _ (ih hrest hall))
    · cases ls with
      | nil =>
        rw [List.flatten_nil, List.append_nil]
        exact feedLines_unfed hne hl
      | cons k ls =>
        obtain ⟨u, -, rfl⟩ := hbefore k List.mem_cons_self
        exact absurd (List.mem_append_right u List.mem_cons_self) hl

/-- The lines of a text that ends in a line feed. -/
theorem isFeedLine_of_mem_feedLines (h : t = [] ∨ t.getLast? = some '\n') :
    ∀ l ∈ feedLines t, IsFeedLine l := by
  induction t with
  | nil => exact fun l hl => absurd hl List.not_mem_nil
  | cons c t ih =>
    have hlast : (c :: t).getLast? = some '\n' := h.resolve_left (List.cons_ne_nil c t)
    rw [feedLines]
    split
    · next hfeed =>
      have hrest : t = [] ∨ t.getLast? = some '\n' := by
        cases t with
        | nil => exact .inl rfl
        | cons d t => exact .inr (by rwa [List.getLast?_cons_cons] at hlast)
      exact List.forall_mem_cons.2 ⟨⟨[], List.not_mem_nil, congrArg ([·]) hfeed⟩, ih hrest⟩
    · next hfeed =>
      -- `c` comes before the first of the other lines, and there is one because a feed is to come
      cases t with
      | nil => exact absurd (Option.some.inj hlast) hfeed
      | cons d t =>
        have hrows := ih (.inr (by rwa [List.getLast?_cons_cons] at hlast))
        cases hlines : feedLines (d :: t) with
        | nil =>
          have hjoin := flatten_feedLines (d :: t)
          rw [hlines] at hjoin
          cases hjoin
        | cons l ls =>
          rw [hlines] at hrows
          obtain ⟨⟨u, hfeeds, rfl⟩, hls⟩ := List.forall_mem_cons.1 hrows
          refine List.forall_mem_cons.2 ⟨⟨c :: u, ?_, rfl⟩, hls⟩
          exact mt List.mem_cons.1 (not_or.2 ⟨Ne.symm hfeed, hfeeds⟩)

/-- The lines of a clean text that ends in a line feed are rows. -/
theorem isRow_of_mem_feedLines (h : IsClean t) (hlast : t = [] ∨ t.getLast? = some '\n') :
    ∀ l ∈ feedLines t, IsRow l := by
  intro l hl
  obtain ⟨u, hfeed, rfl⟩ := isFeedLine_of_mem_feedLines hlast l hl
  refine ⟨u, fun c hc => h c ?_, hfeed, rfl⟩
  rw [← flatten_feedLines t]
  exact List.mem_flatten.2 ⟨_, hl, List.mem_append_left _ hc⟩

end LiterateEdit.Text
