import LiterateEdit.Proofs.Markdown.Block

/-!
# Blocks end before barriers

How many lines a block takes may depend on lines far behind it. The start of the next block bounds
this: if a fence or a list item opens at a line (`Barrier`), a block that ends before that line ends
there whatever stands behind it (`Barrier.extent_eq`, `Barrier.read_eq`). There is one reservation.
Whether a table opens at a line depends on the line behind it, so that one is to stay the same
unless the barrier is a fence (`SameAhead`).

A barrier that is the last line of a document may lack its line feed, and is given one before other
lines are put behind it (`Line.fed`). Only the text of a definition or of a fence could show this,
and a barrier is not part of either.
-/

namespace LiterateEdit.Markdown

variable {c : Context} {l g : Line} {front rest rest' tail tail' : List Line} {n : Nat}

/-- A line with a line feed at its end. -/
def Line.fed (l : Line) : Line := { l with terminated := true }

/-- **A barrier**: a line at which a fence or a list item opens. -/
structure Barrier (c : Context) (g : Line) : Prop where
  not_code : g.isCode c = false
  indent : 0 ≤ g.indent
  mark : (FenceMark.ofText? g.body).isSome = true ∨ (ListMark.ofLine? false c g).isSome = true

/-- What a line sees of the lines behind it. -/
def ahead (rest : List Line) : Option Line := rest.head?.map Line.fed

/-- Lines behind a barrier that are the same as far as the barrier goes. -/
def SameAhead (g : Line) (tail tail' : List Line) : Prop :=
  ahead tail = ahead tail' ∨ (FenceMark.ofText? g.body).isSome = true

/-! ### Lines ahead -/

theorem ahead_append (front : List Line) (g : Line) (tail tail' : List Line) :
    ahead (front ++ g :: tail) = ahead (front ++ g.fed :: tail') := by
  cases front <;> rfl

theorem bind_tableColumns?_congr (c : Context) (l : Line) (h : ahead rest = ahead rest') :
    rest.head?.bind (tableColumns? c l) = rest'.head?.bind (tableColumns? c l) := by
  have hahead (ls : List Line) :
      ls.head?.bind (tableColumns? c l) = (ahead ls).bind (tableColumns? c l) := by
    cases ls <;> rfl
  rw [hahead, hahead, h]

/-- Of the lines behind it, only the next one matters to whether a line interrupts. -/
theorem interrupts_congr (o : Ongoing) (c : Context) (l : Line) (h : ahead rest = ahead rest') :
    interrupts o c l rest = interrupts o c l rest' := by
  cases rest with
  | nil =>
    cases rest' with
    | nil => rfl
    | cons next' behind' => cases h
  | cons next behind =>
    cases rest' with
    | nil => cases h
    | cons next' behind' =>
      have hnext : next.fed = next'.fed := Option.some.inj h
      have htable : tableColumns? c l next = tableColumns? c l next' := by
        change tableColumns? c l next.fed = tableColumns? c l next'.fed
        rw [hnext]
      unfold interrupts
      dsimp only
      rw [htable]

theorem isEmpty_head?_congr (h : ahead rest = ahead rest') :
    rest.head?.map Line.isEmpty = rest'.head?.map Line.isEmpty := by
  have hahead (ls : List Line) : ls.head?.map Line.isEmpty = (ahead ls).map Line.isEmpty := by
    cases ls <;> rfl
  rw [hahead, hahead, h]

/-! ### Barriers -/

namespace Barrier

variable (h : Barrier c g)

include h

theorem fed : Barrier c g.fed := ⟨h.not_code, h.indent, h.mark⟩

theorem not_empty : g.isEmpty = false := by
  cases hbody : g.body with
  | nil =>
    rcases h.mark with hmark | hmark
    · rw [hbody] at hmark
      cases hmark
    · obtain ⟨m, hm⟩ := Option.isSome_iff_exists.1 hmark
      have htext := (ListMark.of_ofLine? hm).1
      rw [hbody] at htext
      cases htext
  | cons d t => rw [Line.isEmpty, hbody]; rfl

theorem body_head : g.body.head? ≠ some '>' := by
  intro hhead
  obtain ⟨t, hbody⟩ : ∃ t, g.body = '>' :: t := by
    cases hbody : g.body with
    | nil => rw [hbody] at hhead; cases hhead
    | cons d t => rw [hbody] at hhead; cases hhead; exact ⟨t, rfl⟩
  rcases h.mark with hmark | hmark
  · obtain ⟨m, hm⟩ := Option.isSome_iff_exists.1 hmark
    obtain ⟨hmarker, -, hhead'⟩ := FenceMark.of_ofText? hm
    rw [hhead] at hhead'
    rcases hmarker with hmarker | hmarker <;> rw [hmarker] at hhead' <;> revert hhead' <;> decide
  · obtain ⟨m, hm⟩ := Option.isSome_iff_exists.1 hmark
    have htext := (ListMark.of_ofLine? hm).1
    rw [hbody] at htext
    cases htext

theorem interrupts_of_fence (o : Ongoing) (hfence : (FenceMark.ofText? g.body).isSome = true)
    (rest : List Line) : interrupts o c g rest = true := by
  unfold interrupts
  rw [FenceMark.ofLine?, h.not_code]
  change ((FenceMark.ofText? g.body).isSome || _ || _ || _ || _) = true
  rw [hfence]
  simp only [Bool.true_or]

/-- A barrier ends everything but a paragraph and a list. -/
theorem stops {o : Ongoing} (hp : o ≠ .paragraph) (hl : o ≠ .list) (rest : List Line) :
    interrupts o c g rest = true := by
  rcases h.mark with hmark | hmark
  · exact h.interrupts_of_fence o hmark rest
  · have hpara : (o == .paragraph) = false := by cases o <;> first | rfl | exact absurd rfl hp
    have hlist : (o != .list) = true := by cases o <;> first | rfl | exact absurd rfl hl
    unfold interrupts
    rw [hpara, hlist, hmark]
    simp only [Bool.true_or, Bool.or_true, Bool.true_and]

theorem interrupts_ahead (o : Ongoing) (hsame : SameAhead g tail tail') :
    interrupts o c g tail = interrupts o c g tail' := by
  rcases hsame with hahead | hfence
  · exact interrupts_congr o c g hahead
  · rw [h.interrupts_of_fence o hfence, h.interrupts_of_fence o hfence]

/-- A barrier is a barrier in the items of a list. -/
theorem item {base : Nat} (hbase : c.base ≤ base) :
    Barrier { c with base := base, listBase := some c.base } g := by
  have hnear : ¬ 4 ≤ g.indent - c.base := of_decide_eq_false h.not_code
  have hcode' : g.isCode { c with base := base, listBase := some c.base } = false := by
    apply decide_eq_false
    change ¬ 4 ≤ g.indent - (base : Int)
    omega
  refine ⟨hcode', h.indent, h.mark.imp_right fun hmark => ?_⟩
  obtain ⟨m, hm⟩ := Option.isSome_iff_exists.1 hmark
  rw [ListMark.ofLine?_eq hcode', (ListMark.of_ofLine? hm).1]
  · rfl
  · rintro b ⟨⟩
    exact .inl (by omega)

/-! ### Leaves -/

theorem codeExtent_eq (front tail tail' : List Line) :
    codeExtent c (front ++ g :: tail) = codeExtent c (front ++ g.fed :: tail') := by
  have hzero {g : Line} (h : Barrier c g) (tail : List Line) : codeExtent c (g :: tail) = 0 := by
    rw [codeExtent, h.not_empty, h.not_code]
    rfl
  induction front with
  | nil => rw [List.nil_append, List.nil_append, hzero h, hzero h.fed]
  | cons l front ih => rw [List.cons_append, List.cons_append, codeExtent, codeExtent, ih]

theorem tableExtent_eq (columns : Nat) (missing : Int) (front tail tail' : List Line) :
    tableExtent c (interrupts .quote c) columns missing (front ++ g :: tail) =
      tableExtent c (interrupts .quote c) columns missing (front ++ g.fed :: tail') := by
  have hzero {g : Line} (h : Barrier c g) (missing : Int) (tail : List Line) :
      tableExtent c (interrupts .quote c) columns missing (g :: tail) = 0 := by
    rw [tableExtent, h.stops (by decide) (by decide)]
    simp only [Bool.or_true, Bool.true_or, if_true]
  induction front generalizing missing with
  | nil => rw [List.nil_append, List.nil_append, hzero h, hzero h.fed]
  | cons l front ih =>
    rw [List.cons_append, List.cons_append, tableExtent, tableExtent, ih,
      interrupts_congr .quote c l (ahead_append front g tail tail')]

theorem continuation_eq (front tail tail' : List Line) :
    continuation c (interrupts .definition c) (front ++ g :: tail) =
      continuation c (interrupts .definition c) (front ++ g.fed :: tail') := by
  have hnil {g : Line} (h : Barrier c g) (tail : List Line) :
      continuation c (interrupts .definition c) (g :: tail) = [] := by
    rw [continuation, h.stops (by decide) (by decide), h.not_code, decide_eq_true h.indent]
    simp only [Bool.not_false, Bool.and_true, Bool.or_true, if_true]
  induction front with
  | nil => rw [List.nil_append, List.nil_append, hnil h, hnil h.fed]
  | cons l front ih =>
    rw [List.cons_append, List.cons_append, continuation, continuation, ih,
      interrupts_congr .definition c l (ahead_append front g tail tail')]

theorem quotedLines_eq (afterGap : Bool) (front tail tail' : List Line) :
    quotedLines c afterGap (front ++ g :: tail) =
      quotedLines c afterGap (front ++ g.fed :: tail') := by
  have hnil {g : Line} (h : Barrier c g) (afterGap : Bool) (tail : List Line) :
      quotedLines c afterGap (g :: tail) = [] := by
    rw [quotedLines, h.stops (by decide) (by decide), decide_eq_false h.body_head]
    simp only [Bool.false_and, Bool.or_true, if_true, ite_self, Bool.false_eq_true, if_false]
  induction front generalizing afterGap with
  | nil => rw [List.nil_append, List.nil_append, hnil h, hnil h.fed]
  | cons l front ih =>
    rw [List.cons_append, List.cons_append, quotedLines, quotedLines, ih false,
      interrupts_congr .quote c l (ahead_append front g tail tail')]
    dsimp only
    rw [ih]

/-- What ends a fence ends it whatever stands behind. -/
theorem fenceExtent_eq {m : FenceMark} {closed : Bool} (tail' : List Line)
    (hend : m.extent c (front ++ g :: tail) = (0, closed)) :
    m.extent c (front ++ g.fed :: tail') = (0, closed) := by
  have hstop {l : Line} {rest : List Line} (hl : m.extent c (l :: rest) = (0, closed))
      (rest' : List Line) : m.extent c (l :: rest') = (0, closed) := by
    rw [FenceMark.extent_cons] at hl ⊢
    split at hl
    · cases (Prod.mk.inj hl).1
    · next hholds => rwa [if_neg hholds]
  cases front with
  | cons l front => exact hstop hend _
  | nil =>
    have hfed : m.holds c g.fed = m.holds c g := by
      rw [FenceMark.holds, FenceMark.holds, h.not_empty, h.fed.not_empty]
      rfl
    rw [List.nil_append] at hend ⊢
    rw [FenceMark.extent_cons, hfed, ← hstop hend tail', FenceMark.extent_cons]
    rfl

theorem read_eq (m : FenceMark) (l : Line) (tail' : List Line)
    (hend : (m.read c l (front ++ g :: tail)).2 ≤ front.length) :
    m.read c l (front ++ g :: tail) = m.read c l (front ++ g.fed :: tail') := by
  obtain ⟨content, behind, hsplit, hholds, -, hbehind⟩ := m.exists_content c (front ++ g :: tail)
  rw [hsplit, FenceMark.read_append hholds hbehind] at hend
  have hlength : content.length ≤ front.length := by
    refine Nat.le_trans ?_ hend
    split <;> omega
  obtain ⟨front, rfl⟩ : content <+: front :=
    List.prefix_of_prefix_length_le ⟨behind, hsplit.symm⟩ (List.prefix_append _ _) hlength
  rw [List.append_assoc] at hsplit
  obtain rfl := List.append_cancel_left hsplit
  rw [List.append_assoc, List.append_assoc, FenceMark.read_append hholds hbehind,
    FenceMark.read_append hholds (h.fenceExtent_eq tail' hbehind)]

theorem htmlExtent_eq (k : HtmlKind) (tail' : List Line)
    (hend : k.extent c (front ++ g :: tail) ≤ front.length) :
    k.extent c (front ++ g :: tail) = k.extent c (front ++ g.fed :: tail') := by
  induction front with
  | nil =>
    -- the barrier ends the passage only by standing outside
    have hout : g.isOutdented c = true := by
      cases hout : g.isOutdented c with
      | true => rfl
      | false =>
        rw [List.nil_append, HtmlKind.extent, hout, h.not_empty] at hend
        revert hend
        cases k.endsWith g.body
        · exact fun hend => absurd hend (Nat.not_succ_le_zero _)
        · exact fun hend => absurd hend (Nat.not_succ_le_zero _)
    rw [List.nil_append, List.nil_append, HtmlKind.extent, HtmlKind.extent, hout,
      show g.fed.isOutdented c = true from hout]
    rfl
  | cons l front ih =>
    rw [List.cons_append, HtmlKind.extent] at hend ⊢
    rw [List.cons_append, HtmlKind.extent]
    split
    · rfl
    · next hout =>
      rw [if_neg hout] at hend
      split
      · rfl
      · next hmore =>
        rw [if_neg hmore] at hend
        rw [ih (Nat.le_of_succ_le_succ hend)]

omit h in
private theorem underlinedExtent?_eq_some (tail' : List Line)
    (hunder : underlinedExtent? c (front ++ g :: tail) = some n) (hend : n ≤ front.length) :
    underlinedExtent? c (front ++ g.fed :: tail') = some n := by
  induction front generalizing n with
  | nil =>
    -- the underline counts, so that no heading has the extent zero
    rw [List.nil_append, underlinedExtent?] at hunder
    rw [List.length_nil, Nat.le_zero] at hend
    subst hend
    split at hunder
    · cases hunder
    split at hunder
    · cases hunder
    split at hunder
    · cases hunder
    · obtain ⟨k, -, hk⟩ := Option.map_eq_some_iff.1 hunder
      cases hk
  | cons l front ih =>
    rw [List.cons_append, underlinedExtent?] at hunder ⊢
    rw [← interrupts_congr .paragraph c l (ahead_append front g tail tail')]
    split at hunder
    · cases hunder
    · next hempty =>
      rw [if_neg hempty]
      split at hunder
      · next hunderline => rwa [if_pos hunderline]
      · next hunderline =>
        rw [if_neg hunderline]
        split at hunder
        · cases hunder
        · next hgo =>
          obtain ⟨k, hk, rfl⟩ := Option.map_eq_some_iff.1 hunder
          rw [if_neg hgo, ih hk (Nat.le_of_succ_le_succ hend)]
          rfl

private theorem extents_of_interrupts (hstop : interrupts .paragraph c g tail = true) :
    paragraphExtent c (g :: tail) = 0 ∧
      underlinedExtent? c (g :: tail) =
        if !g.isOutdented c && isUnderline g then some 1 else none := by
  rw [paragraphExtent, underlinedExtent?, h.not_empty, h.not_code, decide_eq_true h.indent, hstop]
  exact ⟨rfl, rfl⟩

private theorem paragraphExtent_eq (hsame : SameAhead g tail tail')
    (hunder : underlinedExtent? c (front ++ g :: tail) = none)
    (hend : paragraphExtent c (front ++ g :: tail) ≤ front.length) :
    underlinedExtent? c (front ++ g.fed :: tail') = none ∧
      paragraphExtent c (front ++ g.fed :: tail') = paragraphExtent c (front ++ g :: tail) := by
  induction front with
  | nil =>
    rw [List.nil_append] at hunder hend ⊢
    -- the barrier interrupts the paragraph, which would go on with it otherwise
    have hstop : interrupts .paragraph c g tail = true := by
      cases hstop : interrupts .paragraph c g tail with
      | true => rfl
      | false =>
        rw [paragraphExtent, h.not_empty, hstop, Bool.and_false] at hend
        exact absurd hend (Nat.not_succ_le_zero _)
    obtain ⟨hextent, hunder'⟩ := h.extents_of_interrupts hstop
    rw [h.interrupts_ahead .paragraph hsame] at hstop
    obtain ⟨hextent', hunder''⟩ := h.fed.extents_of_interrupts hstop
    exact ⟨hunder''.trans (hunder'.symm.trans hunder), hextent'.trans hextent.symm⟩
  | cons l front ih =>
    rw [List.cons_append, underlinedExtent?] at hunder
    rw [List.cons_append, paragraphExtent] at hend ⊢
    rw [List.cons_append, underlinedExtent?, paragraphExtent,
      ← interrupts_congr .paragraph c l (ahead_append front g tail tail')]
    cases hempty : l.isEmpty with
    | true => exact ⟨rfl, rfl⟩
    | false =>
      rw [hempty, Bool.false_or] at hend
      rw [hempty, if_neg Bool.false_ne_true] at hunder
      rw [if_neg Bool.false_ne_true, Bool.false_or]
      split at hunder
      · cases hunder
      · next hunderline =>
        rw [if_neg hunderline]
        split at hunder
        · next hstop =>
          rw [if_pos hstop, if_pos hstop, if_pos hstop]
          exact ⟨rfl, rfl⟩
        · next hgo =>
          rw [if_neg hgo] at hend
          rw [if_neg hgo, if_neg hgo, if_neg hgo]
          obtain ⟨hnone, hextent⟩ :=
            ih (Option.map_eq_none_iff.1 hunder) (Nat.le_of_succ_le_succ hend)
          rw [hnone, hextent]
          exact ⟨rfl, rfl⟩

/-- A paragraph, or a heading up to its underline, that ends before a barrier. -/
theorem textExtent_eq (hsame : SameAhead g tail tail')
    (hend : textExtent c (front ++ g :: tail) ≤ front.length) :
    textExtent c (front ++ g :: tail) = textExtent c (front ++ g.fed :: tail') := by
  rw [textExtent] at hend ⊢
  rw [textExtent]
  cases hunder : underlinedExtent? c (front ++ g :: tail) with
  | some n =>
    rw [hunder] at hend
    rw [underlinedExtent?_eq_some tail' hunder hend]
    rfl
  | none =>
    rw [hunder] at hend
    obtain ⟨hnone, hextent⟩ := h.paragraphExtent_eq hsame hunder hend
    rw [hnone]
    exact hextent.symm

/-! ### Blocks -/

theorem kindOf_eq (l : Line) (front tail tail' : List Line) :
    kindOf c l (front ++ g :: tail) = kindOf c l (front ++ g.fed :: tail') := by
  unfold kindOf definitionExtent?
  rw [bind_tableColumns?_congr c l (ahead_append front g tail tail'), h.continuation_eq]

/-- A block without fences that ends before a barrier. -/
theorem extent_eq (k : Kind) (l : Line) (hsame : SameAhead g tail tail')
    (hend : k.extent c l (front ++ g :: tail) ≤ front.length) :
    k.extent c l (front ++ g :: tail) = k.extent c l (front ++ g.fed :: tail') := by
  cases k with
  | table n =>
    cases front with
    | nil =>
      change 1 + _ ≤ 0 at hend
      omega
    | cons delimiters front => exact congrArg (1 + ·) (h.tableExtent_eq n 0 front tail tail')
  | code => exact h.codeExtent_eq front tail tail'
  | html k =>
    change (if k.endsWith l.body then 0 else k.extent c (front ++ g :: tail)) ≤ _ at hend
    change (if k.endsWith l.body then 0 else k.extent c (front ++ g :: tail)) =
      (if k.endsWith l.body then 0 else k.extent c (front ++ g.fed :: tail'))
    split
    · rfl
    · next hmore =>
      rw [if_neg hmore] at hend
      exact h.htmlExtent_eq k tail' hend
  | text => exact h.textExtent_eq hsame hend
  | fence | quote | thematicBreak | list | definition | heading => rfl

end Barrier

end LiterateEdit.Markdown
