import LiterateEdit.Proofs.Markdown.Block

/-!
# What is read does not depend on the numbers of the lines

The number of a line is only carried along. To take the numbers off first and to take them off what
was read is the same (`blind_fencesWithin`), so lines that are alike but for their numbers are read
alike: the same info strings and texts, and the same lines left.

No function that decides anything looks at a number, so each of them has its lemma here, and most of
them hold by unfolding.
-/

namespace LiterateEdit

/-- A fence without its place: only how many lines it takes is kept. -/
def Fence.unplaced (f : Fence) : Fence := { f with first := 0, stop := f.stop - f.first }

namespace Markdown

/-- A line without its number. -/
def Line.unnumbered (l : Line) : Line := { l with number := 0 }

/-- What is read, without places and numbers. -/
def Reading.unnumbered (r : Reading) : Reading :=
  ⟨r.fences.map Fence.unplaced, r.left.map Line.unnumbered⟩

/-- **A reader is blind for numbers** if they may be taken off before reading as well as after. -/
def Blind (inner : Reader) : Prop :=
  ∀ c ls, inner c (ls.map Line.unnumbered) = (inner c ls).unnumbered

variable {c : Context} {l : Line} {ls ls' rest : List Line} {quote list inner : Reader}

/-! ### Leaves -/

theorem interrupts_unnumbered (o : Ongoing) (c : Context) (l : Line) (rest : List Line) :
    interrupts o c l.unnumbered (rest.map Line.unnumbered) = interrupts o c l rest := by
  cases rest <;> rfl

theorem FenceMark.extent_unnumbered (m : FenceMark) (c : Context) (ls : List Line) :
    m.extent c (ls.map Line.unnumbered) = m.extent c ls := by
  induction ls with
  | nil => rfl
  | cons l ls ih =>
    rw [List.map_cons, extent_cons, extent_cons, ih]
    rfl

theorem codeExtent_unnumbered (c : Context) (ls : List Line) :
    codeExtent c (ls.map Line.unnumbered) = codeExtent c ls := by
  induction ls with
  | nil => rfl
  | cons l ls ih =>
    rw [List.map_cons, codeExtent, codeExtent, ih]
    rfl

theorem HtmlKind.extent_unnumbered (k : HtmlKind) (c : Context) (ls : List Line) :
    k.extent c (ls.map Line.unnumbered) = k.extent c ls := by
  induction ls with
  | nil => rfl
  | cons l ls ih =>
    rw [List.map_cons, extent, extent, ih]
    rfl

theorem paragraphExtent_unnumbered (c : Context) (ls : List Line) :
    paragraphExtent c (ls.map Line.unnumbered) = paragraphExtent c ls := by
  induction ls with
  | nil => rfl
  | cons l ls ih =>
    rw [List.map_cons, paragraphExtent, paragraphExtent, ih, interrupts_unnumbered]
    rfl

theorem underlinedExtent?_unnumbered (c : Context) (ls : List Line) :
    underlinedExtent? c (ls.map Line.unnumbered) = underlinedExtent? c ls := by
  induction ls with
  | nil => rfl
  | cons l ls ih =>
    rw [List.map_cons, underlinedExtent?, underlinedExtent?, ih, interrupts_unnumbered]
    rfl

theorem tableExtent_unnumbered (c : Context) (n : Nat) (missing : Int) (ls : List Line) :
    tableExtent c (interrupts .quote c) n missing (ls.map Line.unnumbered) =
      tableExtent c (interrupts .quote c) n missing ls := by
  induction ls generalizing missing with
  | nil => rfl
  | cons l ls ih =>
    rw [List.map_cons, tableExtent, tableExtent, ih, interrupts_unnumbered]
    rfl

theorem continuation_unnumbered (o : Ongoing) (c : Context) (ls : List Line) :
    continuation c (interrupts o c) (ls.map Line.unnumbered) =
      continuation c (interrupts o c) ls := by
  induction ls with
  | nil => rfl
  | cons l ls ih =>
    rw [List.map_cons, continuation, continuation, ih, interrupts_unnumbered]
    rfl

theorem definitionExtent?_unnumbered (o : Ongoing) (c : Context) (l : Line) (rest : List Line) :
    definitionExtent? c (interrupts o c) l.unnumbered (rest.map Line.unnumbered) =
      definitionExtent? c (interrupts o c) l rest := by
  unfold definitionExtent?
  rw [continuation_unnumbered]
  rfl

theorem kindOf_unnumbered (c : Context) (l : Line) (rest : List Line) :
    kindOf c l.unnumbered (rest.map Line.unnumbered) = kindOf c l rest := by
  have htable : (rest.map Line.unnumbered).head?.bind (tableColumns? c l.unnumbered) =
      rest.head?.bind (tableColumns? c l) := by
    cases rest <;> rfl
  unfold kindOf
  rw [htable, definitionExtent?_unnumbered]
  rfl

theorem Kind.extent_unnumbered (k : Kind) (c : Context) (l : Line) (rest : List Line) :
    k.extent c l.unnumbered (rest.map Line.unnumbered) = k.extent c l rest := by
  cases k with
  | table n =>
    change 1 + tableExtent c _ n 0 ((rest.map Line.unnumbered).drop 1) = _
    rw [← List.map_drop, tableExtent_unnumbered]
    rfl
  | code => exact codeExtent_unnumbered c rest
  | html k =>
    change (if _ then 0 else k.extent c (rest.map Line.unnumbered)) = _
    rw [HtmlKind.extent_unnumbered]
    rfl
  | text =>
    change textExtent c (rest.map Line.unnumbered) = textExtent c rest
    rw [textExtent, textExtent, paragraphExtent_unnumbered, underlinedExtent?_unnumbered]
  | fence | quote | thematicBreak | list | definition | heading => rfl

/-! ### Fences -/

theorem FenceMark.read_unnumbered (m : FenceMark) (c : Context) (l : Line) (rest : List Line) :
    m.read c l.unnumbered (rest.map Line.unnumbered) =
      ((m.read c l rest).1.unplaced, (m.read c l rest).2) := by
  have hcontent (n : Nat) :
      ((rest.map Line.unnumbered).take n).map (Line.outdented l.indent.toNat) =
      (rest.take n).map (Line.outdented l.indent.toNat) := by
    rw [← List.map_take, List.map_map]
    rfl
  have hstop (k : Nat) : ((0 : Nat) : Int) + 1 + k = (l.number : Int) + 1 + k - l.number := by omega
  unfold FenceMark.read
  rw [extent_unnumbered]
  cases m.extent c rest with
  | mk n closed =>
    refine congrArg (·, _) ?_
    change Fence.mk _ _ _ _ = Fence.mk _ _ _ _
    rw [Fence.mk.injEq]
    exact ⟨rfl, congrArg List.flatten (hcontent n), rfl, hstop _⟩

/-! ### Block quotes and lists -/

theorem quotedLines_unnumbered (c : Context) (afterGap : Bool) (ls : List Line) :
    quotedLines c afterGap (ls.map Line.unnumbered) =
      (quotedLines c afterGap ls).map Line.unnumbered := by
  induction ls generalizing afterGap with
  | nil => rfl
  | cons l ls ih =>
    rw [List.map_cons, quotedLines, quotedLines, interrupts_unnumbered, apply_ite (List.map _),
      apply_ite (List.map _), apply_ite (List.map _), List.map_cons, List.map_cons, ← ih, ← ih]
    rfl

theorem readQuote_unnumbered (h : Blind inner) (c : Context) (l : Line) (rest : List Line) :
    readQuote inner c l.unnumbered (rest.map Line.unnumbered) =
      ((readQuote inner c l rest).1.map Fence.unplaced, (readQuote inner c l rest).2) := by
  have hlines : l.unnumbered.unquoted ::
      quotedLines c l.unnumbered.unquoted.isEmpty (rest.map Line.unnumbered) =
        (l.unquoted :: quotedLines c l.unquoted.isEmpty rest).map Line.unnumbered := by
    rw [List.map_cons, ← quotedLines_unnumbered]
    rfl
  unfold readQuote
  dsimp only
  rw [hlines, h]
  change (_, _) = (_, _)
  rw [List.length_map]
  unfold Reading.unnumbered
  rw [List.length_map]

theorem readItem_unnumbered (h : Blind inner) (c : Context) (m : ListMark) (l : Line)
    (rest : List Line) :
    readItem inner c m l.unnumbered (rest.map Line.unnumbered) =
      (readItem inner c m l rest).unnumbered := by
  have hempty :
      (rest.map Line.unnumbered).head?.map Line.isEmpty = rest.head?.map Line.isEmpty := by
    cases rest <;> rfl
  have hskipped : Reading.unnumbered ⟨[], rest.drop 1⟩ =
      ⟨[], (rest.map Line.unnumbered).drop 1⟩ := by
    rw [← List.map_drop]
    rfl
  unfold readItem
  rw [hempty, apply_ite Reading.unnumbered, ← h, hskipped]
  rfl

theorem itemExtent_unnumbered (h : Blind inner) (c : Context) (m : ListMark) (l : Line)
    (rest : List Line) :
    itemExtent inner c m l.unnumbered (rest.map Line.unnumbered) = itemExtent inner c m l rest := by
  unfold itemExtent
  rw [readItem_unnumbered h, List.length_map]
  exact congrArg (rest.length - ·) (List.length_map _)

theorem nextMark?_unnumbered (c : Context) (m : ListMark) (next : Line) (behind : List Line) :
    nextMark? c m next.unnumbered (behind.map Line.unnumbered) = nextMark? c m next behind := by
  unfold nextMark?
  rw [interrupts_unnumbered]
  rfl

theorem readMore_unnumbered (h : Blind inner) (c : Context) (m : ListMark) (ls : List Line) :
    readMore inner c m (ls.map Line.unnumbered) =
      ((readMore inner c m ls).1.map Fence.unplaced, (readMore inner c m ls).2) := by
  induction hn : ls.length using Nat.strongRecOn generalizing m ls with
  | ind n ih =>
  cases ls with
  | nil => rfl
  | cons next behind =>
    have hlength (k : Nat) : (behind.drop k).length < n := by
      rw [← hn, List.length_drop, List.length_cons]
      omega
    rw [List.map_cons]
    cases hnext : nextMark? c m next behind with
    | none =>
      rw [readMore_none hnext, readMore_none ((nextMark?_unnumbered c m next behind).trans hnext)]
      rfl
    | some m' =>
      rw [readMore_some hnext, readMore_some ((nextMark?_unnumbered c m next behind).trans hnext),
        readItems_eq, readItems_eq, itemExtent_unnumbered h, readItem_unnumbered h, ← List.map_drop,
        ih _ (hlength _) m' _ rfl, List.map_append]
      rfl

theorem readItems_unnumbered (h : Blind inner) (c : Context) (m : ListMark) (l : Line)
    (rest : List Line) :
    readItems inner c m l.unnumbered (rest.map Line.unnumbered) =
      ((readItems inner c m l rest).1.map Fence.unplaced, (readItems inner c m l rest).2) := by
  rw [readItems_eq, readItems_eq, itemExtent_unnumbered h, readItem_unnumbered h, ← List.map_drop,
    readMore_unnumbered h, List.map_append]
  rfl

/-! ### Containers -/

theorem readBlock_unnumbered (hquote : Blind quote) (hlist : Blind list) (c : Context) (l : Line)
    (rest : List Line) :
    readBlock quote list c l.unnumbered (rest.map Line.unnumbered) =
      ((readBlock quote list c l rest).1.map Fence.unplaced,
        (readBlock quote list c l rest).2) := by
  rw [readBlock_eq, readBlock_eq, kindOf_unnumbered]
  cases kindOf c l rest with
  | fence m =>
    dsimp only
    rw [FenceMark.read_unnumbered]
    rfl
  | quote => exact readQuote_unnumbered hquote c l rest
  | list m => exact readItems_unnumbered hlist c m l rest
  | _ => exact congrArg ([], ·) (Kind.extent_unnumbered _ c l rest)

theorem blind_fencesOf (hquote : Blind quote) (hlist : Blind list) :
    Blind (fencesOf quote list) := by
  intro c ls
  induction hn : ls.length using Nat.strongRecOn generalizing ls with
  | ind n ih =>
  cases ls with
  | nil =>
    rw [List.map_nil, fencesOf]
    rfl
  | cons l rest =>
    rw [List.map_cons]
    cases hempty : l.isEmpty with
    | true =>
      rw [fencesOf_empty hempty, fencesOf_empty (show l.unnumbered.isEmpty = true from hempty)]
      exact ih _ (hn ▸ Nat.lt_succ_self _) rest rfl
    | false =>
    cases hout : l.isOutdented c with
    | true =>
      rw [fencesOf_outdented hempty hout,
        fencesOf_outdented (show l.unnumbered.isEmpty = false from hempty) hout]
      rfl
    | false =>
      have hlength : (rest.drop (readBlock quote list c l rest).2).length < n := by
        rw [← hn, List.length_drop, List.length_cons]
        omega
      rw [fencesOf_cons hempty hout,
        fencesOf_block (show l.unnumbered.isEmpty = false from hempty) hout
          (readBlock_unnumbered hquote hlist c l rest), ← List.map_drop, ih _ hlength _ rfl]
      unfold Reading.unnumbered
      rw [List.map_append]

theorem blind_skipContainer : Blind skipContainer := by
  intro c ls
  have hdrop : (ls.map Line.unnumbered).dropWhile Line.isEmpty =
      (ls.dropWhile Line.isEmpty).map Line.unnumbered := by
    rw [List.dropWhile_map]
    rfl
  unfold skipContainer
  rw [hdrop]
  cases ls.dropWhile Line.isEmpty with
  | nil => rfl
  | cons l rest =>
    rw [List.map_cons]
    dsimp only
    rw [apply_ite Reading.unnumbered]
    rfl

/-- **Numbers do not matter to what is read.** -/
theorem blind_fencesWithin (room : Nat) : Blind (fencesWithin room) := by
  induction room using fencesWithin.induct with
  | case1 => exact blind_skipContainer
  | case2 => exact blind_fencesOf blind_skipContainer blind_skipContainer
  | case3 room ih ih' => exact blind_fencesOf ih ih'

end Markdown

end LiterateEdit
