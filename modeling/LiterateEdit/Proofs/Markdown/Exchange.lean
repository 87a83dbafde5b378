import LiterateEdit.Proofs.Markdown.Local
import LiterateEdit.Proofs.Markdown.Renumber

/-!
# Exchanging the content of a fence

Suppose that a fence is read at a line `o`, and that other lines are put behind `o` in such a way
that a fence is read there again and the same lines are left behind it (`Exchange`). Then the rest
of the document is read as it was: the fences before and behind are the same, but for the places of
those behind (`follows_fencesWithin`).

What stands before `o` is read as before because a barrier stands at `o` or before it, namely the
line that opens the block in which the fence is found (`exists_barrier`): either `o` itself or the
first line of a list. In a list the same is said of the item that holds the fence. What stands
behind is read as before because it differs only in its numbers.
-/

namespace LiterateEdit.Markdown

variable {c : Context} {l g o : Line} {ls ls' P X X' rest rest' behind : List Line} {m : ListMark}
  {n : Nat} {f f' : Fence} {A B fs gs : List Fence} {quote list inner : Reader}

/-- **An exchange** of the lines `X` behind the opening line of a fence `f` for the lines `X'`, in
which the fence becomes `f'`. -/
structure Exchange (o : Line) (X X' : List Line) (f f' : Fence) : Prop where
  mark : (FenceMark.ofText? o.body).isSome = true
  indent : 0 ≤ o.indent
  first : f.first = o.number
  fresh : ∀ l ∈ X, l.number ≠ o.number
  read : ∀ c m, o.isOutdented c = false → FenceMark.ofLine? c o = some m → (m.read c o X).1 = f →
    X'.head?.bind (tableColumns? c o) = none ∧ (m.read c o.fed X').1 = f' ∧
    (X'.drop (m.read c o.fed X').2).map Line.unnumbered =
      (X.drop (m.read c o X).2).map Line.unnumbered

/-- Lines that stand before the opening line. -/
def Before (o : Line) (P : List Line) : Prop :=
  ∀ l ∈ P, l.number ≠ o.number ∧ l.terminated = true

theorem fed_of_before (h : Before o (l :: P)) : l.fed = l := by
  have hterminated := (h l List.mem_cons_self).2
  cases l
  cases hterminated
  rfl

/-- What is read after an exchange has `f'` in the place of `f`, and is the same otherwise but for
the numbers behind. Both readings leave no line before the exchanged ones. -/
def Exchanged (X X' : List Line) (f f' : Fence) (r r' : Reading) : Prop :=
  ∀ A B, r.fences = A ++ f :: B →
    ∃ B', r'.fences = A ++ f' :: B' ∧ B'.map Fence.unplaced = B.map Fence.unplaced ∧
      r'.left.map Line.unnumbered = r.left.map Line.unnumbered ∧
      r.left.length ≤ X.length ∧ r'.left.length ≤ X'.length

/-- **A reader follows an exchange** if it reads everything else as before. -/
def Follows (o : Line) (X X' : List Line) (f f' : Fence) (inner : Reader) : Prop :=
  ∀ c P, Before o P → Exchanged X X' f f' (inner c (P ++ o :: X)) (inner c (P ++ o.fed :: X'))

/-- What is known of all readers. -/
structure Regular (inner : Reader) : Prop where
  blind : Blind inner
  traced : Traced inner
  leaves : LeavesLast inner
  isLocal : Local inner

theorem regular_fencesWithin (room : Nat) : Regular (fencesWithin room) :=
  ⟨blind_fencesWithin room, origin_fencesWithin room, leavesLast_fencesWithin room,
    local_fencesWithin room⟩

theorem regular_skipContainer : Regular skipContainer := regular_fencesWithin 0

/-- Lines that are the same up to a barrier. -/
def MeetAt (c : Context) (ls ls' : List Line) : Prop :=
  ∃ front g tail tail', ls = front ++ g :: tail ∧ ls' = front ++ g.fed :: tail' ∧
    Barrier c g ∧ SameAhead g tail tail'

/-- A block that ends before lines that are the same up to a barrier. -/
theorem MeetAt.readBlock_eq (h : MeetAt c ls ls') (hlist : Regular list)
    (hinside : l.isOutdented c = false) (quote : Reader) (u : List Line)
    (hend : (readBlock quote list c l (u ++ ls)).2 ≤ u.length) :
    readBlock quote list c l (u ++ ls') = readBlock quote list c l (u ++ ls) := by
  obtain ⟨front, g, tail, tail', rfl, rfl, hbarrier, hsame⟩ := h
  rw [← List.append_assoc] at hend
  rw [← List.append_assoc, ← List.append_assoc]
  refine readBlock_of_barrier hlist.isLocal hlist.leaves hinside hbarrier hsame ?_
  rw [List.length_append]
  exact Nat.le_trans hend (Nat.le_add_right _ _)

theorem MeetAt.prepend (h : MeetAt c ls ls') (u : List Line) : MeetAt c (u ++ ls) (u ++ ls') := by
  obtain ⟨front, g, tail, tail', rfl, rfl, h⟩ := h
  refine ⟨u ++ front, g, tail, tail', ?_, ?_, h⟩
  · exact (List.append_assoc _ _ _).symm
  · exact (List.append_assoc _ _ _).symm

/-- Whether a line opens a list depends on no line but the next one. -/
theorem kindOf_list_congr (hkind : kindOf c l rest = .list m) (h : ahead rest = ahead rest') :
    kindOf c l rest' = .list m := by
  revert hkind
  unfold kindOf
  -- up to lists, nothing but the table depends on what stands behind the line
  rw [← bind_tableColumns?_congr c l h]
  cases rest.head?.bind (tableColumns? c l) with
  | some n => exact nofun
  | none =>
  cases l.isCode c with
  | true => exact nofun
  | false =>
  cases FenceMark.ofLine? c l with
  | some m => exact nofun
  | none =>
  cases isQuote c l with
  | true => exact nofun
  | false =>
  cases isBreak c l with
  | true => exact nofun
  | false =>
  cases ListMark.ofLine? false c l with
  | some m => exact id
  | none =>
  cases definitionExtent? c (interrupts .definition c) l rest with
  | some n => exact nofun
  | none =>
  cases HtmlKind.ofLine? c l with
  | some k => exact nofun
  | none => cases isHeading c l <;> exact nofun

/-! ### Reading in parts -/

/-- What is read in a first part and in what it leaves. -/
def Reading.andThen (r : Reading) (next : List Line → Reading) : Reading :=
  ⟨r.fences ++ (next r.left).fences, (next r.left).left⟩

/-- A fence in a row of fences is in its first or in its second part. -/
private theorem split_append (h : fs ++ gs = A ++ f :: B) :
    (∃ B₁, fs = A ++ f :: B₁ ∧ B = B₁ ++ gs) ∨ ∃ A₂, A = fs ++ A₂ ∧ gs = A₂ ++ f :: B := by
  rcases List.append_eq_append_iff.1 h with ⟨A₂, hA, hgs⟩ | ⟨u, hfs, hB⟩
  · exact .inr ⟨A₂, hA, hgs⟩
  · cases u with
    | nil => exact .inr ⟨[], by rw [hfs, List.append_nil, List.append_nil], hB.symm⟩
    | cons k B₁ =>
      obtain ⟨rfl, rfl⟩ := List.cons.inj hB
      exact .inl ⟨B₁, hfs, rfl⟩

theorem Exchanged.of_not_mem {r r' : Reading} (h : f ∉ r.fences) : Exchanged X X' f f' r r' := by
  intro A B hr
  rw [hr] at h
  exact absurd (List.mem_append_right A List.mem_cons_self) h

/-- Two parts are exchanged if the fence is found in the first part, and that one is, or it is found
in the second part, and that one is while the first part is read as before. -/
theorem Exchanged.andThen {r r' : Reading} {next : List Line → Reading}
    (hblind : ∀ ls, next (ls.map Line.unnumbered) = (next ls).unnumbered)
    (hleaves : ∀ ls, (next ls).left.length ≤ ls.length) (h : Exchanged X X' f f' r r')
    (hlater : f ∈ (next r.left).fences →
      r'.fences = r.fences ∧ Exchanged X X' f f' (next r.left) (next r'.left)) :
    Exchanged X X' f f' (r.andThen next) (r'.andThen next) := by
  intro A B hr
  rcases split_append hr with ⟨B₁, hfirst, rfl⟩ | ⟨A₂, rfl, hsecond⟩
  · obtain ⟨B', hr', hB, hleft, hlength, hlength'⟩ := h A B₁ hfirst
    have hnext : (next r'.left).unnumbered = (next r.left).unnumbered := by
      rw [← hblind, hleft, hblind]
    obtain ⟨hfences, hrest⟩ := (Reading.mk.injEq _ _ _ _ ▸ hnext)
    refine ⟨B' ++ (next r'.left).fences, ?_, ?_, hrest, Nat.le_trans (hleaves _) hlength,
      Nat.le_trans (hleaves _) hlength'⟩
    · change r'.fences ++ _ = _
      rw [hr', List.append_assoc, List.cons_append]
    · rw [List.map_append, List.map_append, hB, hfences]
  · have hmem : f ∈ (next r.left).fences := hsecond ▸ List.mem_append_right A₂ List.mem_cons_self
    obtain ⟨hfences, hexchanged⟩ := hlater hmem
    obtain ⟨B', hr', h⟩ := hexchanged A₂ B hsecond
    refine ⟨B', ?_, h⟩
    change r'.fences ++ _ = _
    rw [hfences, hr', List.append_assoc]

/-- What is read of an item of a list. -/
def itemReading (inner : Reader) (c : Context) (m : ListMark) (l : Line) (rest : List Line) :
    Reading :=
  ⟨(readItem inner c m l rest).fences, rest.drop (itemExtent inner c m l rest)⟩

/-- What is read of the later items of a list. -/
def moreReading (inner : Reader) (c : Context) (m : ListMark) (ls : List Line) : Reading :=
  ⟨(readMore inner c m ls).1, ls.drop (readMore inner c m ls).2⟩

/-- What is read of a list. -/
def listReading (inner : Reader) (c : Context) (m : ListMark) (l : Line) (rest : List Line) :
    Reading :=
  ⟨(readItems inner c m l rest).1, rest.drop (readItems inner c m l rest).2⟩

/-- What is read of a block. -/
def blockReading (quote list : Reader) (c : Context) (l : Line) (rest : List Line) : Reading :=
  ⟨(readBlock quote list c l rest).1, rest.drop (readBlock quote list c l rest).2⟩

/-- An item leaves what is left in it, if that begins behind its first line. -/
theorem drop_itemExtent (hleaves : LeavesLast inner)
    (hlength : (readItem inner c m l rest).left.length ≤ rest.length) :
    rest.drop (itemExtent inner c m l rest) = (readItem inner c m l rest).left := by
  refine (List.suffix_iff_eq_drop.1 ?_).symm
  unfold readItem at hlength ⊢
  split
  · exact List.drop_suffix 1 rest
  · next hread =>
    rw [if_neg hread] at hlength
    exact List.suffix_of_suffix_length_le (hleaves _ _) (List.suffix_cons _ _) hlength

theorem moreReading_some {m' : ListMark} {next : Line} (h : nextMark? c m next behind = some m') :
    moreReading inner c m (next :: behind) = listReading inner c m' next behind := by
  rw [moreReading, readMore_some h]
  rfl

theorem listReading_eq (inner : Reader) (c : Context) (m : ListMark) (l : Line) (rest : List Line) :
    listReading inner c m l rest =
      (itemReading inner c m l rest).andThen (moreReading inner c m) := by
  rw [listReading, readItems_eq]
  change Reading.mk _ _ = Reading.mk _ ((rest.drop _).drop _)
  rw [List.drop_drop]
  rfl

theorem fencesOf_eq_andThen (hne : l.isEmpty = false) (hout : l.isOutdented c = false)
    (rest : List Line) :
    fencesOf quote list c (l :: rest) =
      (blockReading quote list c l rest).andThen (fencesOf quote list c) :=
  fencesOf_cons hne hout rest

theorem moreReading_unnumbered (h : Blind inner) (c : Context) (m : ListMark) (ls : List Line) :
    moreReading inner c m (ls.map Line.unnumbered) = (moreReading inner c m ls).unnumbered := by
  rw [moreReading, readMore_unnumbered h, ← List.map_drop]
  rfl

namespace Exchange

variable (e : Exchange o X X' f f')

include e

/-! ### Where the fence is read -/

theorem not_opensContainer : ¬ o.OpensContainer := by
  obtain ⟨m, hm⟩ := Option.isSome_iff_exists.1 e.mark
  obtain ⟨hmarker, -, hhead⟩ := FenceMark.of_ofText? hm
  refine Markdown.not_opensContainer ?_
  rw [hhead]
  exact hmarker.imp (congrArg some) (congrArg some)

theorem not_empty : o.isEmpty = false := by
  cases hbody : o.body with
  | nil =>
    have hmark := e.mark
    rw [hbody] at hmark
    cases hmark
  | cons d t => rw [Line.isEmpty, hbody]; rfl

/-- The line with the number of the fence is its opening line. -/
theorem eq_of_mem (hP : Before o P) (hl : l ∈ P ++ o :: X) (hfirst : f.first = l.number) :
    l = o := by
  have hnumber : l.number = o.number := Int.ofNat.inj (hfirst.symm.trans e.first)
  rcases List.mem_append.1 hl with hl | hl
  · exact absurd hnumber (hP l hl).1
  rcases List.mem_cons.1 hl with rfl | hl
  · rfl
  · exact absurd hnumber (e.fresh l hl)

/-- As long as the fence is still to come, so is its opening line. -/
theorem le_of_origin (hP : Before o P) (h : Origin ((P ++ o :: X).drop n) f) : n ≤ P.length := by
  obtain ⟨l, hl, hfirst⟩ := h.exists_line
  obtain rfl := e.eq_of_mem hP (List.mem_of_mem_drop hl) hfirst
  refine Nat.le_of_not_lt fun hlt => ?_
  obtain ⟨k, rfl⟩ : ∃ k, n = P.length + (k + 1) := ⟨n - P.length - 1, by omega⟩
  rw [← List.drop_drop, List.drop_left, List.drop_succ_cons] at hl
  exact e.fresh l (List.mem_of_mem_drop hl) rfl

/-- A block before the opening line in which the fence is found is a list. -/
theorem kindOf_before (hquote : Traced quote) (hP : Before o (l :: P))
    (hf : f ∈ (readBlock quote list c l (P ++ o :: X)).1) :
    ∃ m, kindOf c l (P ++ o :: X) = .list m := by
  rw [readBlock_eq] at hf
  have hopens := kindOf_opens c l (P ++ o :: X)
  cases hkind : kindOf c l (P ++ o :: X)
  all_goals rw [hkind] at hf hopens
  case fence m =>
    have hfirst : f.first = l.number := by rw [List.mem_singleton.1 hf]; rfl
    have hlo := e.eq_of_mem hP List.mem_cons_self hfirst
    exact absurd (congrArg Line.number hlo) (hP l List.mem_cons_self).1
  case quote =>
    obtain ⟨k, hk, hcontainer, hfirst, -⟩ := origin_quote hquote hopens hf
    obtain rfl := e.eq_of_mem hP hk hfirst
    exact absurd hcontainer e.not_opensContainer
  case list m => exact ⟨m, rfl⟩
  all_goals exact absurd hf List.not_mem_nil

/-- The block that starts at the opening line is the fence. -/
theorem kindOf_opening (hf : f ∈ (readBlock quote list c o X).1) :
    ∃ m, FenceMark.ofLine? c o = some m ∧ kindOf c o X = .fence m ∧ f = (m.read c o X).1 := by
  rw [readBlock_eq] at hf
  have hopens := kindOf_opens c o X
  cases hkind : kindOf c o X
  all_goals rw [hkind] at hf hopens
  case fence m => exact ⟨m, hopens, rfl, List.mem_singleton.1 hf⟩
  case quote =>
    simp only [Kind.Opens, isQuote, Bool.and_eq_true, decide_eq_true_eq] at hopens
    exact absurd (.inl hopens.2) e.not_opensContainer
  case list m =>
    have hmark := (ListMark.of_ofLine? hopens).1
    exact absurd (.inr (by rw [hmark]; rfl)) e.not_opensContainer
  all_goals exact absurd hf List.not_mem_nil

/-- The fence is found in the block that starts at the opening line, if it is found at all. -/
theorem mem_block (hquote : Traced quote) (hlist : Traced list) (hout : o.isOutdented c = false)
    (hf : f ∈ (fencesOf quote list c (o :: X)).fences) : f ∈ (readBlock quote list c o X).1 := by
  rw [fencesOf_cons e.not_empty hout] at hf
  rcases List.mem_append.1 hf with hf | hf
  · exact hf
  · obtain ⟨l, hl, hfirst⟩ := (traced_fencesOf hquote hlist c _ f hf).exists_line
    refine absurd ?_ (e.fresh l (List.mem_of_mem_drop hl))
    exact Int.ofNat.inj (hfirst.symm.trans e.first)

/-- **A barrier stands at the opening line or before it**: the line that opens the block in which
the fence is found. -/
theorem exists_barrier (hquote : Traced quote) (hlist : Traced list) (hP : Before o P)
    (hf : f ∈ (fencesOf quote list c (P ++ o :: X)).fences) :
    MeetAt c (P ++ o :: X) (P ++ o.fed :: X') := by
  -- on the lines before the opening line: empty ones and whole blocks are passed over until the
  -- block is reached in which the fence is found, and its first line is the barrier
  induction hn : P.length using Nat.strongRecOn generalizing P with
  | ind n ih =>
  cases P with
  | nil =>
    rw [List.nil_append] at hf
    cases hout : o.isOutdented c with
    | true =>
      rw [fencesOf_outdented e.not_empty hout] at hf
      exact absurd hf List.not_mem_nil
    | false =>
      obtain ⟨m, hm, -, -⟩ := e.kindOf_opening (e.mem_block hquote hlist hout hf)
      exact ⟨[], o, X, X', rfl, rfl, ⟨isCode_of_fence hm, e.indent, .inl e.mark⟩, .inr e.mark⟩
  | cons l P =>
    have hbefore : Before o P := fun k hk => hP k (List.mem_cons_of_mem l hk)
    rw [List.cons_append] at hf
    cases hempty : l.isEmpty with
    | true =>
      rw [fencesOf_empty hempty] at hf
      exact (ih _ (hn ▸ Nat.lt_succ_self _) hbefore hf rfl).prepend [l]
    | false =>
    cases hout : l.isOutdented c with
    | true =>
      rw [fencesOf_outdented hempty hout] at hf
      exact absurd hf List.not_mem_nil
    | false =>
      rw [fencesOf_cons hempty hout] at hf
      generalize hblock : (readBlock quote list c l (P ++ o :: X)).2 = taken at hf
      rcases List.mem_append.1 hf with hf | hf
      -- the fence is in this block, which is a list, so that an item opens at its first line
      · obtain ⟨m, hkind⟩ := e.kindOf_before hquote hP hf
        have hmark : ListMark.ofLine? false c l = some m := by
          have hopens := kindOf_opens c l (P ++ o :: X)
          rwa [hkind] at hopens
        have hindent : ¬ l.indent < c.base := of_decide_eq_false hout
        have hfed : l.fed = l := fed_of_before hP
        refine ⟨[], l, P ++ o :: X, P ++ o.fed :: X', rfl, ?_, ⟨?_, ?_, .inr ?_⟩, .inl ?_⟩
        · rw [hfed]
          rfl
        · exact (ListMark.of_ofLine? hmark).2
        · omega
        · rw [hmark]
          rfl
        · exact ahead_append P o X X'
      -- the fence is behind this block, which then ends before the opening line
      · have htaken := e.le_of_origin hbefore (traced_fencesOf hquote hlist c _ f hf)
        rw [List.drop_append_of_le_length htaken] at hf
        have hlength : (P.drop taken).length < n := by
          rw [← hn, List.length_drop, List.length_cons]
          omega
        have hmeet :=
          (ih _ hlength (fun k hk => hbefore k (List.mem_of_mem_drop hk)) hf rfl).prepend
            (l :: P.take taken)
        rwa [← List.append_assoc, ← List.append_assoc, List.cons_append,
          List.take_append_drop] at hmeet

/-! ### Lists -/

omit e in
/-- The item in which the fence is found. -/
private theorem exchanged_item (hinner : Regular inner) (hfollows : Follows o X X' f f' inner)
    (hP : Before o (l :: P)) :
    Exchanged X X' f f' (itemReading inner c m l (P ++ o :: X))
      (itemReading inner c m l (P ++ o.fed :: X')) := by
  intro A B hr
  have hempty := isEmpty_head?_congr (ahead_append P o X X')
  by_cases hskip :
      ((m.item l).1.isEmpty && ((P ++ o :: X).head?.map Line.isEmpty).getD false) = true
  -- an empty item has no fences
  · rw [itemReading, readItem, if_pos hskip] at hr
    cases A <;> cases hr
  · have hitem : readItem inner c m l (P ++ o :: X) =
        inner { c with base := (m.item l).2, listBase := some c.base }
          ((m.item l).1 :: P ++ o :: X) := if_neg hskip
    have hitem' : readItem inner c m l (P ++ o.fed :: X') =
        inner { c with base := (m.item l).2, listBase := some c.base }
          ((m.item l).1 :: P ++ o.fed :: X') := if_neg (hempty ▸ hskip)
    have hbefore : Before o ((m.item l).1 :: P) := by
      intro k hk
      rcases List.mem_cons.1 hk with rfl | hk
      · exact hP l List.mem_cons_self
      · exact hP k (List.mem_cons_of_mem l hk)
    have hexchanged := hfollows { c with base := (m.item l).2, listBase := some c.base } _ hbefore
    rw [← hitem, ← hitem'] at hexchanged
    obtain ⟨B', hr', hB, hleft, hlength, hlength'⟩ := hexchanged A B hr
    have hshort : (readItem inner c m l (P ++ o :: X)).left.length ≤ (P ++ o :: X).length := by
      rw [List.length_append, List.length_cons]
      omega
    have hshort' : (readItem inner c m l (P ++ o.fed :: X')).left.length ≤
        (P ++ o.fed :: X').length := by
      rw [List.length_append, List.length_cons]
      omega
    rw [itemReading, itemReading, drop_itemExtent hinner.leaves hshort,
      drop_itemExtent hinner.leaves hshort']
    exact ⟨B', hr', hB, hleft, hlength, hlength'⟩

/-- **A list follows an exchange.** -/
theorem exchanged_list (hinner : Regular inner) (hfollows : Follows o X X' f f' inner)
    (hinside : l.isOutdented c = false) (hP : Before o (l :: P)) :
    Exchanged X X' f f' (listReading inner c m l (P ++ o :: X))
      (listReading inner c m l (P ++ o.fed :: X')) := by
  -- item by item: either the fence is in this one, or this one ends before the next item, which is
  -- a barrier, and is read as before
  induction hn : P.length using Nat.strongRecOn generalizing P l m with
  | ind n ih =>
  rw [listReading_eq, listReading_eq]
  have hleaves (ls : List Line) : (moreReading inner c m ls).left.length ≤ ls.length :=
    (List.drop_suffix _ ls).length_le
  refine .andThen (moreReading_unnumbered hinner.blind c m) hleaves
    (exchanged_item hinner hfollows hP) fun hf => ?_
  have hbefore : Before o P := fun k hk => hP k (List.mem_cons_of_mem l hk)
  change f ∈
    (readMore inner c m ((P ++ o :: X).drop (itemExtent inner c m l (P ++ o :: X)))).1 at hf
  obtain hnone | ⟨next, behind, m', hdrop, hnext, hmore⟩ := readMore_cases inner c m
    ((P ++ o :: X).drop (itemExtent inner c m l (P ++ o :: X)))
  · rw [hnone] at hf
    exact absurd hf List.not_mem_nil
  obtain ⟨hmark, hinside', hcode, -⟩ := of_nextMark? hnext
  rw [hmore] at hf
  have htaken : itemExtent inner c m l (P ++ o :: X) ≤ P.length :=
    e.le_of_origin hbefore (hdrop ▸ origin_items hinner.traced hmark hf)
  rw [List.drop_append_of_le_length htaken] at hdrop
  cases hrest : P.drop (itemExtent inner c m l (P ++ o :: X)) with
  | nil =>
    -- the opening line opens no item
    rw [hrest] at hdrop
    obtain ⟨rfl, -⟩ := List.cons.inj hdrop
    exact absurd (.inr (by rw [hmark]; rfl)) e.not_opensContainer
  | cons k P₂ =>
    rw [hrest, List.cons_append] at hdrop
    obtain ⟨rfl, rfl⟩ := List.cons.inj hdrop
    generalize htake : itemExtent inner c m l (P ++ o :: X) = taken at *
    obtain ⟨P₁, rfl, rfl⟩ : ∃ P₁, P₁.length = taken ∧ P = P₁ ++ k :: P₂ :=
      ⟨P.take taken, List.length_take_of_le htaken, by rw [← hrest, List.take_append_drop]⟩
    have hk : Before o (k :: P₂) := fun k' hk' => hbefore k' (List.mem_append_right P₁ hk')
    have hbarrier : Barrier c k := by
      have hindent : ¬ k.indent < c.base := of_decide_eq_false hinside'
      refine ⟨hcode, by omega, .inr ?_⟩
      rw [ListMark.ofLine?_eq hcode fun _ _ => .inr hinside', hmark]
      rfl
    have hfed : k.fed = k := fed_of_before hk
    have hsame : SameAhead k (P₂ ++ o :: X) (P₂ ++ o.fed :: X') := .inl (ahead_append P₂ o X X')
    rw [List.append_assoc, List.cons_append] at htake ⊢
    obtain ⟨hfences, hextent⟩ := readItem_of_barrier hinner.isLocal hinner.leaves hinside hbarrier
      hsame (Nat.le_of_eq htake)
    rw [hfed, htake] at hextent
    rw [hfed] at hfences
    have hnext' := (nextMark?_congr c m k (P₂ ++ o.fed :: X') (P₂ ++ o :: X)).trans hnext
    rw [List.append_assoc, List.cons_append, itemReading, itemReading, hextent, htake, hfences]
    refine ⟨rfl, ?_⟩
    dsimp only
    rw [List.drop_left, List.drop_left, moreReading_some hnext, moreReading_some hnext']
    refine ih _ ?_ hinside' hk rfl
    rw [← hn, List.length_append, List.length_cons]
    omega

/-! ### Containers -/

/-- The block at the opening line. -/
private theorem exchanged_opening (hout : o.isOutdented c = false) :
    Exchanged X X' f f' (blockReading quote list c o X) (blockReading quote list c o.fed X') := by
  intro A B hr
  obtain ⟨m, hm, hkind, hf⟩ := e.kindOf_opening (hr ▸ List.mem_append_right A List.mem_cons_self)
  obtain ⟨htable, hf', hleft⟩ := e.read c m hout hm hf.symm
  have hblock : blockReading quote list c o X = ⟨[f], X.drop (m.read c o X).2⟩ := by
    rw [blockReading, readBlock_eq, hkind, hf]
  have hblock' : blockReading quote list c o.fed X' = ⟨[f'], X'.drop (m.read c o.fed X').2⟩ := by
    have hread : readBlock quote list c o.fed X' =
        ([(m.read c o.fed X').1], (m.read c o.fed X').2) := readBlock_fence htable hm
    rw [blockReading, hread, hf']
  rw [hblock] at hr ⊢
  rw [hblock']
  obtain ⟨rfl, rfl⟩ : A = [] ∧ B = [] := by
    cases A with
    | nil => exact ⟨rfl, (List.cons.inj hr).2.symm⟩
    | cons a A => cases A <;> cases (List.cons.inj hr).2
  exact ⟨[], rfl, rfl, hleft, (List.drop_suffix _ X).length_le, (List.drop_suffix _ X').length_le⟩

/-- A block before the opening line. -/
private theorem exchanged_block (hquote : Regular quote) (hlist : Regular list)
    (hfollows : Follows o X X' f f' list) (hout : l.isOutdented c = false)
    (hP : Before o (l :: P)) :
    Exchanged X X' f f' (blockReading quote list c l (P ++ o :: X))
      (blockReading quote list c l (P ++ o.fed :: X')) := by
  by_cases hf : f ∈ (readBlock quote list c l (P ++ o :: X)).1
  · obtain ⟨m, hkind⟩ := e.kindOf_before hquote.traced hP hf
    have hkind' := kindOf_list_congr hkind (ahead_append P o X X')
    rw [blockReading, blockReading, readBlock_eq, readBlock_eq, hkind, hkind']
    exact e.exchanged_list hlist hfollows hout hP
  · exact .of_not_mem hf

theorem follows_fencesOf (hquote : Regular quote) (hlist : Regular list)
    (hfollows : Follows o X X' f f' list) : Follows o X X' f f' (fencesOf quote list) := by
  intro c P hP
  -- block by block, as for a list; a reader that stops finds no fence
  have hblind := blind_fencesOf hquote.blind hlist.blind c
  have hleaves (ls : List Line) := (leavesLast_fencesOf quote list c ls).length_le
  have houtdented {l : Line} {r : Reading} (hempty : l.isEmpty = false)
      (hout : l.isOutdented c = true) (rest : List Line) :
      Exchanged X X' f f' (fencesOf quote list c (l :: rest)) r := by
    refine .of_not_mem ?_
    rw [fencesOf_outdented hempty hout]
    exact List.not_mem_nil
  induction hn : P.length using Nat.strongRecOn generalizing P with
  | ind n ih =>
  cases P with
  | nil =>
    rw [List.nil_append, List.nil_append]
    cases hout : o.isOutdented c with
    | true => exact houtdented e.not_empty hout X
    | false =>
      rw [fencesOf_eq_andThen e.not_empty hout,
        fencesOf_eq_andThen (show o.fed.isEmpty = false from e.not_empty) hout]
      refine .andThen hblind hleaves (e.exchanged_opening hout) fun hf => ?_
      -- no fence behind the opening line has its number
      obtain ⟨l, hl, hfirst⟩ := (traced_fencesOf hquote.traced hlist.traced c _ f hf).exists_line
      refine absurd ?_ (e.fresh l (List.mem_of_mem_drop hl))
      exact Int.ofNat.inj (hfirst.symm.trans e.first)
  | cons l P =>
    have hbefore : Before o P := fun k hk => hP k (List.mem_cons_of_mem l hk)
    rw [List.cons_append, List.cons_append]
    cases hempty : l.isEmpty with
    | true =>
      rw [fencesOf_empty hempty, fencesOf_empty hempty]
      exact ih _ (hn ▸ Nat.lt_succ_self _) P hbefore rfl
    | false =>
    cases hout : l.isOutdented c with
    | true => exact houtdented hempty hout _
    | false =>
      rw [fencesOf_eq_andThen hempty hout, fencesOf_eq_andThen hempty hout]
      refine .andThen hblind hleaves (e.exchanged_block hquote hlist hfollows hout hP) fun hf => ?_
      have htraced := traced_fencesOf hquote.traced hlist.traced
      change f ∈ (fencesOf quote list c
        ((P ++ o :: X).drop (readBlock quote list c l (P ++ o :: X)).2)).fences at hf
      have htaken := e.le_of_origin hbefore (htraced c _ f hf)
      have hlater : Before o (P.drop (readBlock quote list c l (P ++ o :: X)).2) :=
        fun k hk => hbefore k (List.mem_of_mem_drop hk)
      rw [List.drop_append_of_le_length htaken] at hf
      have hmeet := e.exists_barrier hquote.traced hlist.traced hlater hf
      have hblock : readBlock quote list c l (P ++ o.fed :: X') =
          readBlock quote list c l (P ++ o :: X) := by
        have hblock := hmeet.readBlock_eq hlist hout quote
          (P.take (readBlock quote list c l (P ++ o :: X)).2)
        rw [← List.append_assoc, ← List.append_assoc, List.take_append_drop,
          List.length_take_of_le htaken] at hblock
        exact hblock (Nat.le_refl _)
      have hlength : (P.drop (readBlock quote list c l (P ++ o :: X)).2).length < n := by
        rw [← hn, List.length_drop, List.length_cons]
        omega
      rw [blockReading, blockReading, hblock]
      refine ⟨rfl, ?_⟩
      dsimp only
      rw [List.drop_append_of_le_length htaken, List.drop_append_of_le_length htaken]
      exact ih _ hlength _ hlater rfl

omit e in
theorem follows_skipContainer : Follows o X X' f f' skipContainer := by
  intro c P hP
  refine .of_not_mem ?_
  rw [fences_skipContainer]
  exact List.not_mem_nil

/-- **All readers follow an exchange.** -/
theorem follows_fencesWithin (room : Nat) : Follows o X X' f f' (fencesWithin room) := by
  induction room using fencesWithin.induct with
  | case1 => exact follows_skipContainer
  | case2 =>
    exact e.follows_fencesOf regular_skipContainer regular_skipContainer follows_skipContainer
  | case3 room _ ih =>
    exact e.follows_fencesOf (regular_fencesWithin _) (regular_fencesWithin _) ih

end Exchange

end LiterateEdit.Markdown
