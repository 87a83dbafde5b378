import LiterateEdit.Proofs.Markdown.Barrier
import LiterateEdit.Proofs.Markdown.Origin

/-!
# Reading stops at barriers

A block that ends before a barrier ends there whatever stands behind it. `Local` says the same of a
reader: if it leaves everything from a barrier on, then it leaves as much if the lines behind the
barrier are exchanged. It holds of all readers (`local_fencesWithin`), by induction along the lines
and, for lists, along the nesting. A barrier is a barrier in each item of a list as well
(`Barrier.item`); the lines of a block quote do not reach beyond it at all.
-/

namespace LiterateEdit.Markdown

variable {c : Context} {l g : Line} {front tail tail' : List Line} {m : ListMark}
  {quote list inner : Reader}

/-- **A reader is local** if what it reads up to a barrier does not depend on the lines behind. -/
def Local (inner : Reader) : Prop :=
  ∀ c front g tail tail' fences left, Barrier c g → SameAhead g tail tail' →
    inner c (front ++ g :: tail) = ⟨fences, left ++ g :: tail⟩ →
    inner c (front ++ g.fed :: tail') = ⟨fences, left ++ g.fed :: tail'⟩

/-! ### What readers leave -/

/-- **A reader leaves** the last of its lines. -/
def LeavesLast (inner : Reader) : Prop := ∀ c ls, (inner c ls).left <:+ ls

theorem leavesLast_fencesOf (quote list : Reader) : LeavesLast (fencesOf quote list) := by
  intro c ls
  induction hn : ls.length using Nat.strongRecOn generalizing ls with
  | ind n ih =>
  cases ls with
  | nil => exact fencesOf_nil ▸ List.suffix_refl []
  | cons l rest =>
    cases hempty : l.isEmpty with
    | true =>
      rw [fencesOf_empty hempty]
      exact (ih _ (hn ▸ Nat.lt_succ_self _) rest rfl).trans (List.suffix_cons l rest)
    | false =>
    cases hout : l.isOutdented c with
    | true => exact fencesOf_outdented hempty hout rest ▸ List.suffix_refl _
    | false =>
      have hlength : (rest.drop (readBlock quote list c l rest).2).length < n := by
        rw [← hn, List.length_drop, List.length_cons]
        omega
      rw [fencesOf_cons hempty hout]
      exact ((ih _ hlength _ rfl).trans (List.drop_suffix _ rest)).trans (List.suffix_cons l rest)

theorem leavesLast_skipContainer : LeavesLast skipContainer := by
  intro c ls
  unfold skipContainer
  split
  · exact List.nil_suffix
  · next l rest heq =>
    split
    · exact heq ▸ List.dropWhile_suffix _
    · exact List.nil_suffix

theorem leavesLast_fencesWithin (room : Nat) : LeavesLast (fencesWithin room) := by
  induction room using fencesWithin.induct with
  | case1 => exact leavesLast_skipContainer
  | case2 => exact leavesLast_fencesOf _ _
  | case3 => exact leavesLast_fencesOf _ _

/-- A block takes its first line. -/
theorem length_left_block (quote list : Reader) (hne : l.isEmpty = false)
    (hout : l.isOutdented c = false) (rest : List Line) :
    (fencesOf quote list c (l :: rest)).left.length ≤ rest.length := by
  rw [fencesOf_cons hne hout]
  have hleft := (leavesLast_fencesOf quote list c
    (rest.drop (readBlock quote list c l rest).2)).length_le
  exact Nat.le_trans hleft (List.drop_suffix _ rest).length_le

/-- Where a local reader leaves off does not depend on the lines behind a barrier that it leaves. -/
theorem Local.exists_left (hlocal : Local inner) (hleaves : LeavesLast inner) (h : Barrier c g)
    (hsame : SameAhead g tail tail') (front : List Line)
    (hlength : tail.length < (inner c (front ++ g :: tail)).left.length) :
    ∃ fences left, inner c (front ++ g :: tail) = ⟨fences, left ++ g :: tail⟩ ∧
      inner c (front ++ g.fed :: tail') = ⟨fences, left ++ g.fed :: tail'⟩ := by
  obtain ⟨left, hleft⟩ : g :: tail <:+ (inner c (front ++ g :: tail)).left :=
    List.suffix_of_suffix_length_le (List.suffix_append _ _) (hleaves _ _) hlength
  have hread : inner c (front ++ g :: tail) =
      ⟨(inner c (front ++ g :: tail)).fences, left ++ g :: tail⟩ := by
    rw [hleft]
  exact ⟨_, left, hread, hlocal c front g tail tail' _ left h hsame hread⟩

/-! ### Lists -/

/-- The content of an item starts behind its marker. -/
theorem base_le_item (hinside : l.isOutdented c = false) (m : ListMark) :
    c.base ≤ (m.item l).2 := by
  have hindent : ¬ l.indent < c.base := of_decide_eq_false hinside
  refine Nat.le_trans ?_ (Nat.le_add_right _ _)
  omega

/-- An item that ends before a barrier ends there whatever stands behind. -/
theorem readItem_of_barrier (hlocal : Local inner) (hleaves : LeavesLast inner)
    (hinside : l.isOutdented c = false) (h : Barrier c g) (hsame : SameAhead g tail tail')
    (hend : itemExtent inner c m l (front ++ g :: tail) ≤ front.length) :
    (readItem inner c m l (front ++ g.fed :: tail')).fences =
        (readItem inner c m l (front ++ g :: tail)).fences ∧
      itemExtent inner c m l (front ++ g.fed :: tail') =
        itemExtent inner c m l (front ++ g :: tail) := by
  suffices hitem : ∃ fences left,
      readItem inner c m l (front ++ g :: tail) = ⟨fences, left ++ g :: tail⟩ ∧
        readItem inner c m l (front ++ g.fed :: tail') = ⟨fences, left ++ g.fed :: tail'⟩ by
    obtain ⟨fences, left, hitem, hitem'⟩ := hitem
    unfold itemExtent
    rw [hitem, hitem']
    refine ⟨rfl, ?_⟩
    simp only [List.length_append, List.length_cons]
    omega
  unfold itemExtent at hend
  unfold readItem at hend ⊢
  rw [← isEmpty_head?_congr (ahead_append front g tail tail')]
  split at hend
  · next hskip =>
    rw [if_pos hskip, if_pos hskip]
    cases front with
    | nil =>
      -- the line behind the marker would be a barrier, which is not empty
      have hempty : g.isEmpty = true := (Bool.and_eq_true _ _ ▸ hskip).2
      rw [h.not_empty] at hempty
      cases hempty
    | cons next front => exact ⟨[], front, rfl, rfl⟩
  · next hread =>
    rw [if_neg hread, if_neg hread]
    refine hlocal.exists_left hleaves (h.item (base_le_item hinside m)) hsame
      ((m.item l).1 :: front) ?_
    change _ < (inner _ ((m.item l).1 :: (front ++ g :: tail))).left.length
    rw [List.length_append, List.length_cons] at hend
    omega

/-- A list that ends before a barrier ends there whatever stands behind. -/
theorem readItems_of_barrier (hlocal : Local inner) (hleaves : LeavesLast inner)
    (hinside : l.isOutdented c = false) (h : Barrier c g) (hsame : SameAhead g tail tail')
    (hend : (readItems inner c m l (front ++ g :: tail)).2 ≤ front.length) :
    readItems inner c m l (front ++ g.fed :: tail')
      = readItems inner c m l (front ++ g :: tail) := by
  -- on the lines before the barrier, item by item: all items end before it, and whether another
  -- item follows is seen at its first line
  induction hn : front.length using Nat.strongRecOn generalizing m l front with
  | ind n ih =>
  rw [readItems_eq] at hend
  have hextent_le : itemExtent inner c m l (front ++ g :: tail) ≤ front.length :=
    Nat.le_trans (Nat.le_add_right _ _) hend
  obtain ⟨hfences, hextent⟩ := readItem_of_barrier hlocal hleaves hinside h hsame hextent_le
  rw [readItems_eq, readItems_eq, hextent, hfences, List.drop_append_of_le_length hextent_le,
    List.drop_append_of_le_length hextent_le]
  rw [List.drop_append_of_le_length hextent_le] at hend
  generalize itemExtent inner c m l (front ++ g :: tail) = taken at *
  suffices hmore : readMore inner c m (front.drop taken ++ g.fed :: tail') =
      readMore inner c m (front.drop taken ++ g :: tail) by
    rw [hmore]
  cases hdrop : front.drop taken with
  | nil =>
    have hlength := congrArg List.length hdrop
    rw [List.length_drop, List.length_nil] at hlength
    rw [hdrop, List.nil_append] at hend
    rw [List.nil_append, List.nil_append]
    cases hnext : nextMark? c m g tail with
    | none =>
      rw [readMore_none hnext, readMore_none ((nextMark?_congr c m g.fed _ tail).trans hnext)]
    | some m' =>
      -- the list would go on with the barrier
      rw [readMore_some hnext] at hend
      dsimp only at hend
      omega
  | cons next front' =>
    have hlength := congrArg List.length hdrop
    rw [List.length_drop, List.length_cons] at hlength
    rw [hdrop, List.cons_append] at hend
    rw [List.cons_append, List.cons_append]
    cases hnext : nextMark? c m next (front' ++ g :: tail) with
    | none => rw [readMore_none hnext, readMore_none ((nextMark?_congr c m next _ _).trans hnext)]
    | some m' =>
      rw [readMore_some hnext] at hend
      dsimp only at hend
      rw [readMore_some hnext, readMore_some ((nextMark?_congr c m next _ _).trans hnext),
        ih _ (by omega) (of_nextMark? hnext).2.1 (by omega) rfl]

/-! ### Containers -/

/-- **A block that ends before a barrier** ends there whatever stands behind. -/
theorem readBlock_of_barrier (hlocal : Local list) (hleaves : LeavesLast list)
    (hinside : l.isOutdented c = false) (h : Barrier c g) (hsame : SameAhead g tail tail')
    (hend : (readBlock quote list c l (front ++ g :: tail)).2 ≤ front.length) :
    readBlock quote list c l (front ++ g.fed :: tail') =
      readBlock quote list c l (front ++ g :: tail) := by
  rw [readBlock_eq] at hend
  rw [readBlock_eq, readBlock_eq, ← h.kindOf_eq l front tail tail']
  cases hkind : kindOf c l (front ++ g :: tail)
  all_goals rw [hkind] at hend
  case fence m =>
    dsimp only
    rw [h.read_eq m l tail' hend]
  case quote =>
    dsimp only [readQuote]
    rw [h.quotedLines_eq _ front tail tail']
  case list m => exact readItems_of_barrier hlocal hleaves hinside h hsame hend
  all_goals exact congrArg ([], ·) (h.extent_eq _ l hsame hend).symm

theorem local_fencesOf (hlocal : Local list) (hleaves : LeavesLast list) :
    Local (fencesOf quote list) := by
  intro c front g tail tail' fences left h hsame hread
  -- on the lines before the barrier, block by block; at the barrier the reader has to stop, as a
  -- block that starts there would take it
  induction hn : front.length using Nat.strongRecOn generalizing front fences with
  | ind n ih =>
  cases front with
  | nil =>
    rw [List.nil_append] at hread ⊢
    cases hout : g.isOutdented c with
    | true =>
      rw [fencesOf_outdented h.not_empty hout] at hread
      rw [fencesOf_outdented h.fed.not_empty hout]
      obtain ⟨rfl, hleft⟩ := (Reading.mk.injEq _ _ _ _ ▸ hread)
      rw [List.self_eq_append_left.1 hleft]
      rfl
    | false =>
      have hlength := length_left_block quote list h.not_empty hout tail
      rw [hread, List.length_append, List.length_cons] at hlength
      omega
  | cons l front =>
    rw [List.cons_append] at hread ⊢
    cases hempty : l.isEmpty with
    | true =>
      rw [fencesOf_empty hempty] at hread ⊢
      exact ih _ (hn ▸ Nat.lt_succ_self _) front fences hread rfl
    | false =>
    cases hout : l.isOutdented c with
    | true =>
      rw [fencesOf_outdented hempty hout] at hread ⊢
      obtain ⟨rfl, hleft⟩ := (Reading.mk.injEq _ _ _ _ ▸ hread)
      obtain rfl : l :: front = left := List.append_cancel_right hleft
      rfl
    | false =>
      rw [fencesOf_cons hempty hout] at hread
      obtain ⟨rfl, hleft⟩ := (Reading.mk.injEq _ _ _ _ ▸ hread)
      -- the rest of the lines is left from the barrier on, so the block ends before it
      have hend : (readBlock quote list c l (front ++ g :: tail)).2 ≤ front.length := by
        have hlength := (leavesLast_fencesOf quote list c
          ((front ++ g :: tail).drop (readBlock quote list c l (front ++ g :: tail)).2)).length_le
        rw [hleft] at hlength
        simp only [List.length_append, List.length_cons, List.length_drop] at hlength
        omega
      have hblock := readBlock_of_barrier hlocal hleaves hout h hsame hend
      rw [List.drop_append_of_le_length hend] at hleft ⊢
      have hlength : (front.drop (readBlock quote list c l (front ++ g :: tail)).2).length < n := by
        rw [← hn, List.length_drop, List.length_cons]
        omega
      have hrest := ih _ hlength _ _ (congrArg (Reading.mk _) hleft) rfl
      rw [fencesOf_cons hempty hout, hblock, List.drop_append_of_le_length hend, hrest]

theorem local_skipContainer : Local skipContainer := by
  intro c front g tail tail' fences left h hsame hread
  have hstop {l : Line} (hl : l.isEmpty = false) (rest : List Line) :
      skipContainer c (l :: rest) = if l.isOutdented c then ⟨[], l :: rest⟩ else ⟨[], []⟩ := by
    rw [skipContainer, List.dropWhile_cons, hl]
    rfl
  induction front with
  | nil =>
    -- at the barrier, the container ends or all the rest is skipped, which leaves nothing
    rw [List.nil_append, hstop h.not_empty] at hread
    rw [List.nil_append, hstop h.fed.not_empty]
    cases hout : g.isOutdented c with
    | true =>
      rw [hout] at hread
      obtain ⟨rfl, hleft⟩ := (Reading.mk.injEq _ _ _ _ ▸ hread)
      rw [show g.fed.isOutdented c = true from hout, List.self_eq_append_left.1 hleft]
      rfl
    | false =>
      rw [hout] at hread
      cases left <;> cases hread
  | cons l front ih =>
    rw [List.cons_append] at hread ⊢
    cases hempty : l.isEmpty with
    | true =>
      have hskip (rest : List Line) : skipContainer c (l :: rest) = skipContainer c rest := by
        rw [skipContainer, List.dropWhile_cons, hempty]
        rfl
      rw [hskip] at hread ⊢
      exact ih hread
    | false =>
    -- the same at the first line before it that is not empty
    rw [hstop hempty] at hread ⊢
    cases hout : l.isOutdented c with
    | true =>
      rw [hout] at hread
      obtain ⟨rfl, hleft⟩ := (Reading.mk.injEq _ _ _ _ ▸ hread)
      obtain rfl : l :: front = left := List.append_cancel_right hleft
      rfl
    | false =>
      rw [hout] at hread
      cases left <;> cases hread

/-- **All readers are local.** -/
theorem local_fencesWithin (room : Nat) : Local (fencesWithin room) := by
  induction room using fencesWithin.induct with
  | case1 => exact local_skipContainer
  | case2 => exact local_fencesOf local_skipContainer leavesLast_skipContainer
  | case3 room _ ih => exact local_fencesOf ih (leavesLast_fencesWithin room)

end LiterateEdit.Markdown
