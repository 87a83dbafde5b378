import LiterateEdit.Context.Resolve
import LiterateEdit.Proofs.Block.Target

/-!
# The context is a cut of the target

The blocks of a target are cut at the first one that has the identity of the block in question, and
the context is what is left on the two sides (`Partition.ofBlock?_value`). No block but that one is
lost, none is there twice, and none changes its place. The identity may be that of several blocks,
and the block in question need not be one of those that are cut.

A cut where no block has the identity would lay all blocks behind (`Partition.around`). This is seen
before, and there is no context then.
-/

namespace LiterateEdit

namespace Partition

variable {blocks before after : List Block} {current block : Block} {identity : Text}
  {p : Partition}

/-- The cut is at the first block with the identity. -/
theorem around_value (hblock : block.identity = identity)
    (hbefore : ∀ b ∈ before, b.identity ≠ identity) :
    (around (before ++ block :: after) identity).value = ⟨before, after⟩ := by
  have htake : (before ++ block :: after).takeWhile (fun b => b.identity ≠ identity) = before := by
    rw [List.takeWhile_append_of_pos fun b hb => decide_eq_true (hbefore b hb),
      List.takeWhile_cons_of_neg (by simp [hblock]), List.append_nil]
  have hdrop : (before ++ block :: after).dropWhile (fun b => b.identity ≠ identity)
      = block :: after := by
    rw [List.dropWhile_append_of_pos fun b hb => decide_eq_true (hbefore b hb),
      List.dropWhile_cons_of_neg (by simp [hblock])]
  unfold around
  rw [hdrop]
  simp only [htake]

theorem isEmpty_iff : (⟨before, after⟩ : Partition).isEmpty = true ↔ before = [] ∧ after = [] := by
  rw [isEmpty, Bool.and_eq_true, List.isEmpty_iff, List.isEmpty_iff]

/-- There is nothing on the two sides of a block exactly if it is alone. -/
theorem isEmpty_iff_alone (hblock : block.identity = identity) :
    (⟨before, after⟩ : Partition).isEmpty = true ↔
      ∃ b, before ++ block :: after = [b] ∧ b.identity = identity := by
  rw [isEmpty_iff]
  constructor
  · rintro ⟨rfl, rfl⟩
    exact ⟨block, rfl, hblock⟩
  · rintro ⟨b, hcons, -⟩
    rcases List.append_eq_singleton_iff.1 hcons with ⟨hb, hrest⟩ | ⟨-, hrest⟩
    · exact ⟨hb, (List.cons.inj hrest).2⟩
    · cases hrest

/-- **The context of a block** among the blocks of its target: none if it is alone. -/
theorem ofBlock?_value (hgroup : blocksFor blocks current.target = before ++ block :: after)
    (hblock : block.identity = current.identity)
    (hbefore : ∀ b ∈ before, b.identity ≠ current.identity) :
    (ofBlock? blocks current).value
      = if (⟨before, after⟩ : Partition).isEmpty then none else some ⟨before, after⟩ := by
  have hsome : (before ++ block :: after).isEmpty = false := by simp
  have hfound : (before ++ block :: after).all (fun b => b.identity ≠ current.identity)
      = false := by simp [hblock]
  unfold ofBlock?
  simp only [hgroup, hsome, hfound, Bool.false_eq_true, if_false]
  rw [Noted.andThen_value, around_value hblock hbefore]
  split <;> rfl

/-- There is no context if no block of the target has the identity. -/
theorem ofBlock?_value_of_not_found
    (h : ∀ b ∈ blocksFor blocks current.target, b.identity ≠ current.identity) :
    (ofBlock? blocks current).value = none := by
  have hnone : (blocksFor blocks current.target).all (fun b => b.identity ≠ current.identity)
      = true := List.all_eq_true.2 fun b hb => decide_eq_true (h b hb)
  unfold ofBlock?
  simp only [hnone, if_true]
  split <;> rfl

/-- **What looking for the context comes to.** No block of the target has the identity, or the
blocks are cut at the first one that has it. -/
theorem ofBlock?_cases (blocks : List Block) (current : Block) :
    ((ofBlock? blocks current).value = none ∧
        ∀ b ∈ blocksFor blocks current.target, b.identity ≠ current.identity) ∨
      ∃ before block after, blocksFor blocks current.target = before ++ block :: after ∧
        block.identity = current.identity ∧ (∀ b ∈ before, b.identity ≠ current.identity) ∧
        (ofBlock? blocks current).value
          = if (⟨before, after⟩ : Partition).isEmpty then none else some ⟨before, after⟩ := by
  cases hfind : (blocksFor blocks current.target).find? fun b => b.identity = current.identity with
  | none =>
    have hnot : ∀ b ∈ blocksFor blocks current.target, b.identity ≠ current.identity := by
      simpa using List.find?_eq_none.1 hfind
    exact .inl ⟨ofBlock?_value_of_not_found hnot, hnot⟩
  | some block =>
    obtain ⟨hmatch, before, after, hgroup, hskipped⟩ := List.find?_eq_some_iff_append.1 hfind
    have hblock : block.identity = current.identity := of_decide_eq_true hmatch
    have hbefore : ∀ b ∈ before, b.identity ≠ current.identity := by simpa using hskipped
    exact .inr ⟨before, block, after, hgroup, hblock, hbefore, ofBlock?_value hgroup hblock hbefore⟩

/-- A context that is used is not empty. -/
theorem isEmpty_of_ofBlock? (h : (ofBlock? blocks current).value = some p) : p.isEmpty = false := by
  rcases ofBlock?_cases blocks current with ⟨hnone, -⟩ | ⟨before, block, after, -, -, -, hvalue⟩
  · rw [hnone] at h
    cases h
  · rw [hvalue] at h
    split at h
    · cases h
    · next hne =>
      obtain rfl := Option.some.inj h
      exact Bool.eq_false_iff.2 hne

/-- **The context is an exact cut** of the blocks of the target, in whatever spellings they name it.
There is none exactly if the block names no target, no block of the target has its identity, or a
block that has it is the only one. Otherwise the first block with the identity stands between what
is before and what is behind. -/
theorem ofBlock?_cuts_group (blocks : List Block) (current : Block) :
    let group := blocksFor blocks current.target
    let context := (ofBlock? blocks current).value
    (context = none ↔
        current.target? = none ∨ (∀ b ∈ group, b.identity ≠ current.identity) ∨
          ∃ block, group = [block] ∧ block.identity = current.identity) ∧
      ∀ p, context = some p → ∃ block,
        group.find? (fun b => b.identity = current.identity) = some block ∧
          p.before ++ block :: p.after = group ∧
          ∀ b ∈ p.before, b.identity ≠ current.identity := by
  intro group context
  obtain ⟨hcontext, hnot⟩ | ⟨before, block, after, hgroup, hblock, hbefore, hcontext⟩ :=
    ofBlock?_cases blocks current
  · exact ⟨iff_of_true hcontext (.inr (.inl hnot)), fun p hp => nomatch hcontext.symm.trans hp⟩
  -- the group is cut at a block
  have hmem : block ∈ group := by
    show block ∈ blocksFor blocks current.target
    rw [hgroup]
    exact List.mem_append_right before List.mem_cons_self
  have hnamed : current.target? ≠ none := by
    intro hnone
    have hnil : group = [] := blocksFor_of_target?_eq_none blocks hnone
    rw [hnil] at hmem
    cases hmem
  have hfound : ¬∀ b ∈ group, b.identity ≠ current.identity := fun hnot => hnot block hmem hblock
  constructor
  · show (ofBlock? blocks current).value = none ↔ _
    rw [or_iff_right hnamed, or_iff_right hfound, hcontext, show group = _ from hgroup,
      ← isEmpty_iff_alone hblock]
    split
    · next hempty => exact iff_of_true rfl hempty
    · next hne => exact iff_of_false nofun hne
  · intro p hp
    change (ofBlock? blocks current).value = some p at hp
    rw [hcontext] at hp
    split at hp
    · cases hp
    · obtain rfl := Option.some.inj hp
      refine ⟨block, ?_, hgroup.symm, hbefore⟩
      refine List.find?_eq_some_iff_append.2 ⟨decide_eq_true hblock, before, after, hgroup, ?_⟩
      exact fun b hb => by simpa using hbefore b hb

/-- Two blocks of a target have one identity. The cut is at the first of them, and the other one is
behind it, also if it is the one in question. -/
example :
    let block (identity target text : String) : Block :=
      ⟨Text.lit identity, none, some (Text.lit target), [], Text.lit text, none, 0, 0⟩
    let last := block "2" "s/..//x" "d"
    (ofBlock? [block "1" "x" "a", block "2" "./x" "b", block "3" "y" "c", last] last).value
      = some ⟨[block "1" "x" "a"], [last]⟩ := by
  decide +kernel

end Partition

end LiterateEdit
