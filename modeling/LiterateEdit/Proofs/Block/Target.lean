import LiterateEdit.Block.Target

/-!
# The blocks of a target

A block is one of the blocks of a target if the target it names has the same normal form. An empty
spelling names none, neither of the block nor of the target.
-/

namespace LiterateEdit

variable {blocks : List Block} {block b : Block} {t u : Text}

/-- A block that names a target spells it, and does not spell it empty. -/
theorem Block.target_of_target? (h : b.target? = some t) : b.target = some t ∧ t ≠ [] := by
  unfold target? at h
  split at h
  · cases h
  · next hne =>
    refine ⟨h, ?_⟩
    rintro rfl
    exact hne h

/-- There are no blocks of the target of a block that names none. -/
theorem blocksFor_of_target?_eq_none (blocks : List Block) (h : b.target? = none) :
    blocksFor blocks b.target = [] := by
  unfold Block.target? at h
  split at h
  · next hnil => rw [hnil, blocksFor]
  · rw [h, blocksFor]

theorem blocksFor_some (ht : t ≠ []) :
    blocksFor blocks (some t) = blocks.filter (Block.isPartOf (Target.normal t)) := by
  cases t with
  | nil => exact absurd rfl ht
  | cons c rest => rfl

theorem mem_blocksFor_some (hu : u ≠ []) :
    b ∈ blocksFor blocks (some u) ↔
      b ∈ blocks ∧ ∃ t, b.target? = some t ∧ Target.normal t = Target.normal u := by
  rw [blocksFor_some hu, List.mem_filter, Block.isPartOf]
  cases b.target? with
  | none => simp
  | some t => simp

/-- A block with a target is one of the blocks of its target. -/
theorem mem_blocksFor (hmem : block ∈ blocks) (htarget : block.target? = some t) :
    block ∈ blocksFor blocks block.target := by
  obtain ⟨hspelled, hne⟩ := Block.target_of_target? htarget
  rw [hspelled]
  exact (mem_blocksFor_some hne).2 ⟨hmem, t, htarget, rfl⟩

theorem blocksFor_sublist (blocks : List Block) (target : Option Text) :
    (blocksFor blocks target).Sublist blocks := by
  unfold blocksFor
  split
  · exact List.nil_sublist blocks
  · exact List.nil_sublist blocks
  · exact List.filter_sublist

end LiterateEdit
