import LiterateEdit.Proofs.Context.Resolve
import LiterateEdit.Proofs.Context.Row
import LiterateEdit.Session.Basic
import LiterateEdit.Tangle.Write

/-!
# An open session shows the target file

Tangling joins the texts of a target with line feeds; splicing puts the texts of the other blocks
around one of them, each with a line feed of its own on the side of the edited block. Both make the
same text (`tangleText_around`), because a line feed between two texts is one behind the first and
one before the second.

The blocks around the edited one are found by cutting the blocks of its target where its identity
stands. If identities are distinct, the cut is at the block itself (`Partition.ofBlock?_value`), and
there is no context exactly if the block is alone.
-/

namespace LiterateEdit

/-! ### The text of a target -/

theorem tangleText_cons (b b' : Block) (rest : List Block) :
    tangleText (b :: b' :: rest) = b.text ++ '\n' :: tangleText (b' :: rest) := by
  rw [tangleText, List.map_cons, List.map_cons, Text.join_cons_cons, List.append_assoc]
  rfl

/-- The text of a block and those behind it: each of these starts with a line feed. -/
theorem tangleText_behind (block : Block) (after : List Block) :
    tangleText (block :: after) = block.text ++ (after.map Block.segmentAfter).flatten := by
  induction after generalizing block with
  | nil =>
    rw [List.map_nil, List.flatten_nil, List.append_nil]
    rfl
  | cons b rest ih =>
    rw [tangleText_cons, ih, List.map_cons, List.flatten_cons, Block.segmentAfter, List.cons_append]

/-- **The text of a target**, seen from one of its blocks, is what splicing lays around it. -/
theorem tangleText_around (before after : List Block) (block : Block) :
    tangleText (before ++ block :: after)
      = (before.map Block.segmentBefore).flatten ++ block.text ++
        (after.map Block.segmentAfter).flatten := by
  induction before with
  | nil => exact tangleText_behind block after
  | cons b rest ih =>
    -- something follows `b` in any case, so that a line feed does
    have hcons : tangleText (b :: rest ++ block :: after)
        = b.text ++ '\n' :: tangleText (rest ++ block :: after) := by
      cases rest with
      | nil => exact tangleText_cons b block after
      | cons b' rest => exact tangleText_cons b b' (rest ++ block :: after)
    rw [hcons, ih, List.map_cons, List.flatten_cons, Block.segmentBefore]
    simp only [List.append_assoc, List.cons_append, List.nil_append]

/-! ### Entering a session -/

namespace Session

/-- A session that was never entered. -/
def closed (block : Block) (blocks : List Block) (settings : Settings) (docDir : Path) : Session :=
  { block, blocks, settings, docDir }

/-- The session with a buffer and an engine. -/
def opened (s : Session) (b : Buffer) (e : Engine) : Session :=
  { s with buffer := some b, engine := e }

variable {block : Block} {blocks : List Block}

/-- Without context the buffer holds the text of the block. -/
theorem enter_alone (settings : Settings) (docDir : Path) (ws : Workspace)
    (hp : (Partition.ofBlock? blocks block).value = none) :
    ∃ notices, (closed block blocks settings docDir).enter ws false
      = ⟨.ok (), (closed block blocks settings docDir).opened (.ofText block.text) .unspliced, ws,
          notices⟩ := by
  unfold enter
  simp only [closed, hp, Engine.splice, Bool.false_and, Bool.false_eq_true, if_false]
  exact ⟨_, rfl⟩

/-- With context the buffer holds the text of the block embedded in it. -/
theorem enter_embedded (settings : Settings) (docDir : Path) (ws : Workspace) {p : Partition}
    (hp : (Partition.ofBlock? blocks block).value = some p) (hne : p.isEmpty = false) :
    ∃ notices, (closed block blocks settings docDir).enter ws false
      = ⟨.ok (), (closed block blocks settings docDir).opened
          (p.embed settings.narrow (.ofText block.text)) (.spliced 0 1), ws, notices⟩ := by
  obtain ⟨notices, hsplice⟩ := Engine.splice_ofText hne block.text settings.narrow
  unfold enter
  simp only [closed, hp, hsplice, Bool.and_false, Bool.false_eq_true, if_false]
  exact ⟨_, rfl⟩

/-- **What an open session shows** in its buffer `b`: the text of the target, and in it the text of
the block as what is editable. It is spliced unless the block is alone; then the spans are context
and tile what is before the region and what is behind it, one for each other block of the target, in
their order. -/
structure ShowsTarget (s : Session) (b : Buffer) : Prop where
  text : b.text = tangleText (blocksFor s.blocks s.block.target)
  editable : s.editableText = s.block.text
  spliced : s.isSpliced = true ↔ blocksFor s.blocks s.block.target ≠ [s.block]
  context : s.isSpliced = true → ∃ before after lo hi cb ca,
    blocksFor s.blocks s.block.target = before ++ s.block :: after ∧
      s.engine.region? b = some (lo, hi) ∧ b.spans = cb ++ ca ∧
      Tiles b.text 0 cb (before.map Block.segmentBefore) lo ∧
      Tiles b.text hi ca (after.map Block.segmentAfter) b.size

/-- A block that is alone is shown as it is. -/
theorem showsTarget_alone {s : Session} (hgroup : blocksFor s.blocks s.block.target = [s.block]) :
    (s.opened (.ofText s.block.text) .unspliced).ShowsTarget (.ofText s.block.text) where
  text := by
    change s.block.text = tangleText (blocksFor s.blocks s.block.target)
    rw [hgroup]
    rfl
  editable := rfl
  spliced := by
    constructor
    · intro h
      cases h
    · intro h
      exact absurd hgroup h
  context h := by cases h

/-- A block that is embedded in its context is shown in it. -/
theorem showsTarget_embedded {s : Session} {p : Partition}
    (hgroup : blocksFor s.blocks s.block.target = p.before ++ s.block :: p.after)
    (hne : p.isEmpty = false) (narrow : Bool) :
    (s.opened (p.embed narrow (.ofText s.block.text)) (.spliced 0 1)).ShowsTarget
      (p.embed narrow (.ofText s.block.text)) := by
  have hregion : (Engine.spliced 0 1).region? (p.embed narrow (.ofText s.block.text))
      = some ((p.textBefore.length : Int),
          p.textBefore.length + (Buffer.ofText s.block.text).size) :=
    p.embed_region? narrow _
  constructor
  case text =>
    change p.textBefore ++ s.block.text ++ p.textAfter
      = tangleText (blocksFor s.blocks s.block.target)
    rw [hgroup, tangleText_around]
    rfl
  case editable =>
    change (Engine.spliced 0 1).editable (p.embed narrow (.ofText s.block.text)) = s.block.text
    rw [Engine.editable_eq hregion]
    exact (p.embed_slices narrow (.ofText s.block.text)).2.1
  case spliced =>
    refine ⟨fun _ halone => ?_, fun _ => rfl⟩
    change blocksFor s.blocks s.block.target = [s.block] at halone
    -- then there would be nothing before the block and nothing behind it
    have hempty : p.isEmpty = true :=
      (Partition.isEmpty_iff_alone rfl).2 ⟨s.block, hgroup.symm.trans halone, rfl⟩
    rw [hempty] at hne
    cases hne
  case context =>
    intro _
    obtain ⟨htiles, htiles'⟩ := p.embed_tiles narrow (.ofText s.block.text)
    exact ⟨p.before, p.after, _, _, _, _, hgroup, hregion, rfl, htiles, htiles'⟩

/-- **An open session shows the target file.** If the blocks of the document have distinct
identities and the block is one of them and has a target, then entering succeeds, narrowed or not,
and the buffer holds what tangling writes for that target. -/
theorem enter_shows_target (hids : (blocks.map Block.identity).Nodup) (hmem : block ∈ blocks)
    {target : Text} (htarget : block.target? = some target) (settings : Settings) (docDir : Path)
    (ws : Workspace) :
    ∃ b e notices, (closed block blocks settings docDir).enter ws false
        = ⟨.ok (), (closed block blocks settings docDir).opened b e, ws, notices⟩ ∧
      ((closed block blocks settings docDir).opened b e).ShowsTarget b := by
  obtain ⟨before, after, hgroup⟩ := List.append_of_mem (mem_blocksFor hmem htarget)
  -- no other block of the target has the identity, so that the cut is at the block
  have hdistinct : ((before ++ block :: after).map Block.identity).Nodup := by
    rw [← hgroup]
    exact hids.sublist ((blocksFor_sublist blocks block.target).map _)
  have hbefore : ∀ b ∈ before, b.identity ≠ block.identity := by
    intro b hb heq
    rw [List.map_append, List.nodup_append] at hdistinct
    exact hdistinct.2.2 _ (List.mem_map_of_mem hb) _ (List.mem_map_of_mem List.mem_cons_self) heq
  have hvalue := Partition.ofBlock?_value hgroup rfl hbefore
  cases hempty : (⟨before, after⟩ : Partition).isEmpty with
  | true =>
    rw [hempty, if_pos rfl] at hvalue
    obtain ⟨rfl, rfl⟩ := Partition.isEmpty_iff.1 hempty
    obtain ⟨notices, henter⟩ := enter_alone settings docDir ws hvalue
    exact ⟨_, _, notices, henter,
      showsTarget_alone (s := closed block blocks settings docDir) hgroup⟩
  | false =>
    rw [hempty, if_neg Bool.false_ne_true] at hvalue
    obtain ⟨notices, henter⟩ := enter_embedded settings docDir ws hvalue hempty
    exact ⟨_, _, notices, henter, showsTarget_embedded (s := closed block blocks settings docDir)
      (p := ⟨before, after⟩) hgroup hempty settings.narrow⟩

/-- Two of three blocks have the same target in two spellings, and the empty one is edited. -/
theorem enter_shows_target_spellings :
    let first : Block := { Block.bare (Text.lit "1") (Text.lit "a=0\n") with
      target := some (Text.lit "src/x.py") }
    let other : Block := { Block.bare (Text.lit "2") (Text.lit "b=0\n") with
      target := some (Text.lit "y.py") }
    let last : Block := { Block.bare (Text.lit "3") [] with
      target := some (Text.lit ".\\src\\x.py") }
    let ws : Workspace := ⟨⟨⟨[]⟩, .ofText (Text.lit "/")⟩, .ofStrategy .eglot⟩
    let s := closed last [first, other, last] { narrow := true } (.ofText (Text.lit "docs"))
    (([first, other, last].map Block.identity).Nodup ∧ last ∈ [first, other, last] ∧
        last.target? = some (Text.lit ".\\src\\x.py")) ∧
      tangleText (blocksFor [first, other, last] last.target) = Text.lit "a=0\n\n" ∧
      ∃ b e notices, s.enter ws false = ⟨.ok (), s.opened b e, ws, notices⟩ ∧
        (s.opened b e).ShowsTarget b := by
  intro first other last ws s
  have hids : ([first, other, last].map Block.identity).Nodup := by decide +kernel
  have hmem : last ∈ [first, other, last] := by decide +kernel
  have htarget : last.target? = some (Text.lit ".\\src\\x.py") := rfl
  have htext : tangleText (blocksFor [first, other, last] last.target) = Text.lit "a=0\n\n" := by
    decide +kernel
  exact ⟨⟨hids, hmem, htarget⟩, htext, enter_shows_target hids hmem htarget _ _ ws⟩

end Session

end LiterateEdit
