import LiterateEdit.Proofs.Block.Target
import LiterateEdit.Proofs.FileSystem.Change
import LiterateEdit.Proofs.Tangle.Place
import LiterateEdit.Tangle.Write
import Mathlib.Data.List.Basic

/-!
# The files that tangling leaves

Tangling reads the spelling of a target in three ways. It writes each spelling once, with the blocks
of its normal form (`Target.normal`), to its place (`Target.place`). Two spellings may have one
place and different normal forms, as `x` and `../d/x` below the directory `d`; then each is written
with its own blocks, and the file holds those of the spelling that came up last. Two spellings may
have one normal form and different places, as `a/x` and `a\x`; then the blocks of both are written
to both files.

`World.tangleTargets_files` says what comes of this in general: behind a run of tangling a place
holds the blocks of the last spelling that leads there, and nothing else has changed but that
missing directories were made. The induction is over the spellings: what was written before stays
unless the same place is written again (`World.ChangesOnly`), and it is still found under its path
because directories stay.

Where spellings agree (`Target.Agree`), that is, two of them have one normal form exactly if they
have one place, these are the blocks whose targets have that place, as they stand in the document.
They agree if all of them stay below the base directory (`Target.Agree.of_staysBelow`).
-/

namespace LiterateEdit

/-! ### Places -/

namespace Target

variable {cwd base : Path} {t u : Text}

/-- The last one of some spellings that leads to a place of the file system. -/
def lastAt (cwd base : Path) (targets : List Text) (spot : Place) : Option Text :=
  targets.reverse.find? fun t => (place cwd base t).parts = spot

/-- A spelling comes last at its place unless one behind it leads there. -/
theorem lastAt_cons (cwd base : Path) (t : Text) (rest : List Text) (spot : Place) :
    lastAt cwd base (t :: rest) spot
      = (lastAt cwd base rest spot).or
          (if (place cwd base t).parts = spot then some t else none) := by
  rw [lastAt, List.reverse_cons, List.find?_append, ← lastAt]
  congr 1
  by_cases h : (place cwd base t).parts = spot
  · simp [h]
  · simp [h]

theorem lastAt_eq_none_iff {targets : List Text} {spot : Place} :
    lastAt cwd base targets spot = none ↔
      ∀ t ∈ targets, (place cwd base t).parts ≠ spot := by
  rw [lastAt, List.find?_eq_none]
  simp only [List.mem_reverse, decide_eq_true_eq, ne_eq]

theorem of_lastAt_eq_some {targets : List Text} {spot : Place}
    (h : lastAt cwd base targets spot = some u) :
    u ∈ targets ∧ (place cwd base u).parts = spot :=
  ⟨List.mem_reverse.1 (List.mem_of_find?_eq_some h), by simpa using List.find?_some h⟩

end Target

/-! ### Targets of blocks -/

theorem mem_targetsOf {blocks : List Block} {t : Text} :
    t ∈ targetsOf blocks ↔ ∃ b ∈ blocks, b.target? = some t := by
  rw [targetsOf, List.mem_eraseDups, List.mem_filterMap]

theorem ne_nil_of_mem_targetsOf {blocks : List Block} {t : Text} (h : t ∈ targetsOf blocks) :
    t ≠ [] := by
  obtain ⟨b, -, hb⟩ := mem_targetsOf.1 h
  exact (Block.target_of_target? hb).2

/-- The blocks whose targets have a place. -/
def blocksAt (cwd base : Path) (blocks : List Block) (p : Path) : List Block :=
  blocks.filter fun b =>
    match b.target? with
    | none => false
    | some t => Target.place cwd base t = p

/-- **Spellings agree** among blocks if two of them mean the same target exactly if they have the
same place, and no two places differ only in being written with one slash or two. -/
structure Target.Agree (cwd base : Path) (blocks : List Block) : Prop where
  same : ∀ t ∈ targetsOf blocks, ∀ u ∈ targetsOf blocks,
    normal t = normal u ↔ place cwd base t = place cwd base u
  root : ∀ t ∈ targetsOf blocks, ∀ u ∈ targetsOf blocks,
    (place cwd base t).parts = (place cwd base u).parts → place cwd base t = place cwd base u

instance (cwd base : Path) (blocks : List Block) : Decidable (Target.Agree cwd base blocks) :=
  decidable_of_iff
    ((∀ t ∈ targetsOf blocks, ∀ u ∈ targetsOf blocks,
        Target.normal t = Target.normal u ↔ Target.place cwd base t = Target.place cwd base u) ∧
      ∀ t ∈ targetsOf blocks, ∀ u ∈ targetsOf blocks,
        (Target.place cwd base t).parts = (Target.place cwd base u).parts →
          Target.place cwd base t = Target.place cwd base u)
    ⟨fun h => ⟨h.1, h.2⟩, fun h => ⟨h.same, h.root⟩⟩

/-- **Spellings agree** if they stay below the base directory. -/
theorem Target.Agree.of_staysBelow (cwd base : Path) {blocks : List Block}
    (h : ∀ t ∈ targetsOf blocks, StaysBelow t) : Agree cwd base blocks where
  same t ht u hu := by
    rw [normal_eq_iff (h t ht).slashes (h u hu).slashes, place_eq_iff cwd base (h t ht) (h u hu)]
  root t ht u hu hparts := place_eq_of_parts_eq (h t ht) (h u hu) hparts

/-- Where spellings agree, the blocks of a normal form are those of a place. -/
theorem Target.Agree.blocksFor_eq {cwd base : Path} {blocks : List Block} {t : Text}
    (h : Target.Agree cwd base blocks) (ht : t ∈ targetsOf blocks) :
    blocksFor blocks (some t) = blocksAt cwd base blocks (Target.place cwd base t) := by
  rw [blocksFor_some (ne_nil_of_mem_targetsOf ht), blocksAt]
  refine List.filter_congr fun b hb => ?_
  unfold Block.isPartOf
  cases hu : b.target? with
  | none => rfl
  | some u =>
    have hmem : u ∈ targetsOf blocks := mem_targetsOf.2 ⟨b, hb, hu⟩
    exact decide_eq_decide.2 (h.same u hmem t ht)

/-! ### Runs -/

namespace World

variable {w w' : World} {blocks : List Block} {base : Path} {targets : List Text}

/-- Asking for a directory makes directories at most. -/
theorem changesOnly_provideDirectory (w : World) (dir : Path) (mkdirp : Option Text) :
    ChangesOnly [] w (w.provideDirectory dir mkdirp).world := by
  have hmade := changesOnly_makeDirectoriesAt w dir.root dir.parts.reverse
  unfold provideDirectory
  split
  · exact ChangesOnly.refl [] w
  · split
    · split
      · next heq =>
        rw [show w.makeDirectories dir = w.makeDirectoriesAt dir.root dir.parts.reverse from rfl]
          at heq
        rw [heq] at hmade
        exact hmade
      · next heq =>
        rw [show w.makeDirectories dir = w.makeDirectoriesAt dir.root dir.parts.reverse from rfl]
          at heq
        rw [heq] at hmade
        exact hmade
    · exact ChangesOnly.refl [] w

/-- **What a run of tangling leaves.** Nothing but the places of the spellings is changed, the path
of each spelling leads to its place, and at each place stand the blocks of the last spelling that
leads there. -/
structure Tangled (blocks : List Block) (base : Path) (targets : List Text) (w w' : World) :
    Prop where
  changes : ChangesOnly (targets.map fun t => (Target.place w.cwd base t).parts) w w'
  places : ∀ t ∈ targets, w'.place (Target.place w.cwd base t)
    = .ok (Target.place w.cwd base t).parts
  files : ∀ spot u, Target.lastAt w.cwd base targets spot = some u →
    w'.files.get? spot = some (.file (Utf8.encode (tangleText (blocksFor blocks (some u)))))

/-- **One target**: its file is written with the blocks of its normal form. -/
theorem tangleTarget_tangled (hbase : base.isAbsolute = true) {t : Text}
    {done : List (Text × Path)} (h : (w.tangleTarget blocks base t).outcome = .ok done) :
    Tangled blocks base [t] w (w.tangleTarget blocks base t).world := by
  obtain ⟨habs, hplain⟩ := Target.place_isAbsolute hbase w.cwd t
  have hdir := changesOnly_provideDirectory w (Target.place w.cwd base t).parent
    (groupMkdirp (blocksFor blocks (some t)))
  unfold tangleTarget at h ⊢
  simp only at h ⊢
  split at h
  · cases h
  · split at h
    · cases h
    · next w' hwrite =>
      -- the path leads to the place that its components spell
      obtain ⟨spot, hplace, hchange, hfile⟩ := writeText_eq_ok hwrite
      obtain rfl := place_of_plain habs hplain hplace
      refine ⟨hdir.trans hchange, fun u hu => ?_, fun spot u hu => ?_⟩
      · rw [List.mem_singleton.1 hu]
        exact hchange.place hplace
      · obtain ⟨hmem, rfl⟩ := Target.of_lastAt_eq_some hu
        rw [List.mem_singleton.1 hmem]
        exact hfile

/-- **The step of a run**: what one target leaves is carried through the others. -/
theorem Tangled.cons {t : Text} {w₁ : World} (h : Tangled blocks base [t] w w₁)
    (h' : Tangled blocks base targets w₁ w') : Tangled blocks base (t :: targets) w w' := by
  have hcwd : w₁.cwd = w.cwd := h.changes.cwd
  obtain ⟨hchanges, hplaces, hfiles⟩ := h'
  rw [hcwd] at hchanges hplaces hfiles
  refine ⟨h.changes.trans hchanges, fun u hu => ?_, fun spot u hu => ?_⟩
  · rcases List.mem_cons.1 hu with rfl | hu
    · exact hchanges.place (h.places u List.mem_cons_self)
    · exact hplaces u hu
  · rw [Target.lastAt_cons] at hu
    cases hlast : Target.lastAt w.cwd base targets spot with
    | some v =>
      -- the place is written again later on
      rw [hlast, Option.some_or] at hu
      rw [← Option.some.inj hu]
      exact hfiles spot v hlast
    | none =>
      -- the file is left alone by the others
      have hat : Target.lastAt w.cwd base [t] spot = some u := by
        rw [Target.lastAt_cons]
        rwa [hlast] at hu
      have hfile := h.files spot u hat
      have hout : spot ∉ targets.map fun t => (Target.place w.cwd base t).parts := by
        intro hmem
        obtain ⟨v, hv, hspot⟩ := List.mem_map.1 hmem
        exact Target.lastAt_eq_none_iff.1 hlast v hv hspot
      exact (hchanges.file_iff hout _).2 hfile

/-- **The run**, by induction over the spellings. -/
theorem tangleTargets_tangled (hbase : base.isAbsolute = true) {done : List (Text × Path)}
    (h : (w.tangleTargets blocks base targets).outcome = .ok done) :
    Tangled blocks base targets w (w.tangleTargets blocks base targets).world := by
  induction targets generalizing w done with
  | nil => exact ⟨ChangesOnly.refl [] w, fun t ht => absurd ht List.not_mem_nil, nofun⟩
  | cons t rest ih =>
    rw [tangleTargets] at h ⊢
    simp only at h ⊢
    cases hfirst : (w.tangleTarget blocks base t).outcome with
    | error e =>
      rw [hfirst] at h
      simp only [hfirst] at h
      cases h
    | ok first =>
      rw [hfirst] at h
      simp only at h ⊢
      cases hothers :
          ((w.tangleTarget blocks base t).world.tangleTargets blocks base rest).outcome with
      | error e =>
        rw [hothers] at h
        cases h
      | ok others => exact (tangleTarget_tangled hbase hfirst).cons (ih hothers)

end World

/-! ### What stands in the files -/

/-- The blocks that a run of tangling leaves in a file: those of the last spelling of its place. -/
def blocksLeft (cwd base : Path) (blocks : List Block) (p : Path) : List Block :=
  blocksFor blocks (Target.lastAt cwd base (targetsOf blocks) p.parts)

section Left

variable {cwd base : Path} {blocks : List Block} {t u : Text}

theorem mem_blocksAt {b : Block} {p : Path} :
    b ∈ blocksAt cwd base blocks p ↔
      b ∈ blocks ∧ ∃ t, b.target? = some t ∧ Target.place cwd base t = p := by
  rw [blocksAt, List.mem_filter]
  cases b.target? with
  | none => simp
  | some t => simp

/-- A spelling of a block has a last one of its place, which is a spelling of a block too. -/
theorem exists_lastAt (cwd base : Path) (ht : t ∈ targetsOf blocks) :
    ∃ u, Target.lastAt cwd base (targetsOf blocks) (Target.place cwd base t).parts = some u ∧
      u ∈ targetsOf blocks ∧ (Target.place cwd base u).parts = (Target.place cwd base t).parts := by
  cases hlast : Target.lastAt cwd base (targetsOf blocks) (Target.place cwd base t).parts with
  | none => exact absurd rfl (Target.lastAt_eq_none_iff.1 hlast t ht)
  | some u => exact ⟨u, rfl, Target.of_lastAt_eq_some hlast⟩

/-- If the blocks left in a file are those of its place, the last spelling there has the normal form
of just the spellings that have this place. -/
theorem normal_eq_iff_of_blocksLeft_eq {v : Text}
    (h : blocksLeft cwd base blocks (Target.place cwd base t)
      = blocksAt cwd base blocks (Target.place cwd base t))
    (hlast : Target.lastAt cwd base (targetsOf blocks) (Target.place cwd base t).parts = some v)
    (hu : u ∈ targetsOf blocks) :
    Target.normal u = Target.normal v ↔ Target.place cwd base u = Target.place cwd base t := by
  obtain ⟨b, hb, htarget⟩ := mem_targetsOf.1 hu
  have hne : v ≠ [] := ne_nil_of_mem_targetsOf (Target.of_lastAt_eq_some hlast).1
  rw [blocksLeft, hlast] at h
  -- both sides say that the block `b` is among the blocks of the file
  calc Target.normal u = Target.normal v
      ↔ b ∈ blocksFor blocks (some v) := by simp [mem_blocksFor_some hne, hb, htarget]
    _ ↔ b ∈ blocksAt cwd base blocks (Target.place cwd base t) := by rw [h]
    _ ↔ Target.place cwd base u = Target.place cwd base t := by
      simp [mem_blocksAt, hb, htarget]

/-- **The law and its condition.** The blocks that are left in the files are those of their places
exactly if spellings agree. -/
theorem blocksLeft_eq_iff :
    (∀ t ∈ targetsOf blocks, blocksLeft cwd base blocks (Target.place cwd base t)
        = blocksAt cwd base blocks (Target.place cwd base t)) ↔
      Target.Agree cwd base blocks := by
  constructor
  · intro h
    refine ⟨fun t ht u hu => ?_, fun t ht u hu hparts => ?_⟩
    · obtain ⟨v, hlast, -, -⟩ := exists_lastAt cwd base ht
      have hnormal := (normal_eq_iff_of_blocksLeft_eq (h t ht) hlast ht).2 rfl
      calc Target.normal t = Target.normal u
          ↔ Target.normal u = Target.normal v := by rw [hnormal, eq_comm]
        _ ↔ Target.place cwd base u = Target.place cwd base t :=
          normal_eq_iff_of_blocksLeft_eq (h t ht) hlast hu
        _ ↔ Target.place cwd base t = Target.place cwd base u := eq_comm
    · -- both places have the same last spelling
      obtain ⟨v, hlast, -, -⟩ := exists_lastAt cwd base ht
      have hnormal : Target.normal u = Target.normal v :=
        (normal_eq_iff_of_blocksLeft_eq (h u hu) (hparts ▸ hlast) hu).2 rfl
      exact ((normal_eq_iff_of_blocksLeft_eq (h t ht) hlast hu).1 hnormal).symm
  · intro h t ht
    obtain ⟨u, hlast, hu, hparts⟩ := exists_lastAt cwd base ht
    rw [blocksLeft, hlast, h.blocksFor_eq hu, h.root u hu t ht hparts]

end Left

/-- **Tangling loses and misplaces no block** where spellings agree, and only there. If tangling
returns, the file of each target holds the text of the blocks left there, these are the blocks whose
targets have that place exactly if spellings agree, and no other file is written or changed. -/
theorem World.tangle_files {w : World} {blocks : List Block} {base : Path}
    {done : List (Text × Path)} (hbase : base.isAbsolute = true)
    (h : (w.tangle blocks base).outcome = .ok done) :
    (∀ t ∈ targetsOf blocks, (w.tangle blocks base).world.read (Target.place w.cwd base t)
        = .ok (Utf8.encode (tangleText (blocksLeft w.cwd base blocks
            (Target.place w.cwd base t))))) ∧
      ((∀ t ∈ targetsOf blocks, blocksLeft w.cwd base blocks (Target.place w.cwd base t)
          = blocksAt w.cwd base blocks (Target.place w.cwd base t)) ↔
        Target.Agree w.cwd base blocks) ∧
      ∀ spot, (∀ t ∈ targetsOf blocks, (Target.place w.cwd base t).parts ≠ spot) → ∀ content,
        (w.tangle blocks base).world.files.get? spot = some (.file content) ↔
          w.files.get? spot = some (.file content) := by
  obtain ⟨hchanges, hplaces, hfiles⟩ := tangleTargets_tangled hbase h
  refine ⟨fun t ht => ?_, blocksLeft_eq_iff, fun spot hspot content => ?_⟩
  · obtain ⟨u, hlast, -, -⟩ := exists_lastAt w.cwd base ht
    have hfile := hfiles _ u hlast
    rw [blocksLeft, hlast]
    exact read_eq (hplaces t ht) hfile
  · refine hchanges.file_iff (fun hmem => ?_) content
    obtain ⟨t, ht, heq⟩ := List.mem_map.1 hmem
    exact hspot t ht heq

/-- A block with a text and a target, in a directory that may be made. -/
def Block.tangled (t target : Text) : Block :=
  ⟨[], none, some target, [(Text.lit "mkdirp", Text.lit "yes")], t, none, 0, 0⟩

/-- A directory `d` with a file in it. -/
def World.withDirectory : World :=
  ⟨⟨[([['d']], .directory), ([['d'], ['k']], .file [])]⟩, ⟨.slash, []⟩⟩

/-- Three spellings of one file, and a file in a directory that is missing. -/
theorem World.tangle_files_spellings :
    let w := World.withDirectory
    let base : Path := ⟨.slash, [['d']]⟩
    let blocks := [Block.tangled (Text.lit "a\n") (Text.lit "x"),
      Block.tangled (Text.lit "b\n") (Text.lit "s/y"),
      Block.tangled (Text.lit "c\n") (Text.lit "s/.././x")]
    let x : Path := ⟨.slash, [['d'], ['x']]⟩
    (base.isAbsolute = true ∧
        (w.tangle blocks base).outcome = .ok [(Text.lit "x", x),
          (Text.lit "s/y", ⟨.slash, [['d'], ['s'], ['y']]⟩), (Text.lit "s/.././x", x)]) ∧
      Target.Agree w.cwd base blocks ∧
      (w.tangle blocks base).world.read x = .ok (Utf8.encode (Text.lit "a\n\nc\n")) ∧
      (w.tangle blocks base).world.files.get? [['d'], ['k']] = some (.file []) := by
  intro w base blocks x
  have hbase : base.isAbsolute = true := rfl
  have hrun : (w.tangle blocks base).outcome = .ok [(Text.lit "x", x),
      (Text.lit "s/y", ⟨.slash, [['d'], ['s'], ['y']]⟩), (Text.lit "s/.././x", x)] := by
    decide +kernel
  have hbelow : ∀ t ∈ targetsOf blocks, Target.StaysBelow t := by
    have htargets : targetsOf blocks = [Text.lit "x", Text.lit "s/y", Text.lit "s/.././x"] := rfl
    simp only [htargets, List.forall_mem_cons]
    exact ⟨⟨by decide, by decide, by decide +kernel, by decide +kernel⟩,
      ⟨by decide, by decide, by decide +kernel, by decide +kernel⟩,
      ⟨by decide, by decide, by decide +kernel, by decide +kernel⟩, List.forall_mem_nil _⟩
  have hagree : Target.Agree w.cwd base blocks := .of_staysBelow w.cwd base hbelow
  obtain ⟨hread, hiff, hothers⟩ := tangle_files hbase hrun
  have hmem : Text.lit "x" ∈ targetsOf blocks := by decide +kernel
  have hx := hread _ hmem
  rw [hiff.2 hagree _ hmem] at hx
  refine ⟨⟨hbase, hrun⟩, hagree, hx, (hothers _ ?_ _).2 rfl⟩
  decide +kernel

/-- Two spellings of one file that do not agree. The file keeps the blocks of one of them only. -/
example :
    let w := World.withDirectory
    let base : Path := ⟨.slash, [['d']]⟩
    let blocks := [Block.tangled (Text.lit "a\n") (Text.lit "x"),
      Block.tangled (Text.lit "b\n") (Text.lit "../d/x")]
    ¬Target.Agree w.cwd base blocks ∧
      (w.tangle blocks base).world.read ⟨.slash, [['d'], ['x']]⟩
        = .ok (Utf8.encode (Text.lit "b\n")) := by
  decide +kernel

end LiterateEdit
