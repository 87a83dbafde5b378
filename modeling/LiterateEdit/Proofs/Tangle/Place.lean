import LiterateEdit.Proofs.Path.Normal
import LiterateEdit.Block.Target
import LiterateEdit.Tangle.Place

/-!
# The target that is meant and the place that is written

The spelling of a target is read in two ways. Blocks are grouped by its normal form as a text
(`Target.normal`), where nothing is known of a base directory. Their text is written to the place
that it spells from a base directory, which is spelled from the current directory (`Target.place`),
and double dots may lead from one into the other.

The two agree on which spellings mean one target as long as none of them leads out of the base
directory (`Target.StaysBelow`). Then the place is the base directory with the normal form behind it
(`Target.place_eq`), wherever the base directory is and however it is spelled.
-/

namespace LiterateEdit

namespace Target

variable {cwd base : Path} {t u : Text}

/-! ### Places are absolute -/

/-- Under an absolute base the place of a target is absolute, and has no double dots. -/
theorem place_isAbsolute (hbase : base.isAbsolute = true) (cwd : Path) (t : Text) :
    (place cwd base t).isAbsolute = true ∧ ['.', '.'] ∉ (place cwd base t).parts := by
  have habs : (base.append (.ofText t)).isAbsolute = true := Path.isAbsolute_append hbase
  rw [place, Path.absolute, Path.append_of_isAbsolute cwd habs]
  exact ⟨habs, Path.not_mem_normal_parts habs⟩

/-- So it is if the current directory is absolute. -/
theorem place_isAbsolute_of_cwd (hcwd : cwd.isAbsolute = true) (base : Path) (t : Text) :
    (place cwd base t).isAbsolute = true ∧ ['.', '.'] ∉ (place cwd base t).parts := by
  have habs : (cwd.append (base.append (.ofText t))).isAbsolute = true :=
    Path.isAbsolute_append hcwd
  exact ⟨habs, Path.not_mem_normal_parts habs⟩

/-! ### Spellings that stay below a base directory -/

/-- **A spelling stays below the base directory**: it does not start at the root, has no
backslashes, and its normal form is not a double dot and does not start with one that leads on. A
name may start with two dots. -/
structure StaysBelow (t : Text) : Prop where
  relative : ¬['/'] <+: t
  slashes : '\\' ∉ t
  not_up : normal t ≠ ['.', '.']
  not_above : ¬['.', '.', '/'] <+: normal t

/-- What has no backslashes is read as it is. -/
theorem normal_of_slashes (h : '\\' ∉ t) : normal t = (Path.ofText t).normal.text := by
  have hmap : t.map (fun c => if c = '\\' then '/' else c) = t :=
    (List.map_congr_left fun c hc => if_neg (ne_of_mem_of_not_mem hc h)).trans t.map_id'
  rw [normal, hmap]

/-- Without backslashes, two spellings mean one target if they have one normal path. -/
theorem normal_eq_iff (ht : '\\' ∉ t) (hu : '\\' ∉ u) :
    normal t = normal u ↔ (Path.ofText t).normal = (Path.ofText u).normal := by
  rw [normal_of_slashes ht, normal_of_slashes hu, Path.normal_text_inj]

namespace StaysBelow

theorem isAbsolute (h : StaysBelow t) : (Path.ofText t).isAbsolute = false := by
  have hhead : t.head? ≠ some '/' := by
    intro hhead
    obtain ⟨rest, rfl⟩ := List.head?_eq_some_iff.1 hhead
    exact h.relative ⟨rest, rfl⟩
  exact Path.isAbsolute_eq_false_iff.2 (Path.Root.ofText_append .relative hhead)

/-- **No double dots are left** in the normal path. They would lead it, and its text would start
with them. -/
theorem plain (h : StaysBelow t) : ['.', '.'] ∉ (Path.ofText t).normal.parts := by
  intro hmem
  have hnormal := normal_of_slashes h.slashes
  obtain ⟨rest, hparts⟩ := List.head?_eq_some_iff.1 (Path.head?_normal_parts h.isAbsolute hmem)
  have htext : (Path.ofText t).normal.text = Text.join ['/'] (['.', '.'] :: rest) := by
    rw [Path.text, hparts, show (Path.ofText t).normal.root = .relative from
      Path.isAbsolute_eq_false_iff.1 h.isAbsolute]
    rfl
  cases rest with
  | nil => exact h.not_up (hnormal.trans htext)
  | cons next rest =>
    refine h.not_above ⟨Text.join ['/'] (next :: rest), ?_⟩
    rw [hnormal, htext, Text.join_cons_cons]
    rfl

end StaysBelow

/-- **The place of a target** that stays below the base directory: the normal form of the target
behind the normal form of the directory. -/
theorem place_eq (cwd base : Path) (h : StaysBelow t) :
    place cwd base t = (cwd.append base).normal.append (Path.ofText t).normal := by
  rw [place, Path.absolute, Path.append_append cwd base h.isAbsolute,
    Path.normal_append _ h.isAbsolute h.plain]

/-- Two such targets have one place if they have one normal path. -/
theorem place_eq_iff (cwd base : Path) (ht : StaysBelow t) (hu : StaysBelow u) :
    place cwd base t = place cwd base u ↔ (Path.ofText t).normal = (Path.ofText u).normal := by
  rw [place_eq cwd base ht, place_eq cwd base hu]
  exact Path.append_left_inj _ ht.isAbsolute hu.isAbsolute

/-- All such targets have the root of the base directory. -/
theorem place_eq_of_parts_eq (ht : StaysBelow t) (hu : StaysBelow u)
    (hparts : (place cwd base t).parts = (place cwd base u).parts) :
    place cwd base t = place cwd base u := by
  have hrel : (Path.ofText t).normal.isAbsolute = false := ht.isAbsolute
  have hrel' : (Path.ofText u).normal.isAbsolute = false := hu.isAbsolute
  rw [place_eq cwd base ht, place_eq cwd base hu, Path.append_of_relative _ hrel,
    Path.append_of_relative _ hrel'] at hparts ⊢
  exact congrArg (Path.mk _) hparts

/-- **Grouping and writing agree** on what one target is: two spellings that stay below the base
directory have one normal form exactly if they have one place, whatever the base directory and the
current directory are. -/
theorem normal_eq_iff_place_eq (cwd base : Path) (ht : StaysBelow t) (hu : StaysBelow u) :
    normal t = normal u ↔ place cwd base t = place cwd base u := by
  calc normal t = normal u
      ↔ (Path.ofText t).normal = (Path.ofText u).normal := normal_eq_iff ht.slashes hu.slashes
    _ ↔ place cwd base t = place cwd base u := (place_eq_iff cwd base ht hu).symm

/-- Spellings with dots and slashes too many, below a directory that is spelled so itself. A name
that starts with two dots leads nowhere. -/
theorem normal_eq_iff_place_eq_spelled :
    let cwd := Path.ofText (Text.lit "/home/me")
    let base := Path.ofText (Text.lit "../you/./x//..")
    let t := Text.lit "a/./b//../..c/"
    let u := Text.lit "./a/..c"
    let v := Text.lit "a/b/c"
    StaysBelow t ∧ StaysBelow u ∧ StaysBelow v ∧
      (normal t = normal u ∧ place cwd base t = place cwd base u) ∧
      normal t ≠ normal v ∧ place cwd base t ≠ place cwd base v := by
  intro cwd base t u v
  have ht : StaysBelow t := ⟨by decide, by decide, by decide +kernel, by decide +kernel⟩
  have hu : StaysBelow u := ⟨by decide, by decide, by decide +kernel, by decide +kernel⟩
  have hv : StaysBelow v := ⟨by decide, by decide, by decide +kernel, by decide +kernel⟩
  have hsame : normal t = normal u := by decide +kernel
  have hother : normal t ≠ normal v := by decide +kernel
  exact ⟨ht, hu, hv, ⟨hsame, (normal_eq_iff_place_eq cwd base ht hu).1 hsame⟩, hother,
    mt (normal_eq_iff_place_eq cwd base ht hv).2 hother⟩

/-- A spelling that leads out of the base directory and back has the place of one that does not. -/
example :
    let cwd := Path.ofText (Text.lit "/home/me")
    let base := Path.ofText (Text.lit "docs")
    place cwd base (Text.lit "../docs/a") = place cwd base (Text.lit "a") ∧
      normal (Text.lit "../docs/a") ≠ normal (Text.lit "a") := by
  decide +kernel

end Target

end LiterateEdit
