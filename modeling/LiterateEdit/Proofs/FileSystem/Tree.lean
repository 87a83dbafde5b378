import LiterateEdit.Proofs.FileSystem.Change
import Mathlib.Data.List.Induction

/-!
# Making directories in a tree

A file system is a tree if whatever stands somewhere stands in a directory (`FileSystem.IsTree`).
The list of entries alone does not say so, but making directories keeps it.

In a tree there are three ways for a path to come out, and `FileSystem.Blocked` tells them apart. If
a file stands somewhere on the way, nothing can be made (`World.makeDirectoriesAt_blocked`). If none
does, the directories that are missing come last, one below the other; they can be made, and nothing
else changes (`World.makeDirectoriesAt_free`). The error of the file system at a step of the way
says which case it is, because a walk ends at the first component that is no directory:
`walk_of_directory`, `walk_of_blocked` and `walk_of_free` are the three cases.

All paths here are absolute and without double dots, as the place of a target is.
-/

namespace LiterateEdit

namespace FileSystem

variable {fs : FileSystem} {spot q : Place} {e : Entry} {part : Text}

/-! ### Trees -/

/-- Whatever stands somewhere stands in a directory. -/
def IsTree (fs : FileSystem) : Prop :=
  ∀ spot e, fs.get? spot = some e → fs.get? spot.dropLast = some .directory

/-- A file stands at a place or on the way to it. -/
def Blocked (fs : FileSystem) (spot : Place) : Prop :=
  ∃ q content, q <+: spot ∧ fs.get? q = some (.file content)

namespace IsTree

/-- It is enough to look at the entries. -/
theorem of_entries (h : ∀ x ∈ fs.entries, fs.get? x.1.dropLast = some .directory) : fs.IsTree := by
  intro spot e hspot
  by_cases hroot : spot = []
  · rw [hroot]
    exact get?_root fs
  · rw [get?_of_ne fs hroot, Option.map_eq_some_iff] at hspot
    obtain ⟨x, hx, -⟩ := hspot
    have hat : x.1 = spot := by simpa using List.find?_some hx
    rw [← hat]
    exact h x (List.mem_of_find?_eq_some hx)

/-- What is below something is below a directory. -/
theorem directory_of_concat (h : fs.IsTree) (hspot : fs.get? (spot ++ [part]) = some e) :
    fs.get? spot = some .directory := by
  have hdir := h _ _ hspot
  rwa [List.dropLast_concat] at hdir

/-- There are only directories on the way to a directory. -/
theorem not_blocked (h : fs.IsTree) (hspot : fs.get? spot = some .directory) :
    ¬fs.Blocked spot := by
  induction spot using List.reverseRecOn with
  | nil =>
    rintro ⟨q, content, hq, hfile⟩
    rw [List.prefix_nil.1 hq, get?_root] at hfile
    cases hfile
  | append_singleton spot part ih =>
    rintro ⟨q, content, hq, hfile⟩
    rcases List.prefix_concat_iff.1 hq with rfl | hq
    · rw [hspot] at hfile
      cases hfile
    · exact ih (h.directory_of_concat hspot) ⟨q, content, hq, hfile⟩

/-- A directory in a directory, where nothing was, leaves a tree. -/
theorem set (h : fs.IsTree) (hnone : fs.get? spot = none)
    (hdir : fs.get? spot.dropLast = some .directory) : (fs.set spot .directory).IsTree := by
  have hroot : spot ≠ [] := by
    rintro rfl
    rw [get?_root] at hnone
    cases hnone
  -- what was a directory still is
  have hkept : ∀ q, fs.get? q = some .directory →
      (fs.set spot .directory).get? q = some .directory := by
    intro q hq
    have hne : q ≠ spot := by
      rintro rfl
      rw [hnone] at hq
      cases hq
    rwa [get?_set_of_ne _ hne]
  intro q e hq
  by_cases heq : q = spot
  · rw [heq]
    exact hkept _ hdir
  · rw [get?_set_of_ne _ heq] at hq
    exact hkept _ (h q e hq)

end IsTree

/-- What is on the way to a place below is on the way to it, or is the place itself. -/
theorem blocked_concat_iff : fs.Blocked (spot ++ [part]) ↔
    fs.Blocked spot ∨ ∃ content, fs.get? (spot ++ [part]) = some (.file content) := by
  constructor
  · rintro ⟨q, content, hq, hfile⟩
    rcases List.prefix_concat_iff.1 hq with rfl | hq
    · exact .inr ⟨content, hfile⟩
    · exact .inl ⟨q, content, hq, hfile⟩
  · rintro (⟨q, content, hq, hfile⟩ | ⟨content, hfile⟩)
    · exact ⟨q, content, hq.trans (List.prefix_append _ _), hfile⟩
    · exact ⟨_, content, List.prefix_rfl, hfile⟩

/-- If no file is on the way, what stands at a place is a directory. -/
theorem get?_of_not_blocked (h : ¬fs.Blocked spot) :
    fs.get? spot = some .directory ∨ fs.get? spot = none := by
  cases hspot : fs.get? spot with
  | none => exact .inr rfl
  | some e =>
    cases e with
    | directory => exact .inl rfl
    | file content => exact absurd ⟨spot, content, List.prefix_rfl, hspot⟩ h

/-! ### Walks in a tree -/

theorem plain_concat : ['.', '.'] ∉ spot ++ [part] ↔ ['.', '.'] ∉ spot ∧ part ≠ ['.', '.'] := by
  rw [List.mem_append, not_or, List.mem_singleton, ne_comm]

theorem walk_append (fs : FileSystem) (here : Place) (parts more : List Text) :
    fs.walk here (parts ++ more) = fs.walk here parts >>= fun q => fs.walk q more := by
  induction parts generalizing here with
  | nil => rfl
  | cons part rest ih =>
    rw [List.cons_append, walk, walk]
    cases fs.step here part with
    | error e => rfl
    | ok next => exact ih next

/-- A last step. -/
theorem walk_concat (fs : FileSystem) (spot : Place) (part : Text) :
    fs.walk [] (spot ++ [part]) = fs.walk [] spot >>= fun q => fs.step q part := by
  rw [walk_append]
  refine congrArg _ (funext fun q => ?_)
  rw [walk]
  cases fs.step q part with
  | error e => rfl
  | ok next => rfl

theorem step_of_directory (hpart : part ≠ ['.', '.']) (h : fs.get? spot = some .directory) :
    fs.step spot part = .ok (spot ++ [part]) := by
  unfold step
  simp only [h, if_neg hpart]

/-- **A walk below a directory** succeeds, whether anything stands there or not. -/
theorem walk_of_directory (h : fs.IsTree) (hplain : ['.', '.'] ∉ spot ++ [part])
    (hspot : fs.get? spot = some .directory) :
    fs.walk [] (spot ++ [part]) = .ok (spot ++ [part]) := by
  induction spot using List.reverseRecOn generalizing part with
  | nil =>
    exact step_of_directory (plain_concat.1 hplain).2 hspot
  | append_singleton spot above ih =>
    obtain ⟨habove, hpart⟩ := plain_concat.1 hplain
    rw [walk_concat, ih habove (h.directory_of_concat hspot)]
    exact step_of_directory hpart hspot

/-- A walk to where something stands leads there. -/
theorem walk_of_some (h : fs.IsTree) (hplain : ['.', '.'] ∉ spot) (hspot : fs.get? spot = some e) :
    fs.walk [] spot = .ok spot := by
  cases spot using List.reverseRecOn with
  | nil => rfl
  | append_singleton spot part => exact walk_of_directory h hplain (h.directory_of_concat hspot)

/-- **A walk below a file** ends there. -/
theorem walk_of_blocked (h : fs.IsTree) (hplain : ['.', '.'] ∉ spot ++ [part])
    (hspot : fs.Blocked spot) : fs.walk [] (spot ++ [part]) = .error .notDirectory := by
  induction spot using List.reverseRecOn generalizing part with
  | nil => exact absurd hspot (h.not_blocked (get?_root fs))
  | append_singleton spot above ih =>
    obtain ⟨habove, -⟩ := plain_concat.1 hplain
    rw [walk_concat]
    rcases blocked_concat_iff.1 hspot with hspot | ⟨content, hfile⟩
    · rw [ih habove hspot]
      rfl
    · -- the file itself is reached, and there is no step from it
      rw [walk_of_directory h habove (h.directory_of_concat hfile)]
      change fs.step (spot ++ [above]) part = _
      unfold step
      simp only [hfile]

/-- **A walk below a missing place** ends where the first directory is missing. -/
theorem walk_of_free (h : fs.IsTree) (hplain : ['.', '.'] ∉ spot ++ [part])
    (hfree : ¬fs.Blocked spot) (hspot : fs.get? spot = none) :
    fs.walk [] (spot ++ [part]) = .error .missing := by
  induction spot using List.reverseRecOn generalizing part with
  | nil =>
    rw [get?_root] at hspot
    cases hspot
  | append_singleton spot above ih =>
    obtain ⟨habove, -⟩ := plain_concat.1 hplain
    have hfree' : ¬fs.Blocked spot := fun hb => hfree (blocked_concat_iff.2 (.inl hb))
    rw [walk_concat]
    rcases get?_of_not_blocked hfree' with hdir | hnone
    · rw [walk_of_directory h habove hdir]
      change fs.step (spot ++ [above]) part = _
      unfold step
      simp only [hspot]
    · rw [ih habove hfree' hnone]
      rfl

end FileSystem

namespace World

open FileSystem

variable {w w' : World} {p : Path} {root : Path.Root} {spot : Place} {part : Text}

/-! ### Paths in a tree -/

theorem stat_eq_ok_iff {e : Entry} :
    w.stat p = .ok e ↔ ∃ q, w.place p = .ok q ∧ w.files.get? q = some e := by
  unfold stat
  cases w.place p with
  | error err =>
    constructor
    · intro h
      cases h
    · rintro ⟨q, h, -⟩
      cases h
  | ok q =>
    simp only [bind, Except.bind, Except.ok.injEq, exists_eq_left']
    cases w.files.get? q with
    | none => simp only [reduceCtorEq]
    | some e' => simp only [Except.ok.injEq, Option.some.injEq]

theorem isDirectory_iff_stat : w.isDirectory p = true ↔ w.stat p = .ok .directory := by
  unfold isDirectory
  split
  · next h => simp only [h]
  · next hnot =>
    constructor
    · intro h
      cases h
    · exact fun h => absurd h hnot

/-- A path leads to a directory if one stands at the place that it spells. -/
theorem isDirectory_iff (h : w.files.IsTree) (habs : p.isAbsolute = true)
    (hplain : ['.', '.'] ∉ p.parts) :
    w.isDirectory p = true ↔ w.files.get? p.parts = some .directory := by
  rw [isDirectory_iff_stat, stat_eq_ok_iff]
  constructor
  · rintro ⟨q, hplace, hq⟩
    rwa [place_of_plain habs hplain hplace] at hq
  · intro hdir
    exact ⟨p.parts, (place_of_isAbsolute habs).trans (walk_of_some h hplain hdir), hdir⟩

theorem makeDirectory_of_error {e : FileError} (h : w.place p = .error e) :
    w.makeDirectory p = .error e := by
  unfold makeDirectory
  rw [h]
  rfl

theorem makeDirectory_of_some {e : Entry} {q : Place} (h : w.place p = .ok q)
    (hq : w.files.get? q = some e) : w.makeDirectory p = .error .occupied := by
  unfold makeDirectory
  simp only [h, bind, Except.bind, hq]

theorem makeDirectory_of_none {q : Place} (h : w.place p = .ok q) (hq : w.files.get? q = none) :
    w.makeDirectory p = .ok { w with files := w.files.set q .directory } := by
  unfold makeDirectory
  simp only [h, bind, Except.bind, hq]

/-! ### Making what is missing -/

/-- **The way to a place is made**: a directory stands there, and nothing is new but directories
that were missing on the way. -/
structure MakesWay (spot : Place) (w w' : World) : Prop where
  cwd : w'.cwd = w.cwd
  tree : w'.files.IsTree
  directory : w'.files.get? spot = some .directory
  others : ∀ q, w'.files.get? q = w.files.get? q ∨
    (q <+: spot ∧ w.files.get? q = none ∧ w'.files.get? q = some .directory)

namespace MakesWay

theorem refl (h : w.files.IsTree) (hspot : w.files.get? spot = some .directory) :
    MakesWay spot w w := ⟨rfl, h, hspot, fun _ => .inl rfl⟩

/-- The way goes on by one directory. -/
theorem concat (h : MakesWay spot w w') (hnone : w.files.get? (spot ++ [part]) = none)
    (hnone' : w'.files.get? (spot ++ [part]) = none) :
    MakesWay (spot ++ [part]) w
      { w' with files := w'.files.set (spot ++ [part]) .directory } := by
  have hmade := get?_set_self w'.files (List.concat_ne_nil part spot) .directory
  refine ⟨h.cwd, h.tree.set hnone' ?_, hmade, fun q => ?_⟩
  · rw [List.dropLast_concat]
    exact h.directory
  · by_cases hq : q = spot ++ [part]
    · rw [hq]
      exact .inr ⟨List.prefix_rfl, hnone, hmade⟩
    · change (w'.files.set _ _).get? q = _ ∨ _ ∧ _ ∧ (w'.files.set _ _).get? q = _
      rw [get?_set_of_ne _ hq]
      exact (h.others q).imp_right fun hnew => ⟨hnew.1.trans (List.prefix_append _ _), hnew.2⟩

end MakesWay

section Make

variable {rev : List Text}

/-- **Where a file is in the way** nothing is made. -/
theorem makeDirectoriesAt_blocked (h : w.files.IsTree) (hroot : root ≠ .relative)
    (hplain : ['.', '.'] ∉ rev.reverse) (hblocked : w.files.Blocked rev.reverse) :
    ∃ e, w.makeDirectoriesAt root rev = (.error e, w) := by
  cases rev with
  | nil => exact absurd hblocked (h.not_blocked (get?_root _))
  | cons part above =>
    have habs : (⟨root, (part :: above).reverse⟩ : Path).isAbsolute = true := by
      simp [Path.isAbsolute, hroot]
    have hplace := place_of_isAbsolute (w := w) habs
    have hnot : w.isDirectory ⟨root, (part :: above).reverse⟩ = false := by
      rw [← Bool.not_eq_true, isDirectory_iff h habs hplain]
      exact fun hdir => h.not_blocked hdir hblocked
    -- the file is above the last component, or is what it names
    have hmake : w.makeDirectory ⟨root, (part :: above).reverse⟩ = .error .notDirectory ∨
        w.makeDirectory ⟨root, (part :: above).reverse⟩ = .error .occupied := by
      simp only [List.reverse_cons] at hblocked hplain hplace ⊢
      rcases blocked_concat_iff.1 hblocked with habove | ⟨content, hfile⟩
      · exact .inl (makeDirectory_of_error (hplace.trans (walk_of_blocked h hplain habove)))
      · exact .inr (makeDirectory_of_some (hplace.trans (walk_of_some h hplain hfile)) hfile)
    unfold makeDirectoriesAt
    rcases hmake with hmake | hmake
    · simp only [hmake, hnot]
      exact ⟨_, rfl⟩
    · simp only [hmake, hnot]
      exact ⟨_, rfl⟩

/-- **Where no file is in the way** the missing directories are made. The induction goes up to the
first directory that is there; on the way back each directory is made in the one before. -/
theorem makeDirectoriesAt_free (h : w.files.IsTree) (hroot : root ≠ .relative)
    (hplain : ['.', '.'] ∉ rev.reverse) (hfree : ¬w.files.Blocked rev.reverse) :
    ∃ w', w.makeDirectoriesAt root rev = (.ok (), w') ∧ MakesWay rev.reverse w w' := by
  have habs : ∀ parts, (⟨root, parts⟩ : Path).isAbsolute = true := by
    intro parts
    simp [Path.isAbsolute, hroot]
  induction rev with
  | nil =>
    have hplace : w.place ⟨root, []⟩ = .ok [] := place_of_isAbsolute (habs [])
    have hdir : w.isDirectory ⟨root, []⟩ = true :=
      (isDirectory_iff h (habs []) hplain).2 (get?_root _)
    refine ⟨w, ?_, .refl h (get?_root _)⟩
    unfold makeDirectoriesAt acceptDirectory
    simp only [makeDirectory_of_some hplace (get?_root _), hdir, if_true]
  | cons part above ih =>
    have hplace : ∀ v : World, v.place ⟨root, (part :: above).reverse⟩
        = v.files.walk [] (above.reverse ++ [part]) := by
      intro v
      rw [place_of_isAbsolute (habs _), List.reverse_cons]
    have hdir : w.files.get? (above.reverse ++ [part]) = some .directory →
        w.isDirectory ⟨root, (part :: above).reverse⟩ = true := by
      intro hthere
      refine (isDirectory_iff (p := ⟨root, (part :: above).reverse⟩) h (habs _) hplain).2 ?_
      simpa only [List.reverse_cons] using hthere
    rw [List.reverse_cons] at hplain hfree
    have hfree' : ¬w.files.Blocked above.reverse := fun hb => hfree (blocked_concat_iff.2 (.inl hb))
    rw [List.reverse_cons]
    rcases get?_of_not_blocked hfree' with habove | habove
    · have hwalk := (hplace w).trans (walk_of_directory h hplain habove)
      rcases get?_of_not_blocked hfree with hthere | hnone
      · -- it is there already
        refine ⟨w, ?_, .refl h hthere⟩
        unfold makeDirectoriesAt
        simp only [makeDirectory_of_some hwalk hthere, hdir hthere, if_true]
      · refine ⟨_, ?_, (MakesWay.refl h habove).concat hnone hnone⟩
        unfold makeDirectoriesAt
        simp only [makeDirectory_of_none hwalk hnone]
    · obtain ⟨w', hmade, hway⟩ := ih (plain_concat.1 hplain).1 hfree'
      have hnone : w.files.get? (above.reverse ++ [part]) = none := by
        by_contra hsome
        obtain ⟨e, he⟩ := Option.ne_none_iff_exists'.1 hsome
        rw [h.directory_of_concat he] at habove
        cases habove
      have hnone' : w'.files.get? (above.reverse ++ [part]) = none := by
        rcases hway.others (above.reverse ++ [part]) with hsame | ⟨hle, -⟩
        · rw [hsame, hnone]
        · exact absurd hle.length_le (by simp)
      have hwalk := (hplace w').trans (walk_of_directory hway.tree hplain hway.directory)
      refine ⟨_, ?_, hway.concat hnone hnone'⟩
      unfold makeDirectoriesAt
      simp only [makeDirectory_of_error ((hplace w).trans (walk_of_free h hplain hfree' habove)),
        hmade]
      unfold acceptDirectory
      simp only [makeDirectory_of_none hwalk hnone']

end Make

end World

end LiterateEdit
