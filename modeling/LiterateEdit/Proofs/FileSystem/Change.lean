import LiterateEdit.FileSystem.Basic
import LiterateEdit.Proofs.Path.Normal

/-!
# What an operation changes in the file system

Making directories and writing files both put one entry at one place (`FileSystem.get?_set_self`,
`FileSystem.get?_set_of_ne`). What
is left alone by them is said by `World.ChangesOnly spots w w'`: apart from the places `spots`,
everything that stood somewhere in `w` still stands there in `w'`, and what is new are directories;
and no directory is taken away anywhere. Changes compose (`ChangesOnly.trans`), so that a run of
operations changes the places that its steps name.

A path is walked through directories only, so that a walk that succeeds once leads to the same place
after any such change (`ChangesOnly.place`). A path without double dots leads to the place that its
components spell (`place_of_plain`), which is how a normal path is read.
-/

namespace LiterateEdit

namespace FileSystem

variable {fs fs' : FileSystem} {spot here q : Place} {e : Entry} {parts : List Text}

/-! ### Entries -/

/-- The root is a directory, whatever the entries are. -/
@[simp] theorem get?_root (fs : FileSystem) : fs.get? [] = some .directory := if_pos rfl

theorem get?_of_ne (fs : FileSystem) (hq : q ≠ []) :
    fs.get? q = (fs.entries.find? fun x => x.1 = q).map (·.2) := if_neg hq

/-- Where an entry is replaced, the new one is found. -/
theorem find?_replace_self {entries : List (Place × Entry)}
    (h : entries.any (fun x => x.1 = spot) = true) (e : Entry) :
    (entries.map fun x => if x.1 = spot then (spot, e) else x).find? (fun x => x.1 = spot)
      = some (spot, e) := by
  induction entries with
  | nil => cases h
  | cons x rest ih =>
    rw [List.map_cons, List.find?_cons]
    by_cases hx : x.1 = spot
    · simp [hx]
    · have hrest : rest.any (fun x => x.1 = spot) = true := by simpa [hx] using h
      simp only [hx, if_false, decide_false]
      exact ih hrest

/-- An entry at another place is found as before. -/
theorem find?_replace_other (entries : List (Place × Entry)) (hq : q ≠ spot) (e : Entry) :
    (entries.map fun x => if x.1 = spot then (spot, e) else x).find? (fun x => x.1 = q)
      = entries.find? fun x => x.1 = q := by
  induction entries with
  | nil => rfl
  | cons x rest ih =>
    rw [List.map_cons, List.find?_cons, List.find?_cons, ih]
    by_cases hx : x.1 = spot
    · -- the entry is replaced by one that is not at `q` either
      have hne : ¬ x.1 = q := fun h => hq (h.symm.trans hx)
      simp only [hx, if_true, Ne.symm hq, decide_false]
    · simp only [hx, if_false]

/-- What is put at a place stands there. -/
theorem get?_set_self (fs : FileSystem) (hspot : spot ≠ []) (e : Entry) :
    (fs.set spot e).get? spot = some e := by
  rw [get?_of_ne _ hspot, set]
  split
  · next h => rw [find?_replace_self h, Option.map_some]
  · next h =>
    have hnone : fs.entries.find? (fun x => x.1 = spot) = none := by
      rw [List.find?_eq_none]
      intro x hx hat
      exact h (List.any_eq_true.2 ⟨x, hx, hat⟩)
    simp [List.find?_append, hnone]

/-- What stands at another place still does. -/
theorem get?_set_of_ne (fs : FileSystem) (hq : q ≠ spot) (e : Entry) :
    (fs.set spot e).get? q = fs.get? q := by
  by_cases hroot : q = []
  · rw [hroot, get?_root, get?_root]
  rw [get?_of_ne _ hroot, get?_of_ne _ hroot, set]
  split
  · rw [find?_replace_other _ hq]
  · have hlast : [(spot, e)].find? (fun x => x.1 = q) = none := by
      simp [Ne.symm hq]
    rw [List.find?_append, hlast, Option.or_none]

/-! ### Walks -/

/-- A walk without double dots leads to the place that the components spell. -/
theorem walk_of_plain (hplain : ['.', '.'] ∉ parts) (h : fs.walk here parts = .ok q) :
    q = here ++ parts := by
  induction parts generalizing here with
  | nil =>
    rw [walk] at h
    cases h
    rw [List.append_nil]
  | cons part rest ih =>
    have hpart : part ≠ ['.', '.'] := fun h => hplain (h ▸ List.mem_cons_self)
    have hrest : ['.', '.'] ∉ rest := fun h => hplain (List.mem_cons_of_mem part h)
    rw [walk] at h
    split at h
    · cases h
    · next next hstep =>
      -- the step goes one component down
      have hdown : next = here ++ [part] := by
        unfold step at hstep
        split at hstep
        · cases hstep
        · cases hstep
        · rw [if_neg hpart] at hstep
          cases hstep
          rfl
      rw [ih hrest h, hdown, List.append_assoc, List.singleton_append]

/-- A walk is the same as long as the directories are. -/
theorem walk_mono (hdirs : ∀ q, fs.get? q = some .directory → fs'.get? q = some .directory)
    (h : fs.walk here parts = .ok q) : fs'.walk here parts = .ok q := by
  induction parts generalizing here with
  | nil => exact h
  | cons part rest ih =>
    rw [walk] at h ⊢
    split at h
    · cases h
    · next next hstep =>
      have hstep' : fs'.step here part = .ok next := by
        unfold step at hstep ⊢
        split at hstep
        · cases hstep
        · cases hstep
        · next hdir =>
          rw [hdirs here hdir]
          exact hstep
      rw [hstep']
      exact ih h

end FileSystem

namespace World

open FileSystem

variable {w w' w'' : World} {p : Path} {q : Place} {spots spots' : List Place}

/-! ### Changes -/

/-- **What stays.** Outside the places `spots` nothing is changed, but directories may be made where
nothing was; and directories stay everywhere. -/
structure ChangesOnly (spots : List Place) (w w' : World) : Prop where
  cwd : w'.cwd = w.cwd
  directories : ∀ q, w.files.get? q = some .directory → w'.files.get? q = some .directory
  others : ∀ q ∉ spots, w'.files.get? q = w.files.get? q ∨
    (w.files.get? q = none ∧ w'.files.get? q = some .directory)

namespace ChangesOnly

theorem refl (spots : List Place) (w : World) : ChangesOnly spots w w :=
  ⟨rfl, fun _ h => h, fun _ _ => .inl rfl⟩

/-- What two changes in a row change is what either changes. -/
theorem trans (h : ChangesOnly spots w w') (h' : ChangesOnly spots' w' w'') :
    ChangesOnly (spots ++ spots') w w'' := by
  refine ⟨h'.cwd.trans h.cwd, fun q hq => h'.directories q (h.directories q hq), ?_⟩
  intro q hq
  rw [List.mem_append, not_or] at hq
  rcases h.others q hq.1 with hsame | ⟨hnone, hmade⟩
  · rw [← hsame]
    exact h'.others q hq.2
  · -- a directory that was made stays
    exact .inr ⟨hnone, h'.directories q hmade⟩

/-- A path that leads somewhere leads to the same place after the change. -/
theorem place (h : ChangesOnly spots w w') (hp : w.place p = .ok q) : w'.place p = .ok q := by
  rw [World.place] at hp ⊢
  rw [h.cwd]
  exact walk_mono h.directories hp

/-- The files outside the places are the same. -/
theorem file_iff (h : ChangesOnly spots w w') (hq : q ∉ spots) (content : Bytes) :
    w'.files.get? q = some (.file content) ↔ w.files.get? q = some (.file content) := by
  rcases h.others q hq with hsame | ⟨hnone, hmade⟩
  · rw [hsame]
  · simp [hnone, hmade]

/-- Putting an entry where no directory is, or a directory where nothing is. -/
theorem set {spot : Place} {e : Entry} (hspot : w.files.get? spot ≠ some .directory) :
    ChangesOnly [spot] w { w with files := w.files.set spot e } := by
  refine ⟨rfl, fun q hq => ?_, fun q hq => .inl ?_⟩
  · have hother : q ≠ spot := by
      rintro rfl
      exact hspot hq
    rw [get?_set_of_ne _ hother]
    exact hq
  · exact get?_set_of_ne _ (List.ne_of_not_mem_cons hq) e

end ChangesOnly

/-! ### Directories -/

/-- A directory is made where nothing is. -/
theorem changesOnly_makeDirectory (h : w.makeDirectory p = .ok w') : ChangesOnly [] w w' := by
  unfold makeDirectory at h
  cases hp : w.place p with
  | error e =>
    rw [hp] at h
    cases h
  | ok spot =>
    rw [hp] at h
    simp only [bind, Except.bind] at h
    split at h
    · cases h
    · next hnone =>
      cases h
      have hspot : spot ≠ [] := by
        intro hroot
        rw [hroot, get?_root] at hnone
        cases hnone
      have hset := ChangesOnly.set (w := w) (e := .directory) (by rw [hnone]; simp)
      -- the one place that is changed was free
      refine ⟨rfl, hset.directories, fun q _ => ?_⟩
      by_cases hq : q = spot
      · subst hq
        exact .inr ⟨hnone, get?_set_self _ hspot _⟩
      · exact .inl (get?_set_of_ne _ hq _)

theorem changesOnly_acceptDirectory (w : World) (p : Path) :
    ChangesOnly [] w (w.acceptDirectory p).2 := by
  unfold acceptDirectory
  split
  · next hmade => exact changesOnly_makeDirectory hmade
  · exact ChangesOnly.refl [] w

/-- Making a directory with those above it makes directories, also if it fails. -/
theorem changesOnly_makeDirectoriesAt (w : World) (root : Path.Root) (parts : List Text) :
    ChangesOnly [] w (w.makeDirectoriesAt root parts).2 := by
  induction parts generalizing w with
  | nil => exact changesOnly_acceptDirectory w _
  | cons part above ih =>
    unfold makeDirectoriesAt
    simp only
    split
    · next hmade => exact changesOnly_makeDirectory hmade
    · have habove := ih w
      split
      · next heq =>
        rw [heq] at habove
        exact habove
      · next heq =>
        rw [heq] at habove
        exact habove.trans (changesOnly_acceptDirectory _ _)
    · exact ChangesOnly.refl [] w

/-! ### Files -/

/-- Where an absolute path leads does not depend on the current directory. -/
theorem place_of_isAbsolute (habs : p.isAbsolute = true) :
    w.place p = w.files.walk [] p.parts := by
  rw [place, Path.append_of_isAbsolute w.cwd habs]

/-- The place that an absolute path without double dots leads to. -/
theorem place_of_plain (habs : p.isAbsolute = true) (hplain : ['.', '.'] ∉ p.parts)
    (h : w.place p = .ok q) : q = p.parts := by
  rw [place_of_isAbsolute habs] at h
  have hq := walk_of_plain hplain h
  rwa [List.nil_append] at hq

theorem read_eq {content : Bytes} (hp : w.place p = .ok q)
    (hq : w.files.get? q = some (.file content)) : w.read p = .ok content := by
  unfold read stat
  rw [hp]
  simp only [bind, Except.bind, hq]

/-- A file that is read stands at the place of its path. -/
theorem exists_of_read_eq_ok {content : Bytes} (h : w.read p = .ok content) :
    ∃ spot, w.place p = .ok spot ∧ w.files.get? spot = some (.file content) := by
  unfold read stat at h
  cases hp : w.place p with
  | error e =>
    rw [hp] at h
    cases h
  | ok spot =>
    rw [hp] at h
    simp only [bind, Except.bind] at h
    cases he : w.files.get? spot with
    | none =>
      rw [he] at h
      cases h
    | some e =>
      rw [he] at h
      cases e with
      | directory => cases h
      | file content' =>
        cases h
        exact ⟨spot, rfl, he⟩

/-- What is read is still there where only directories were made. -/
theorem ChangesOnly.read_eq {content : Bytes} (h : ChangesOnly [] w w')
    (hread : w.read p = .ok content) : w'.read p = .ok content := by
  obtain ⟨spot, hplace, hfile⟩ := exists_of_read_eq_ok hread
  exact World.read_eq (h.place hplace) ((h.file_iff List.not_mem_nil content).2 hfile)

/-- **Writing a text** puts a file at the place of the path and changes nothing else. -/
theorem writeText_eq_ok {t : Text} (h : w.writeText p t = .ok w') :
    ∃ spot, w.place p = .ok spot ∧ ChangesOnly [spot] w w' ∧
      w'.files.get? spot = some (.file (Utf8.encode t)) := by
  unfold writeText write at h
  cases hp : w.place p with
  | error e =>
    rw [hp] at h
    cases h
  | ok spot =>
    rw [hp] at h
    simp only [bind, Except.bind] at h
    split at h
    · cases h
    · next hnot =>
      split at h
      · cases h
      · cases h
        have hspot : spot ≠ [] := fun hroot => hnot (hroot ▸ get?_root _)
        exact ⟨spot, rfl, ChangesOnly.set hnot, get?_set_self _ hspot _⟩

/-- What was written is read. -/
theorem read_writeText {t : Text} (h : w.writeText p t = .ok w') :
    w'.read p = .ok (Utf8.encode t) := by
  obtain ⟨spot, hplace, hchange, hfile⟩ := writeText_eq_ok h
  exact read_eq (hchange.place hplace) hfile

end World

end LiterateEdit
