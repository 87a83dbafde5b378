import LiterateEdit.Path.Basic
import LiterateEdit.Proofs.Text.Split
import Mathlib.Data.List.Basic

/-!
# Normal paths

The components of a normal path are found one by one, the last one first in the list of those found
so far. A double dot takes away the component before it. If there is none to take away, the root
stays the root, and a relative path starts with the double dot. `pushPart_cases` says this once.

A relative path may be made normal before it is put behind another one (`normal_append_normal`).
The step behind it says that to walk the components found so far and then go on with a component is
to walk what is found with it (`pushPart_walk`). If no double dot is left in the relative path,
nothing of the other one is taken away, and it stands there unchanged (`normal_append`). Double dots
are left only at the front (`head?_normal_parts`).

The text of a path writes that path, so that normal paths with one text are one path
(`ofText_text`).
-/

namespace LiterateEdit

namespace Path

variable {absolute : Bool} {p q r : Path} {done parts : List Text} {part last : Text} {t u : Text}

/-! ### Paths seen from paths -/

theorem isAbsolute_eq_false_iff : p.isAbsolute = false ↔ p.root = .relative := by
  simp [isAbsolute]

/-- An absolute path is the same from everywhere. -/
theorem append_of_isAbsolute (p : Path) (hq : q.isAbsolute = true) : p.append q = q := by
  unfold append
  split
  · next hroot => simp [isAbsolute, hroot] at hq
  · rfl

theorem append_of_relative (p : Path) (hq : q.isAbsolute = false) :
    p.append q = ⟨p.root, p.parts ++ q.parts⟩ := by
  unfold append
  rw [isAbsolute_eq_false_iff.1 hq]

theorem isAbsolute_append (hp : p.isAbsolute = true) : (p.append q).isAbsolute = true := by
  unfold append
  split
  · exact hp
  · next hq => simpa [isAbsolute] using hq

theorem append_append (p q : Path) (hr : r.isAbsolute = false) :
    p.append (q.append r) = (p.append q).append r := by
  cases hq : q.isAbsolute with
  | true =>
    have habs : (q.append r).isAbsolute = true := isAbsolute_append hq
    rw [append_of_isAbsolute p habs, append_of_isAbsolute p hq]
  | false =>
    have hrel : (q.append r).isAbsolute = false := by rwa [append_of_relative q hr]
    rw [append_of_relative p hrel, append_of_relative q hr, append_of_relative (p.append q) hr,
      append_of_relative p hq, List.append_assoc]

theorem append_left_inj (p : Path) (hq : q.isAbsolute = false) (hr : r.isAbsolute = false) :
    p.append q = p.append r ↔ q = r := by
  refine ⟨fun heq => ?_, congrArg p.append⟩
  rw [append_of_relative p hq, append_of_relative p hr] at heq
  obtain ⟨-, hparts⟩ := Path.mk.inj heq
  obtain ⟨root, parts⟩ := q
  obtain ⟨root', parts'⟩ := r
  obtain rfl : root = .relative := isAbsolute_eq_false_iff.1 hq
  obtain rfl : root' = .relative := isAbsolute_eq_false_iff.1 hr
  rw [show parts = parts' from List.append_cancel_left hparts]

/-! ### One component -/

/-- **What one component does** to those found before: a double dot takes the last of them away, or
stays at the root; everything else is put behind them, a double dot only if nothing is before it or
another one is. -/
theorem pushPart_cases (absolute : Bool) (done : List Text) (part : Text) :
    (part = ['.', '.'] ∧ ∃ last rest, done = last :: rest ∧ last ≠ ['.', '.'] ∧
        pushPart absolute done part = rest) ∨
      (part = ['.', '.'] ∧ done = [] ∧ absolute = true ∧ pushPart absolute done part = []) ∨
      (pushPart absolute done part = part :: done ∧
        (part = ['.', '.'] → done = [] ∧ absolute = false ∨ ['.', '.'] ∈ done)) := by
  unfold pushPart
  by_cases hpart : part = ['.', '.']
  · rw [if_pos hpart]
    cases done with
    | nil => cases absolute <;> simp [hpart]
    | cons last rest =>
      by_cases hlast : last = ['.', '.']
      · refine .inr (.inr ⟨if_pos hlast, fun _ => .inr ?_⟩)
        rw [hlast]
        exact List.mem_cons_self
      · exact .inl ⟨hpart, last, rest, rfl, hlast, if_neg hlast⟩
  · rw [if_neg hpart]
    exact .inr (.inr ⟨rfl, fun h => absurd h hpart⟩)

theorem pushPart_of_ne (h : part ≠ ['.', '.']) : pushPart absolute done part = part :: done :=
  if_neg h

/-- A double dot takes away a component that is none. -/
theorem pushPart_back (h : last ≠ ['.', '.']) :
    pushPart absolute (last :: done) ['.', '.'] = done := by
  simp [pushPart, h]

theorem mem_of_mem_pushPart (h : u ∈ pushPart absolute done part) : u = part ∨ u ∈ done := by
  obtain ⟨-, last, rest, rfl, -, hpush⟩ | ⟨-, -, -, hpush⟩ | ⟨hpush, -⟩ :=
    pushPart_cases absolute done part
  · rw [hpush] at h
    exact .inr (List.mem_cons_of_mem last h)
  · rw [hpush] at h
    cases h
  · rw [hpush] at h
    exact List.mem_cons.1 h

/-- Double dots do not get into the components of a normal absolute path. -/
theorem not_mem_pushPart (h : ['.', '.'] ∉ done) (part : Text) :
    ['.', '.'] ∉ pushPart true done part := by
  obtain ⟨-, last, rest, rfl, -, hpush⟩ | ⟨-, -, -, hpush⟩ | ⟨hpush, hdots⟩ :=
    pushPart_cases true done part
  · rw [hpush]
    exact List.not_mem_of_not_mem_cons h
  · rw [hpush]
    exact List.not_mem_nil
  · rw [hpush]
    intro hmem
    rcases List.mem_cons.1 hmem with heq | hmem
    · rcases hdots heq.symm with ⟨-, hfalse⟩ | hmem
      · cases hfalse
      · exact h hmem
    · exact h hmem

/-- If a relative path has double dots, the first component is one. -/
theorem getLast?_pushPart (h : ['.', '.'] ∈ done → done.getLast? = some ['.', '.']) (part : Text)
    (hmem : ['.', '.'] ∈ pushPart false done part) :
    (pushPart false done part).getLast? = some ['.', '.'] := by
  obtain ⟨-, last, rest, rfl, -, hpush⟩ | ⟨-, -, hfalse, -⟩ | ⟨hpush, hdots⟩ :=
    pushPart_cases false done part
  · -- there is a double dot below the component that is taken away, so the lowest one stays
    rw [hpush] at hmem ⊢
    have hlast := h (List.mem_cons_of_mem last hmem)
    rwa [List.getLast?_cons_of_ne_nil (List.ne_nil_of_mem hmem)] at hlast
  · cases hfalse
  · -- a double dot that is put down is the first component, or there was one before it
    rw [hpush] at hmem ⊢
    have hbefore : done = [] ∧ part = ['.', '.'] ∨ ['.', '.'] ∈ done := by
      rcases List.mem_cons.1 hmem with heq | hmem
      · exact (hdots heq.symm).imp (fun hnil => ⟨hnil.1, heq.symm⟩) id
      · exact .inr hmem
    rcases hbefore with ⟨rfl, rfl⟩ | hdone
    · rfl
    · rw [List.getLast?_cons_of_ne_nil (List.ne_nil_of_mem hdone)]
      exact h hdone

/-- **To walk what was found and go on** with a component is to walk what is found with it. -/
theorem pushPart_walk (done front : List Text) (part : Text) :
    (pushPart false done part).reverse.foldl (pushPart absolute) front
      = pushPart absolute (done.reverse.foldl (pushPart absolute) front) part := by
  obtain ⟨rfl, last, rest, rfl, hlast, hpush⟩ | ⟨-, -, hfalse, -⟩ | ⟨hpush, -⟩ :=
    pushPart_cases false done part
  · rw [hpush, List.reverse_cons, List.foldl_concat, pushPart_of_ne hlast, pushPart_back hlast]
  · cases hfalse
  · rw [hpush, List.reverse_cons, List.foldl_concat]

/-! ### All components -/

/-- The run of `pushPart_walk`. The induction is over the components to come, whatever was found
before them. -/
theorem foldl_pushPart_walk (done front parts : List Text) :
    (parts.foldl (pushPart false) done).reverse.foldl (pushPart absolute) front
      = parts.foldl (pushPart absolute) (done.reverse.foldl (pushPart absolute) front) := by
  induction parts generalizing done with
  | nil => rfl
  | cons part rest ih => rw [List.foldl_cons, ih, pushPart_walk, List.foldl_cons]

/-- What holds of no components and is kept by each holds of the components of a normal path. -/
theorem normal_parts_induction {motive : List Text → Prop} (p : Path) (hnil : motive [])
    (hstep : ∀ done part, part ∈ p.parts → motive done → motive (pushPart p.isAbsolute done part)) :
    motive p.normal.parts.reverse := by
  rw [normal, List.reverse_reverse]
  exact List.foldlRecOn p.parts (pushPart p.isAbsolute) hnil fun done h part hmem =>
    hstep done part hmem h

theorem mem_of_mem_normal_parts (h : part ∈ p.normal.parts) : part ∈ p.parts := by
  have hall := normal_parts_induction (motive := fun done => ∀ u ∈ done, u ∈ p.parts) p nofun
    fun done part hpart ih u hu => by
      rcases mem_of_mem_pushPart hu with rfl | hu
      · exact hpart
      · exact ih u hu
  exact hall part (List.mem_reverse.2 h)

theorem not_mem_normal_parts (hp : p.isAbsolute = true) : ['.', '.'] ∉ p.normal.parts := by
  have hnone := normal_parts_induction (motive := fun done => ['.', '.'] ∉ done) p
    List.not_mem_nil fun done part _ ih => by
      rw [hp]
      exact not_mem_pushPart ih part
  exact mt List.mem_reverse.2 hnone

/-- **Double dots lead a normal path**, if there are any. -/
theorem head?_normal_parts (hp : p.isAbsolute = false) (h : ['.', '.'] ∈ p.normal.parts) :
    p.normal.parts.head? = some ['.', '.'] := by
  have hlast := normal_parts_induction
    (motive := fun done => ['.', '.'] ∈ done → done.getLast? = some ['.', '.']) p nofun
    fun done part _ ih => by
      rw [hp]
      exact getLast?_pushPart ih part
  rw [← List.getLast?_reverse]
  exact hlast (List.mem_reverse.2 h)

/-- Components without double dots are put behind those before. -/
theorem foldl_pushPart_of_plain (h : ['.', '.'] ∉ parts) :
    parts.foldl (pushPart absolute) done = parts.reverse ++ done := by
  induction parts generalizing done with
  | nil => rfl
  | cons part rest ih =>
    rw [List.foldl_cons, pushPart_of_ne (List.ne_of_not_mem_cons h).symm,
      ih (List.not_mem_of_not_mem_cons h), List.reverse_cons, List.append_assoc,
      List.singleton_append]

/-- A path without double dots is its own normal form. -/
theorem normal_of_plain (hplain : ['.', '.'] ∉ p.parts) : p.normal = p := by
  rw [normal, foldl_pushPart_of_plain hplain, List.append_nil, List.reverse_reverse]

/-! ### Normal paths behind paths -/

/-- **A relative path may be made normal first.** -/
theorem normal_append_normal (p : Path) (hq : q.isAbsolute = false) :
    (p.append q.normal).normal = (p.append q).normal := by
  have hrel : q.normal.isAbsolute = false := hq
  rw [append_of_relative p hq, append_of_relative p hrel]
  unfold normal
  simp only [hq, List.foldl_append, foldl_pushPart_walk, List.reverse_nil, List.foldl_nil]
  rfl

/-- **A path that does not lead up** stands in its normal form behind that of the other one. -/
theorem normal_append (p : Path) (hq : q.isAbsolute = false)
    (hplain : ['.', '.'] ∉ q.normal.parts) : (p.append q).normal = p.normal.append q.normal := by
  have hrel : q.normal.isAbsolute = false := hq
  rw [← normal_append_normal p hq, append_of_relative p hrel, append_of_relative p.normal hrel]
  unfold normal at hplain ⊢
  rw [List.foldl_append, foldl_pushPart_of_plain hplain, List.reverse_append, List.reverse_reverse]
  rfl

/-! ### The text of a path -/

/-- A component as the text of a path may have it: not empty, no single dot, and without slashes. -/
structure IsProper (part : Text) : Prop where
  ne_nil : part ≠ []
  ne_dot : part ≠ ['.']
  no_slash : '/' ∉ part

theorem isProper_of_mem_partsOfText (h : part ∈ partsOfText t) : IsProper part := by
  obtain ⟨hmem, hkept⟩ := List.mem_filter.1 h
  obtain ⟨hne, hdot⟩ := of_decide_eq_true hkept
  exact ⟨hne, hdot, Text.not_mem_of_mem_splitOn hmem⟩

/-- Proper components are read back. -/
theorem partsOfText_join (h : ∀ part ∈ parts, IsProper part) :
    partsOfText (Text.join ['/'] parts) = parts := by
  by_cases hnil : parts = []
  · rw [hnil]
    rfl
  · rw [partsOfText, Text.splitOn_join hnil fun part hpart => (h part hpart).no_slash,
      List.filter_eq_self]
    exact fun part hpart => decide_eq_true ⟨(h part hpart).ne_nil, (h part hpart).ne_dot⟩

theorem head?_join (h : ∀ part ∈ parts, IsProper part) :
    (Text.join ['/'] parts).head? ≠ some '/' := by
  cases parts with
  | nil => exact nofun
  | cons part rest =>
    obtain ⟨hne, -, hslash⟩ := h part List.mem_cons_self
    have hhead : (Text.join ['/'] (part :: rest)).head? = part.head? := by
      cases rest with
      | nil => rfl
      | cons next rest =>
        rw [Text.join_cons_cons, List.append_assoc, List.head?_append_of_ne_nil part hne]
    rw [hhead]
    exact fun heq => hslash (List.mem_of_head? heq)

theorem Root.ofText_append (r : Root) (h : t.head? ≠ some '/') : Root.ofText (r.text ++ t) = r := by
  cases t with
  | nil => cases r <;> rfl
  | cons c t =>
    have hc : c ≠ '/' := fun heq => h (congrArg some heq)
    cases r <;> simp [Root.text, Root.ofText, hc]

theorem partsOfText_root (r : Root) (t : Text) : partsOfText (r.text ++ t) = partsOfText t := by
  cases r with
  | relative => rfl
  | slash => simp [Root.text, partsOfText, Text.splitOn]
  | doubleSlash => simp [Root.text, partsOfText, Text.splitOn]

/-- **The text of a path writes it**, if its components are proper. -/
theorem ofText_text (h : ∀ part ∈ p.parts, IsProper part) : ofText p.text = p := by
  obtain ⟨r, parts⟩ := p
  have hwritten : ofText (r.text ++ Text.join ['/'] parts) = ⟨r, parts⟩ := by
    rw [ofText, Root.ofText_append r (head?_join h), partsOfText_root, partsOfText_join h]
  unfold text
  split
  · -- the path to where one is has no text of its own, and is written as a dot
    next hroot hnil =>
    obtain rfl : r = .relative := hroot
    obtain rfl : parts = [] := hnil
    rfl
  · exact hwritten

/-- Normal paths with one text are one path. -/
theorem normal_text_inj : (ofText t).normal.text = (ofText u).normal.text ↔
    (ofText t).normal = (ofText u).normal := by
  have hproper : ∀ t : Text, ∀ part ∈ (ofText t).normal.parts, IsProper part := fun t part h =>
    isProper_of_mem_partsOfText (mem_of_mem_normal_parts h)
  refine ⟨fun heq => ?_, congrArg text⟩
  calc (ofText t).normal
      = ofText (ofText t).normal.text := (ofText_text (hproper t)).symm
    _ = ofText (ofText u).normal.text := by rw [heq]
    _ = (ofText u).normal := ofText_text (hproper u)

end Path

end LiterateEdit
