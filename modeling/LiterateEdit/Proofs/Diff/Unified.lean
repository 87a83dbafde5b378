import LiterateEdit.Proofs.Diff.Feeds
import LiterateEdit.Proofs.Diff.Identical

/-!
# Unified diffs of texts are faithful

A diff of two texts is empty just if they are equal, and its lines, as they are made, make the old
lines into the new ones. As a text the diff can be read if the two ways of cutting lines agree on
both texts, with one exception (`unified_faithful`). If the last lines are replaced and the last old
line has no line feed, the first line that comes is written right behind it. Whoever reads the diff
finds one line there, which is none of the old text (`patchLines_of_unfed`).
-/

namespace LiterateEdit.Diff

open Text (IsFeedLine feedLines)

variable {old new : List Text} {i j i' j' n a b : Nat} {c : Change} {cs g : List Change}
  {gs : List (List Change)} {l p : Text} {ls : List Text} {context : Int}

/-! ### Lines that run into each other -/

/-- Lines with their feeds are found before whatever follows. -/
theorem feedLines_append (h : ∀ l ∈ ls, IsFeedLine l) (t : Text) :
    feedLines (ls.flatten ++ t) = ls ++ feedLines t := by
  induction ls with
  | nil => rfl
  | cons l ls ih =>
    obtain ⟨⟨u, hu, rfl⟩, hls⟩ := List.forall_mem_cons.1 h
    rw [List.flatten_cons, List.append_assoc, List.append_assoc]
    exact (Text.feedLines_row hu _).trans (congrArg _ (ih hls))

/-- The first line goes on behind characters that are no feed. -/
theorem exists_feedLines_append (hl : '\n' ∉ l) {d : Char} (hd : d ≠ '\n') (t : Text) :
    ∃ u ls, feedLines (l ++ d :: t) = (l ++ d :: u) :: ls := by
  induction l with
  | nil =>
    rw [List.nil_append, feedLines, if_neg hd]
    cases feedLines t with
    | nil => exact ⟨[], [], rfl⟩
    | cons u ls => exact ⟨u, ls, rfl⟩
  | cons e l ih =>
    obtain ⟨he, hl⟩ := not_or.1 (mt List.mem_cons.2 hl)
    obtain ⟨u, ls, hlines⟩ := ih hl
    refine ⟨u, ls, ?_⟩
    rw [List.cons_append, feedLines, if_neg (Ne.symm he), hlines]
    rfl

/-- **A line that goes and lacks its feed** is found together with the line that comes behind it. -/
theorem exists_merged (hls : ∀ l ∈ ls, IsFeedLine l) (hp : '\n' ∉ p) (q : Text)
    (rest : List Text) :
    ∃ u ls', feedLines (ls ++ ('-' :: p) :: ('+' :: q) :: rest).flatten =
      ls ++ ('-' :: (p ++ '+' :: u)) :: ls' := by
  have hmark : '\n' ∉ '-' :: p := List.not_mem_cons_of_ne_of_not_mem (by decide) hp
  obtain ⟨u, ls', hlines⟩ :=
    exists_feedLines_append hmark (by decide : '+' ≠ '\n') (q ++ rest.flatten)
  refine ⟨u, ls', ?_⟩
  rw [List.flatten_append, feedLines_append hls]
  exact congrArg (ls ++ ·) hlines

/-- A line that goes has to be there, so the reader stops at another one. -/
theorem read_deleted_of_ne (hp : old[i + n]? = some p) (hne : p ≠ l) (rest : List Text) :
    (((old.drop i).take n).map ('-' :: ·) ++ ('-' :: l) :: rest).foldlM Reader.step
      (readerAt old new i j (n + 1) b) = none := by
  obtain ⟨hi, rfl⟩ := List.getElem?_eq_some_iff.1 hp
  have hdrop : old.drop (i + n) = old[i + n] :: old.drop (i + n + 1) :=
    List.drop_eq_getElem_cons hi
  have hstep : (readerAt old new (i + n) j 1 b).step ('-' :: l) = none := by
    rw [step_readerAt (by omega)]
    show (readerAt old new (i + n) j 1 b).pass l = none
    rw [readerAt, Reader.pass, hdrop]
    exact if_neg hne
  rw [List.foldlM_append, read_deleted (Nat.le_of_lt hi), Option.bind_eq_bind, Option.bind_some,
    List.foldlM_cons, hstep]
  rfl

/-! ### The hunks up to the last change -/

theorem take_succ_drop {ls : List Text} (h : i + (n + 1) ≤ ls.length) :
    ∃ l, ls[i]? = some l ∧ (ls.drop i).take (n + 1) = l :: (ls.drop (i + 1)).take n := by
  have hi : i < ls.length := by omega
  refine ⟨ls[i], List.getElem?_eq_getElem hi, ?_⟩
  rw [List.drop_eq_getElem_cons hi, List.take_succ_cons]

/-- Lines that are replaced at the end are the last change of the last group. -/
theorem EndsReplaced.exists_groups (h : EndsReplaced old new) (hcontext : 0 ≤ context) :
    ∃ (gs : List (List Change)) (g : List Change) (c : Change),
      groups context old new = gs ++ [g ++ [c]] ∧ c.kind = .replace ∧ c.oldHigh = old.length := by
  obtain ⟨c, hlast, hkind⟩ := Option.map_eq_some_iff.1 h
  obtain ⟨cs, hchanges⟩ := List.getLast?_eq_some_iff.1 hlast
  have hne : c.kind ≠ .equal := by
    rw [hkind]
    exact nofun
  have hend : c.oldHigh = old.length := by
    have hscript := script_changes old new
    rw [hchanges] at hscript
    obtain ⟨_, _, -, hback⟩ := script_append_iff.1 hscript
    exact (script_singleton_iff.1 hback).places.2.1
  obtain ⟨cs', htrim⟩ := exists_trimEnds_concat hne context cs
  obtain ⟨gs, g, hgroups⟩ := exists_groupsFrom_concat hne context [] cs'
  refine ⟨gs, g, c, ?_, hkind, hend⟩
  rw [groups_eq hcontext, hchanges, htrim, hgroups]

/-- What is before the last change has its feeds, and is read up to where the change starts. -/
theorem Hunks.exists_front (hold : NearlyFed old) (hnew : NearlyFed new)
    (h : Hunks old new i j (gs ++ [g ++ [c]]) old.length new.length)
    (hinner : InnerBut old new (gs ++ [g ++ [c]]).flatten) :
    ∃ front a b a' b', (gs ++ [g ++ [c]]).flatMap (hunk old new) = front ++ c.lines old new ∧
      (∀ l ∈ front, IsFeedLine l) ∧ Leads old new a b c a' b' ∧
      front.foldlM Reader.step (readerAt old new i j 0 0) =
        some (readerAt old new a b (a' - a) (b' - b)) := by
  have hflatten : (gs ++ [g ++ [c]]).flatten = gs.flatten ++ g ++ [c] := by
    rw [List.flatten_append, List.flatten_cons, List.flatten_nil, List.append_nil,
      List.append_assoc]
  rw [hflatten] at hinner
  have hall : ∀ d ∈ gs.flatten ++ g, Inner old new d := fun d hd =>
    (List.pairwise_append.1 hinner).2.2 d hd c (List.mem_singleton_self c)
  obtain ⟨hgs, hg⟩ := List.forall_mem_append.1 hall
  -- the hunks before the last one, and what of the last one is before its last change
  obtain ⟨x, y, hfront, hback⟩ := h.of_append
  obtain ⟨x', y', hread, hskip⟩ := read_hunks hfront
  cases hback with
  | @cons _ _ u v a' b' _ _ _ _ hskip' hne hlast hnil =>
    obtain ⟨head, hhunk, hhead, hstep⟩ := exists_header (hskip.trans hskip') hne hlast
    obtain ⟨a, b, hscript, hc⟩ := script_append_iff.1 hlast
    have hc := script_singleton_iff.1 hc
    refine ⟨gs.flatMap (hunk old new) ++ head :: g.flatMap (Change.lines old new), a, b, a', b',
      ?_, ?_, hc, ?_⟩
    · rw [List.flatMap_append, List.flatMap_singleton, hhunk, List.flatMap_append,
        List.flatMap_singleton, List.append_assoc]
      rfl
    · exact List.forall_mem_append.2 ⟨hfront.fed hold hnew hgs,
        List.forall_mem_cons.2 ⟨hhead, hscript.fed hold hnew hg⟩⟩
    · obtain ⟨hu, hv, -, -⟩ := hscript.bounds
      obtain ⟨ha, hb, -, -⟩ := hc.bounds
      have hleft : a' - u = a - u + (a' - a) := by omega
      have hleft' : b' - v = b - v + (b' - b) := by omega
      rw [List.foldlM_append, hread, Option.bind_eq_bind, Option.bind_some, List.foldlM_cons, hstep,
        hleft, hleft']
      exact read_script hscript

/-- **A replaced last line without its feed** is not found again. -/
theorem patchLines_of_unfed {path : Text} (hold : NearlyFed old) (hnew : NearlyFed new)
    (hpath : '\n' ∉ path) (hcontext : 0 ≤ context) (hreplaced : EndsReplaced old new)
    (hunfed : ¬∀ l ∈ old, IsFeedLine l) :
    patchLines old (feedLines (unifiedLines old new path context).flatten) = none := by
  obtain ⟨gs, g, c, hgroups, hkind, hend⟩ := hreplaced.exists_groups hcontext
  have hhunks := hunks_groups hcontext old new
  have hinner := innerBut_groups hcontext old new
  rw [hgroups] at hhunks hinner
  obtain ⟨front, i, j, i', j', hlines, hfront, hc, hread⟩ := hhunks.exists_front hold hnew hinner
  have hunified : unifiedLines old new path context = names path ++ (front ++ c.lines old new) := by
    rw [← hlines, ← hgroups]
    unfold unifiedLines
    split
    · next hnil =>
      rw [hnil] at hgroups
      exact absurd hgroups.symm (List.append_ne_nil_of_right_ne_nil gs (List.cons_ne_nil _ _))
    · rfl
  cases hc with
  | equal | delete | insert => cases hkind
  | @replace n k hn hk hi hj =>
    obtain ⟨n, rfl⟩ := Nat.exists_eq_add_one_of_ne_zero (Nat.ne_of_gt hn)
    obtain ⟨k, rfl⟩ := Nat.exists_eq_add_one_of_ne_zero (Nat.ne_of_gt hk)
    have hend : i + (n + 1) = old.length := Int.ofNat_inj.1 hend
    -- the last old line and the first line that comes
    obtain ⟨p, hp⟩ : ∃ p, old[i + n]? = some p := ⟨_, List.getElem?_eq_getElem (by omega)⟩
    obtain ⟨q, -, hnews⟩ := take_succ_drop hj
    have holds : (old.drop i).take (n + 1) = (old.drop i).take n ++ [p] := by
      rw [List.take_add_one, List.getElem?_drop, hp]
      rfl
    have hbefore : ∀ l ∈ (old.drop i).take n, IsFeedLine l := hold.fed_of_lt (by omega)
    -- some old line lacks its feed, and only the last one may
    have hfeed : '\n' ∉ p := by
      refine hold.not_mem_last hunfed ?_
      rwa [List.getLast?_eq_getElem?, ← hend, ← Nat.add_assoc, Nat.add_sub_cancel]
    have hfed : ∀ l ∈ names path ++ (front ++ ((old.drop i).take n).map ('-' :: ·)),
        IsFeedLine l :=
      List.forall_mem_append.2 ⟨fed_names hpath,
        List.forall_mem_append.2 ⟨hfront, fed_map_cons (by decide) hbefore⟩⟩
    have hlines : unifiedLines old new path context =
        names path ++ (front ++ ((old.drop i).take n).map ('-' :: ·)) ++
          ('-' :: p) :: ('+' :: q) :: ((new.drop (j + 1)).take k).map ('+' :: ·) := by
      rw [hunified, lines_replace hi hj, holds, hnews, List.map_append]
      simp only [List.append_assoc]
      rfl
    -- both are found as one line, and the old one is no such line
    obtain ⟨u, ls, hmerged⟩ := exists_merged hfed hfeed q _
    have hne : p ≠ p ++ '+' :: u := fun heq =>
      absurd (List.self_eq_append_right.1 heq) (List.cons_ne_nil _ _)
    rw [Nat.add_sub_cancel_left, Nat.add_sub_cancel_left] at hread
    rw [hlines, hmerged, List.append_assoc, patchLines_names, List.append_assoc,
      List.foldlM_append, hread]
    exact congrArg (·.bind Reader.finish) (read_deleted_of_ne hp hne ls)

/-- Lines that are replaced are there. -/
theorem EndsReplaced.ne_nil (h : EndsReplaced old new) : old ≠ [] := by
  obtain ⟨c, hlast, hkind⟩ := Option.map_eq_some_iff.1 h
  obtain ⟨_, _, _, _, hleads, -, -⟩ :=
    (script_changes old new).leads_of_mem (List.mem_of_getLast? hlast)
  cases hleads with
  | equal | delete | insert => cases hkind
  | replace hn hk hi hj =>
    rintro rfl
    rw [List.length_nil] at hi
    omega

/-! ### Diffs of texts -/

/-- Lines with their feeds make a text that ends in one. -/
theorem getLast?_flatten_of_fed (hne : ls ≠ []) (h : ∀ l ∈ ls, IsFeedLine l) :
    ls.flatten.getLast? = some '\n' := by
  obtain ⟨front, l, rfl⟩ := (List.eq_nil_or_concat ls).resolve_left hne
  rw [List.concat_eq_append] at h ⊢
  obtain ⟨u, -, rfl⟩ := h l (List.mem_append_right _ (List.mem_singleton_self l))
  rw [List.flatten_append, List.flatten_singleton, ← List.append_assoc]
  exact List.getLast?_concat

theorem unified_eq_nil_iff {old new path : Text} (h : 0 ≤ context) :
    unified old new path context = [] ↔ old = new := by
  constructor
  · intro hempty
    have hlines : unifiedLines (Text.lines old) (Text.lines new) path context = [] := by
      cases hgroups : groups context (Text.lines old) (Text.lines new) with
      | nil => rw [unifiedLines, hgroups]
      | cons g gs =>
        -- the names of the texts are some text
        rw [unified, unifiedLines, hgroups] at hempty
        cases hempty
    have hpatch := patchLines_unifiedLines (Text.lines old) (Text.lines new) path h
    -- an empty diff leaves the lines as they are, and makes the old ones into the new ones
    rw [hlines] at hpatch
    calc old = (Text.lines old).flatten := (Text.join_lines old).symm
      _ = (Text.lines new).flatten := congrArg List.flatten (Option.some.inj hpatch)
      _ = new := Text.join_lines new
  · rintro rfl
    rw [unified, unifiedLines, groups_self h]
    rfl

/-- **A diff of texts is faithful.** It is empty just if the texts are equal, and its lines make the
old lines into the new ones. If both texts are cut into the same lines in both ways, the diff is
read from the text it is: it makes the old text into the new one, unless the last lines are replaced
and the old text does not end in a line feed. -/
theorem unified_faithful (old new path : Text) (context : Int) (hpath : '\n' ∉ path)
    (hcontext : 0 ≤ context) :
    (unified old new path context = [] ↔ old = new) ∧
      patchLines (Text.lines old) (unifiedLines (Text.lines old) (Text.lines new) path context) =
        some (Text.lines new) ∧
      (Text.lines old = feedLines old → Text.lines new = feedLines new →
        (patch old (unified old new path context) = some new ↔
          (EndsReplaced (Text.lines old) (Text.lines new) → old.getLast? = some '\n'))) := by
  refine ⟨unified_eq_nil_iff hcontext, patchLines_unifiedLines _ _ path hcontext, ?_⟩
  intro hold hnew
  have holdFed : NearlyFed (Text.lines old) := hold ▸ nearlyFed_feedLines old
  have hnewFed : NearlyFed (Text.lines new) := hnew ▸ nearlyFed_feedLines new
  rw [patch, unified, ← hold]
  constructor
  · intro hpatch hreplaced
    by_contra hlast
    -- a text whose lines all have their feeds ends in one
    have hunfed : ¬∀ l ∈ Text.lines old, IsFeedLine l := fun hfed => hlast <| by
      have hend := getLast?_flatten_of_fed hreplaced.ne_nil hfed
      rwa [Text.join_lines] at hend
    rw [patchLines_of_unfed holdFed hnewFed hpath hcontext hreplaced hunfed] at hpatch
    cases hpatch
  · intro hlast
    have hfed : EndsReplaced (Text.lines old) (Text.lines new) →
        ∀ l ∈ Text.lines old, IsFeedLine l := fun hreplaced => by
      rw [hold]
      exact Text.isFeedLine_of_mem_feedLines (.inr (hlast hreplaced))
    have hfound := (nearlyFed_unifiedLines holdFed hnewFed hpath hcontext hfed).feedLines_flatten
    rw [hfound, patchLines_unifiedLines _ _ path hcontext, Option.map_some, Text.join_lines]

/-- The new text lacks its last line feed, and the last old line stays. -/
theorem unified_faithful_unfed_end :
    '\n' ∉ Text.lit "doc.md" ∧ (0 : Int) ≤ defaultContext ∧
      patch (Text.lit "a\nb\nc\n") (unified (Text.lit "a\nb\nc\n") (Text.lit "a\nc\nd")
        (Text.lit "doc.md") defaultContext) = some (Text.lit "a\nc\nd") := by
  have hpath : '\n' ∉ Text.lit "doc.md" := by decide
  have hcontext : (0 : Int) ≤ defaultContext := by decide
  refine ⟨hpath, hcontext, ?_⟩
  refine ((unified_faithful _ _ _ _ hpath hcontext).2.2 ?_ ?_).2 fun _ => rfl
  · decide +kernel
  · decide +kernel

/-- A last line without its feed that is replaced is not found again. -/
example : EndsReplaced [Text.lit "a"] [Text.lit "b"] ∧
    patch (Text.lit "a") (unified (Text.lit "a") (Text.lit "b") (Text.lit "doc.md") 3) = none := by
  decide +kernel

end LiterateEdit.Diff
