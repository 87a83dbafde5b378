import LiterateEdit.Proofs.Diff.Patch

/-!
# Which lines of a diff end in a line feed

A diff is given as one text, so whoever reads it has to find its lines again. They are found if all
of them end in a line feed but for the last one, which may have none (`NearlyFed`), and the lines of
a text are like this when it is cut at line feeds.

The last line of a text is shown in a change that ends where the text does. Each change but the last
one ends before the end of a text, or of both if it is no change of lines that stay (`Inner`), and
so its lines have their feeds (`Leads.feeds_of_inner`). Grouping keeps this: a stretch that is cut
in two ends before it did (`innerBut_groups`). A last change shows the last line of one text at its
end, unless it shows those of both, the old one before the lines that come. That is the only line of
a diff that may lack its feed with others behind it (`nearlyFed_unifiedLines`).
-/

namespace LiterateEdit.Diff

open Text (IsFeedLine feedLines)

variable {old new : List Text} {i j i' j' n : Nat} {c : Change} {cs g : List Change}
  {gs : List (List Change)} {l : Text} {ls ls' : List Text} {context : Int}

/-! ### Lines with their feeds -/

/-- Lines of which only the last one may lack its line feed. -/
structure NearlyFed (ls : List Text) : Prop where
  before : ls.Pairwise fun l _ => IsFeedLine l
  all : ∀ l ∈ ls, IsFeedLine l ∨ l ≠ [] ∧ '\n' ∉ l

/-- **The lines are found again** in the text they make. -/
theorem NearlyFed.feedLines_flatten (h : NearlyFed ls) : feedLines ls.flatten = ls :=
  Text.feedLines_flatten h.before h.all

theorem NearlyFed.nil : NearlyFed [] := ⟨.nil, nofun⟩

theorem NearlyFed.cons (hl : IsFeedLine l) (h : NearlyFed ls) : NearlyFed (l :: ls) :=
  ⟨List.pairwise_cons.2 ⟨fun _ _ => hl, h.before⟩, List.forall_mem_cons.2 ⟨.inl hl, h.all⟩⟩

theorem NearlyFed.append (hls : ∀ l ∈ ls, IsFeedLine l) (h : NearlyFed ls') :
    NearlyFed (ls ++ ls') := by
  induction ls with
  | nil => exact h
  | cons l ls ih =>
    obtain ⟨hl, hls⟩ := List.forall_mem_cons.1 hls
    exact .cons hl (ih hls)

theorem NearlyFed.sublist (h : NearlyFed ls) (hsub : ls'.Sublist ls) : NearlyFed ls' :=
  ⟨h.before.sublist hsub, fun l hl => h.all l (hsub.subset hl)⟩

/-- Lines that another one follows have their feeds. -/
theorem NearlyFed.fed_of_append (h : NearlyFed (ls ++ ls')) (hne : ls' ≠ []) :
    ∀ l ∈ ls, IsFeedLine l := by
  obtain ⟨l', hl'⟩ := List.exists_mem_of_ne_nil ls' hne
  exact fun l hl => (List.pairwise_append.1 h.before).2.2 l hl l' hl'

/-- If not all lines have their feeds, the last one has none. -/
theorem NearlyFed.not_mem_last (h : NearlyFed ls) (hunfed : ¬∀ l ∈ ls, IsFeedLine l)
    (hl : ls.getLast? = some l) : '\n' ∉ l := by
  obtain ⟨front, rfl⟩ := List.getLast?_eq_some_iff.1 hl
  have hfront := h.fed_of_append (List.cons_ne_nil l [])
  refine ((h.all l (List.mem_append_right _ (List.mem_singleton_self l))).resolve_left ?_).2
  exact fun hfed => hunfed (List.forall_mem_append.2 ⟨hfront, List.forall_mem_singleton.2 hfed⟩)

/-- The lines before the last one have their feeds. -/
theorem NearlyFed.fed_of_lt (h : NearlyFed ls) (hlt : i + n < ls.length) :
    ∀ l ∈ (ls.drop i).take n, IsFeedLine l := by
  intro l hl
  have hne : ls.drop (i + n) ≠ [] := List.drop_eq_nil_iff.not.2 (Nat.not_le.2 hlt)
  rw [← List.take_append_drop (i + n) ls] at h
  refine h.fed_of_append hne l ?_
  rw [List.take_add]
  exact List.mem_append_right _ hl

/-- A character before a line is not its feed. -/
theorem isFeedLine_cons {d : Char} (hd : d ≠ '\n') (hl : IsFeedLine l) : IsFeedLine (d :: l) := by
  obtain ⟨u, hu, rfl⟩ := hl
  exact ⟨d :: u, List.not_mem_cons_of_ne_of_not_mem hd.symm hu, rfl⟩

/-- It gives no feed to a line that lacks it. -/
theorem fed_or_unfed_cons {d : Char} (hd : d ≠ '\n') (hl : IsFeedLine l ∨ l ≠ [] ∧ '\n' ∉ l) :
    IsFeedLine (d :: l) ∨ d :: l ≠ [] ∧ '\n' ∉ d :: l :=
  hl.imp (isFeedLine_cons hd) fun h =>
    ⟨List.cons_ne_nil d l, List.not_mem_cons_of_ne_of_not_mem hd.symm h.2⟩

/-- The lines of any text, cut at line feeds. -/
theorem nearlyFed_feedLines (t : Text) : NearlyFed (feedLines t) := by
  induction t with
  | nil => exact .nil
  | cons c t ih =>
    rw [feedLines]
    split
    · next hfeed => exact .cons ⟨[], List.not_mem_nil, congrArg ([·]) hfeed⟩ ih
    · next hfeed =>
      cases hlines : feedLines t with
      | nil =>
        -- the last character is a line of its own that has no feed
        refine ⟨List.pairwise_singleton _ _, List.forall_mem_singleton.2 (.inr ?_)⟩
        exact ⟨List.cons_ne_nil c [], fun hmem => hfeed (List.mem_singleton.1 hmem).symm⟩
      | cons l ls =>
        rw [hlines] at ih
        obtain ⟨hbefore, hrest⟩ := List.pairwise_cons.1 ih.before
        obtain ⟨hl, hall⟩ := List.forall_mem_cons.1 ih.all
        exact ⟨List.pairwise_cons.2 ⟨fun l' hl' => isFeedLine_cons hfeed (hbefore l' hl'), hrest⟩,
          List.forall_mem_cons.2 ⟨fed_or_unfed_cons hfeed hl, hall⟩⟩

theorem fed_map_cons {mark : Char} (hmark : mark ≠ '\n') (h : ∀ l ∈ ls, IsFeedLine l) :
    ∀ l ∈ ls.map (mark :: ·), IsFeedLine l :=
  List.forall_mem_map.2 fun l hl => isFeedLine_cons hmark (h l hl)

theorem NearlyFed.map_cons {mark : Char} (hmark : mark ≠ '\n') (h : NearlyFed ls) :
    NearlyFed (ls.map (mark :: ·)) :=
  ⟨List.pairwise_map.2 (h.before.imp fun hl => isFeedLine_cons hmark hl),
    List.forall_mem_map.2 fun l hl => fed_or_unfed_cons hmark (h.all l hl)⟩

/-! ### Changes that end before the texts do -/

/-- The change ends before both texts do, or one of them if its lines stay. -/
def Inner (old new : List Text) (c : Change) : Prop :=
  c.oldHigh < old.length ∧ c.newHigh < new.length ∨
    c.kind = .equal ∧ (c.oldHigh < old.length ∨ c.newHigh < new.length)

theorem Inner.lt (h : Inner old new c) (hkind : c.kind ≠ .equal) :
    c.oldHigh < old.length ∧ c.newHigh < new.length :=
  h.resolve_right fun hequal => hkind hequal.1

/-- **The lines of an inner change have their feeds.** -/
theorem Leads.feeds_of_inner (hold : NearlyFed old) (hnew : NearlyFed new)
    (h : Leads old new i j c i' j') (hc : Inner old new c) :
    ∀ l ∈ c.lines old new, IsFeedLine l := by
  cases h with
  | @equal n h =>
    rw [lines_equal h.old_le]
    apply fed_map_cons (by decide)
    -- lines that stay are in both texts, so it is enough that they end before one of them does
    have hend : i + n < old.length ∨ j + n < new.length := by
      rcases hc with ⟨hlt, -⟩ | ⟨-, hlt | hlt⟩ <;> simp only at hlt <;> omega
    rcases hend with hlt | hlt
    · exact hold.fed_of_lt hlt
    · rw [h.lines_eq]
      exact hnew.fed_of_lt hlt
  | replace hn hk hi hj =>
    obtain ⟨hlt, hlt'⟩ := hc.lt nofun
    rw [lines_replace hi hj]
    exact List.forall_mem_append.2
      ⟨fed_map_cons (by decide) (hold.fed_of_lt (Int.ofNat_lt.1 hlt)),
        fed_map_cons (by decide) (hnew.fed_of_lt (Int.ofNat_lt.1 hlt'))⟩
  | delete hn hi hj =>
    rw [lines_delete hi]
    exact fed_map_cons (by decide) (hold.fed_of_lt (Int.ofNat_lt.1 (hc.lt nofun).1))
  | insert hn hi hj =>
    rw [lines_insert hj]
    exact fed_map_cons (by decide) (hnew.fed_of_lt (Int.ofNat_lt.1 (hc.lt nofun).2))

/-- The lines of any change are nearly fed, unless an old line without its feed is replaced. -/
theorem Leads.nearlyFed (hold : NearlyFed old) (hnew : NearlyFed new)
    (h : Leads old new i j c i' j')
    (hc : c.kind = .replace → ∀ l ∈ (old.drop i).take (i' - i), IsFeedLine l) :
    NearlyFed (c.lines old new) := by
  have hpart : ∀ {ls : List Text} (i n : Nat), NearlyFed ls → NearlyFed ((ls.drop i).take n) :=
    fun i n h => h.sublist ((List.take_sublist _ _).trans (List.drop_sublist _ _))
  cases h with
  | equal h =>
    rw [lines_equal h.old_le]
    exact (hpart i _ hold).map_cons (by decide)
  | replace hn hk hi hj =>
    rw [Nat.add_sub_cancel_left] at hc
    rw [lines_replace hi hj]
    exact ((hpart j _ hnew).map_cons (by decide)).append (fed_map_cons (by decide) (hc rfl))
  | delete hn hi hj =>
    rw [lines_delete hi]
    exact (hpart i _ hold).map_cons (by decide)
  | insert hn hi hj =>
    rw [lines_insert hj]
    exact (hpart j _ hnew).map_cons (by decide)

/-! ### Inner changes -/

/-- All changes but the last one are inner. -/
abbrev InnerBut (old new : List Text) (cs : List Change) : Prop :=
  cs.Pairwise fun c _ => Inner old new c

/-- Inner changes may be put before others. -/
theorem InnerBut.append (h : ∀ c ∈ cs, Inner old new c) (hg : InnerBut old new g) :
    InnerBut old new (cs ++ g) := by
  induction cs with
  | nil => exact hg
  | cons c cs ih =>
    obtain ⟨hc, hcs⟩ := List.forall_mem_cons.1 h
    exact List.pairwise_cons.2 ⟨fun _ _ => hc, ih hcs⟩

/-- The changes of a script that ends before both texts do are inner. -/
theorem Script.inner (h : Script old new i j cs i' j') (hi : i' < old.length)
    (hj : j' < new.length) : ∀ c ∈ cs, Inner old new c := by
  intro c hc
  obtain ⟨a, b, a', b', hleads, ha, hb⟩ := h.leads_of_mem hc
  obtain ⟨-, hold, -, hnew⟩ := hleads.places
  exact .inl ⟨by omega, by omega⟩

theorem pairwise_gap (R : Change → Change → Prop) (i j i' j' : Nat) :
    (gap i j i' j').Pairwise R := by
  unfold gap
  split
  · exact List.pairwise_singleton R _
  · split
    · exact List.pairwise_singleton R _
    · split
      · exact List.pairwise_singleton R _
      · exact .nil

/-- **Stretches are followed by other lines** in one of the texts, and what is before a stretch ends
before both texts do. -/
theorem Chain.innerBut {ms : List Match} (h : Chain old new old.length new.length i j ms) :
    InnerBut old new (changesFrom old.length new.length i j ms) := by
  induction h with
  | nil hi hj => exact pairwise_gap _ _ _ _ _
  | @cons i j m ms hi hj hpos hm hms ih =>
    have hold : m.old < old.length := by have := hm.old_le; omega
    have hnew : m.new < new.length := by have := hm.new_le; omega
    have hgap := script_gap hi hj (Nat.le_of_lt hold) (Nat.le_of_lt hnew)
    unfold changesFrom
    rw [List.append_assoc]
    refine InnerBut.append (hgap.inner hold hnew) (List.pairwise_cons.2 ⟨fun c hc => ?_, ih⟩)
    by_cases hend : m.old + m.size < old.length ∨ m.new + m.size < new.length
    · exact .inr ⟨rfl, by simp only; omega⟩
    · -- both texts end with the stretch, so no change follows it
      obtain ⟨hold', hnew'⟩ := not_or.1 hend
      have hend : m.old + m.size = old.length ∧ m.new + m.size = new.length := by
        have := hm.old_le
        have := hm.new_le
        omega
      cases hms with
      | nil hi' hj' =>
        rw [hend.1, hend.2, changesFrom, gap_self] at hc
        exact absurd hc List.not_mem_nil
      | cons hi' hj' hpos' hm' hms' =>
        have := hm'.old_le
        omega

theorem innerBut_changes (old new : List Text) : InnerBut old new (changes old new) :=
  (chain_sharedStretches old new).innerBut

/-! ### Groups -/

theorem Inner.keepLast (n : Int) (h : Inner old new c) : Inner old new (c.keepLast n) := by
  unfold Change.keepLast
  split
  · exact h
  · exact h

/-- The first part of a stretch that is cut in two is inner. -/
theorem inner_keepFirst (hn : 0 ≤ context) (hkind : c.kind = .equal)
    (hlong : context + context < c.oldHigh - c.oldLow) (hhigh : c.oldHigh ≤ old.length) :
    Inner old new (c.keepFirst context) := by
  right
  rw [Change.keepFirst, if_pos hkind]
  refine ⟨hkind, .inl ?_⟩
  show min c.oldHigh (c.oldLow + context) < old.length
  omega

theorem InnerBut.trimEnds (h : InnerBut old new cs) (n : Int) :
    InnerBut old new (trimEnds n cs) := by
  have hfirst : InnerBut old new (cs.modify 0 (Change.keepLast n)) := by
    cases cs with
    | nil => exact h
    | cons c cs =>
      obtain ⟨hc, hcs⟩ := List.pairwise_cons.1 h
      exact List.pairwise_cons.2 ⟨fun d hd => (hc d hd).keepLast n, hcs⟩
  unfold Diff.trimEnds
  generalize cs.modify 0 (Change.keepLast n) = ds at hfirst
  rcases List.eq_nil_or_concat ds with rfl | ⟨ds, d, rfl⟩
  · exact hfirst
  · rw [List.concat_eq_append] at hfirst ⊢
    show InnerBut old new ((ds ++ [d]).modify ((ds ++ [d]).length - 1) (Change.keepFirst n))
    rw [modify_last]
    obtain ⟨hds, -, hd⟩ := List.pairwise_append.1 hfirst
    exact List.pairwise_append.2 ⟨hds, List.pairwise_singleton _ _,
      fun c hc _ _ => hd c hc d (List.mem_singleton_self d)⟩

/-- **The run.** Only the last change of the last group may be no inner one. -/
theorem innerBut_groupsFrom (hn : 0 ≤ context) (hcs : ∀ c ∈ cs, c.oldHigh ≤ old.length)
    (h : InnerBut old new (g ++ cs)) : InnerBut old new (groupsFrom context g cs).flatten := by
  induction cs generalizing g with
  | nil =>
    rw [List.append_nil] at h
    unfold groupsFrom
    split
    · exact .nil
    · split
      · exact .nil
      · exact List.pairwise_singleton _ _
    · rwa [List.flatten_cons, List.flatten_nil, List.append_nil]
  | cons c cs ih =>
    obtain ⟨hc, hcs⟩ := List.forall_mem_cons.1 hcs
    unfold groupsFrom
    split
    · next hlong =>
      obtain ⟨-, hrest, hg⟩ := List.pairwise_append.1 h
      -- `c` comes behind the changes of the group, and its first part ends before `c` does
      have hinner : ∀ d ∈ g ++ [c.keepFirst context], Inner old new d :=
        List.forall_mem_append.2 ⟨fun d hd => hg d hd c List.mem_cons_self,
          List.forall_mem_singleton.2 (inner_keepFirst hn hlong.1 hlong.2 hc)⟩
      obtain ⟨hc', hcs'⟩ := List.pairwise_cons.1 hrest
      have hlast : InnerBut old new ([c.keepLast context] ++ cs) :=
        List.pairwise_cons.2 ⟨fun d hd => (hc' d hd).keepLast context, hcs'⟩
      exact InnerBut.append hinner (ih hcs hlast)
    · apply ih hcs
      rwa [List.append_assoc]

/-! ### The lines of a diff -/

/-- A change is inner or the last one. -/
theorem InnerBut.inner_or_last (h : InnerBut old new cs) (hc : c ∈ cs) :
    Inner old new c ∨ cs.getLast? = some c := by
  rcases List.eq_nil_or_concat cs with rfl | ⟨cs, d, rfl⟩
  · exact absurd hc List.not_mem_nil
  · rw [List.concat_eq_append] at h hc ⊢
    rcases List.mem_append.1 hc with hc | hc
    · exact .inl ((List.pairwise_append.1 h).2.2 c hc d (List.mem_singleton_self d))
    · rw [List.mem_singleton.1 hc]
      exact .inr List.getLast?_concat

/-- The lines of inner changes have their feeds. -/
theorem Script.fed (hold : NearlyFed old) (hnew : NearlyFed new) (h : Script old new i j cs i' j')
    (hinner : ∀ c ∈ cs, Inner old new c) :
    ∀ l ∈ cs.flatMap (Change.lines old new), IsFeedLine l :=
  List.forall_mem_flatMap.2 fun c hc => by
    obtain ⟨_, _, _, _, hleads, -, -⟩ := h.leads_of_mem hc
    exact hleads.feeds_of_inner hold hnew (hinner c hc)

/-- The lines of a script are nearly fed if those of each change are. -/
theorem Script.nearlyFed (hold : NearlyFed old) (hnew : NearlyFed new)
    (h : Script old new i j cs i' j') (hinner : InnerBut old new cs)
    (hall : ∀ c ∈ cs, NearlyFed (c.lines old new)) :
    NearlyFed (cs.flatMap (Change.lines old new)) := by
  induction h with
  | nil => exact .nil
  | cons hc hcs ih =>
    obtain ⟨hfirst, hinner⟩ := List.pairwise_cons.1 hinner
    obtain ⟨hlines, hall⟩ := List.forall_mem_cons.1 hall
    rw [List.flatMap_cons]
    cases hcs with
    | nil => rwa [List.flatMap_nil, List.append_nil]
    | cons hd hcs =>
      -- another change follows, so this one is inner
      exact (ih hinner hall).append
        (hc.feeds_of_inner hold hnew (hfirst _ List.mem_cons_self))

/-- The lines of hunks of inner changes have their feeds. -/
theorem Hunks.fed (hold : NearlyFed old) (hnew : NearlyFed new) (h : Hunks old new i j gs i' j')
    (hinner : ∀ c ∈ gs.flatten, Inner old new c) :
    ∀ l ∈ gs.flatMap (hunk old new), IsFeedLine l := by
  induction h with
  | nil => exact nofun
  | cons hskip hne hg hgs ih =>
    obtain ⟨hfirst, hinner⟩ := List.forall_mem_append.1 hinner
    obtain ⟨head, hhunk, hhead, -⟩ := exists_header hskip hne hg
    rw [List.flatMap_cons, hhunk]
    exact List.forall_mem_append.2
      ⟨List.forall_mem_cons.2 ⟨hhead, hg.fed hold hnew hfirst⟩, ih hinner⟩

/-- **The lines of hunks are nearly fed** if those of each change are. -/
theorem Hunks.nearlyFed (hold : NearlyFed old) (hnew : NearlyFed new)
    (h : Hunks old new i j gs i' j') (hinner : InnerBut old new gs.flatten)
    (hall : ∀ c ∈ gs.flatten, NearlyFed (c.lines old new)) :
    NearlyFed (gs.flatMap (hunk old new)) := by
  induction h with
  | nil => exact .nil
  | cons hskip hne hg hgs ih =>
    obtain ⟨hginner, hrest, hcross⟩ := List.pairwise_append.1 hinner
    obtain ⟨hgall, hall⟩ := List.forall_mem_append.1 hall
    obtain ⟨head, hhunk, hhead, -⟩ := exists_header hskip hne hg
    rw [List.flatMap_cons, hhunk, List.cons_append]
    refine .cons hhead ?_
    cases hgs with
    | nil =>
      rw [List.flatMap_nil, List.append_nil]
      exact hg.nearlyFed hold hnew hginner hgall
    | cons hskip' hne' hg' hgs' =>
      -- another group follows, so all changes of this one are inner
      obtain ⟨d, hd⟩ := List.exists_mem_of_ne_nil _ hne'
      exact (ih hrest hall).append
        (hg.fed hold hnew fun c hc => hcross c hc d (List.mem_append_left _ hd))

/-- The changes of groups lead from one pair of places to another. -/
theorem Hunks.leads_of_mem (h : Hunks old new i j gs i' j') (hc : c ∈ gs.flatten) :
    ∃ a b a' b', Leads old new a b c a' b' := by
  induction h with
  | nil => exact absurd hc List.not_mem_nil
  | cons hskip hne hg hgs ih =>
    rcases List.mem_append.1 hc with hc | hc
    · obtain ⟨a, b, a', b', hleads, -, -⟩ := hg.leads_of_mem hc
      exact ⟨a, b, a', b', hleads⟩
    · exact ih hc

theorem innerBut_groups (h : 0 ≤ context) (old new : List Text) :
    InnerBut old new (groups context old new).flatten := by
  obtain ⟨a, b, a', b', -, hscript, -⟩ := exists_script_trimEnds h (script_changes old new)
  rw [groups_eq h]
  refine innerBut_groupsFrom h (fun c hc => ?_) ((innerBut_changes old new).trimEnds context)
  obtain ⟨_, _, x, _, hleads, hx, -⟩ := hscript.leads_of_mem hc
  have hend := hscript.bounds.2.2.1
  rw [hleads.places.2.1]
  omega

/-- The texts are named in lines of their own. -/
theorem fed_names {path : Text} (hpath : '\n' ∉ path) : ∀ l ∈ names path, IsFeedLine l := by
  have hname : ∀ mark : Text, '\n' ∉ mark → IsFeedLine (mark ++ path ++ ['\n']) := fun mark h =>
    ⟨mark ++ path, fun hmem => (List.mem_append.1 hmem).elim h hpath, rfl⟩
  exact List.forall_mem_cons.2
    ⟨hname _ (by decide), List.forall_mem_singleton.2 (hname _ (by decide))⟩

/-- The last change replaces lines by others. -/
def EndsReplaced (old new : List Text) : Prop :=
  (changes old new).getLast?.map (·.kind) = some .replace

instance (old new : List Text) : Decidable (EndsReplaced old new) :=
  inferInstanceAs (Decidable (_ = _))

/-- **The lines of a diff are nearly fed**, unless the last lines are replaced and the last old line
has no feed. -/
theorem nearlyFed_unifiedLines {path : Text} (hold : NearlyFed old) (hnew : NearlyFed new)
    (hpath : '\n' ∉ path) (hcontext : 0 ≤ context)
    (hlast : EndsReplaced old new → ∀ l ∈ old, IsFeedLine l) :
    NearlyFed (unifiedLines old new path context) := by
  have hhunks := hunks_groups hcontext old new
  have hall : ∀ c ∈ (groups context old new).flatten, NearlyFed (c.lines old new) := fun c hc => by
    obtain ⟨a, b, a', b', hleads⟩ := hhunks.leads_of_mem hc
    refine hleads.nearlyFed hold hnew fun hkind => ?_
    have hne : c.kind ≠ .equal := by
      rw [hkind]
      exact nofun
    have hchange := mem_changes_of_mem_groups hcontext hc hne
    -- only the last change reaches the end of the old text
    rcases (innerBut_changes old new).inner_or_last hchange with hinner | hend
    · obtain ⟨hlt, -⟩ := hinner.lt hne
      rw [hleads.places.2.1] at hlt
      have hle := hleads.bounds.1
      exact hold.fed_of_lt (by omega)
    · have hreplaced : EndsReplaced old new := by
        rw [EndsReplaced, hend, ← hkind]
        rfl
      exact fun l hl => hlast hreplaced l (List.mem_of_mem_drop (List.mem_of_mem_take hl))
  unfold unifiedLines
  split
  · exact .nil
  · exact (hhunks.nearlyFed hold hnew (innerBut_groups hcontext old new) hall).append
      (fed_names hpath)

end LiterateEdit.Diff
