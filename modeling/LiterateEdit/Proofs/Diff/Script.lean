import LiterateEdit.Diff.Script
import LiterateEdit.Proofs.Diff.Match

/-!
# Edit scripts lose no line

A change leads from a pair of places, one in each text, to another one (`Leads`): over the same
lines if they stay, and else over any lines of the old text, of the new one, or of both. A list of
changes is a script if each change starts where the one before ends (`Script`). What is between the
shared stretches leads from one to the next, so `changes` is a script from the start of both texts
to their ends (`script_changes`).

Groups leave out lines that stay. `Skips` says that this is all they leave out: a list of groups is
a list of scripts with the same lines before, between and behind them (`Hunks`). Trimming the first
and the last change (`exists_script_trimEnds`) and cutting a long stretch of lines that stay
(`Leads.cut`) both come down to lines that are skipped, and `hunks_groups` puts this together.
-/

namespace LiterateEdit.Diff

variable {old new : List Text} {i j i' j' i'' j'' : Nat} {c : Change} {cs cs' g : List Change}
  {gs : List (List Change)} {n : Int}

/-! ### Lines that are skipped -/

/-- The same lines are between two places of the old text and between two places of the new one. -/
def Skips (old new : List Text) (i j i' j' : Nat) : Prop :=
  ∃ n, Same old new i j n ∧ i' = i + n ∧ j' = j + n

theorem Skips.refl (hi : i ≤ old.length) (hj : j ≤ new.length) : Skips old new i j i j :=
  ⟨0, .zero hi hj, rfl, rfl⟩

theorem Skips.trans (h : Skips old new i j i' j') (h' : Skips old new i' j' i'' j'') :
    Skips old new i j i'' j'' := by
  obtain ⟨n, hn, rfl, rfl⟩ := h
  obtain ⟨k, hk, rfl, rfl⟩ := h'
  exact ⟨n + k, hn.append hk, Nat.add_assoc i n k, Nat.add_assoc j n k⟩

/-! ### Scripts -/

/-- The change leads from one pair of places to another. -/
inductive Leads (old new : List Text) : Nat → Nat → Change → Nat → Nat → Prop where
  | equal {i j n : Nat} (h : Same old new i j n) :
      Leads old new i j ⟨.equal, i, i + n, j, j + n⟩ (i + n) (j + n)
  | replace {i j n k : Nat} (hn : 0 < n) (hk : 0 < k) (hi : i + n ≤ old.length)
      (hj : j + k ≤ new.length) :
      Leads old new i j ⟨.replace, i, i + n, j, j + k⟩ (i + n) (j + k)
  | delete {i j n : Nat} (hn : 0 < n) (hi : i + n ≤ old.length) (hj : j ≤ new.length) :
      Leads old new i j ⟨.delete, i, i + n, j, j⟩ (i + n) j
  | insert {i j n : Nat} (hn : 0 < n) (hi : i ≤ old.length) (hj : j + n ≤ new.length) :
      Leads old new i j ⟨.insert, i, i, j, j + n⟩ i (j + n)

/-- The changes lead from one pair of places to another, one after another. -/
inductive Script (old new : List Text) : Nat → Nat → List Change → Nat → Nat → Prop where
  | nil {i j : Nat} (hi : i ≤ old.length) (hj : j ≤ new.length) : Script old new i j [] i j
  | cons {i j i' j' i'' j'' : Nat} {c : Change} {cs : List Change} (hc : Leads old new i j c i' j')
      (hcs : Script old new i' j' cs i'' j'') : Script old new i j (c :: cs) i'' j''

theorem Leads.bounds (h : Leads old new i j c i' j') :
    i ≤ i' ∧ j ≤ j' ∧ i' ≤ old.length ∧ j' ≤ new.length := by
  cases h with
  | equal h => exact ⟨Nat.le_add_right _ _, Nat.le_add_right _ _, h.old_le, h.new_le⟩
  | replace hn hk hi hj => exact ⟨Nat.le_add_right _ _, Nat.le_add_right _ _, hi, hj⟩
  | delete hn hi hj => exact ⟨Nat.le_add_right _ _, Nat.le_refl _, hi, hj⟩
  | insert hn hi hj => exact ⟨Nat.le_refl _, Nat.le_add_right _ _, hi, hj⟩

/-- A change says where it starts and where it ends. -/
theorem Leads.places (h : Leads old new i j c i' j') :
    c.oldLow = i ∧ c.oldHigh = i' ∧ c.newLow = j ∧ c.newHigh = j' := by
  cases h with
  | equal h => exact ⟨rfl, rfl, rfl, rfl⟩
  | replace hn hk hi hj => exact ⟨rfl, rfl, rfl, rfl⟩
  | delete hn hi hj => exact ⟨rfl, rfl, rfl, rfl⟩
  | insert hn hi hj => exact ⟨rfl, rfl, rfl, rfl⟩

/-- Lines that stay may be skipped. -/
theorem Leads.skips (h : Leads old new i j c i' j') (hkind : c.kind = .equal) :
    Skips old new i j i' j' := by
  cases h with
  | equal h => exact ⟨_, h, rfl, rfl⟩
  | replace | delete | insert => cases hkind

theorem Script.bounds (h : Script old new i j cs i' j') :
    i ≤ i' ∧ j ≤ j' ∧ i' ≤ old.length ∧ j' ≤ new.length := by
  induction h with
  | nil hi hj => exact ⟨Nat.le_refl _, Nat.le_refl _, hi, hj⟩
  | cons hc hcs ih =>
    obtain ⟨hi, hj, -, -⟩ := hc.bounds
    exact ⟨Nat.le_trans hi ih.1, Nat.le_trans hj ih.2.1, ih.2.2⟩

theorem Leads.script (h : Leads old new i j c i' j') : Script old new i j [c] i' j' :=
  .cons h (.nil h.bounds.2.2.1 h.bounds.2.2.2)

theorem Script.append (h : Script old new i j cs i' j') (h' : Script old new i' j' cs' i'' j'') :
    Script old new i j (cs ++ cs') i'' j'' := by
  induction h with
  | nil => exact h'
  | cons hc hcs ih => exact .cons hc (ih h')

/-- A script of some changes and others behind them is two scripts. -/
theorem script_append_iff : Script old new i j (cs ++ cs') i' j' ↔
    ∃ a b, Script old new i j cs a b ∧ Script old new a b cs' i' j' := by
  constructor
  · intro h
    induction cs generalizing i j with
    | nil =>
      obtain ⟨hi, hj, hi', hj'⟩ := h.bounds
      exact ⟨i, j, .nil (Nat.le_trans hi hi') (Nat.le_trans hj hj'), h⟩
    | cons c cs ih =>
      cases h with
      | cons hc hcs =>
        obtain ⟨a, b, hfront, hback⟩ := ih hcs
        exact ⟨a, b, .cons hc hfront, hback⟩
  · rintro ⟨a, b, hfront, hback⟩
    exact hfront.append hback

theorem script_singleton_iff : Script old new i j [c] i' j' ↔ Leads old new i j c i' j' := by
  constructor
  · intro h
    cases h with
    | cons hc hnil =>
      cases hnil
      exact hc
  · exact Leads.script

/-- Each change of a script leads from one pair of places to another. -/
theorem Script.leads_of_mem (h : Script old new i j cs i' j') (hc : c ∈ cs) :
    ∃ a b a' b', Leads old new a b c a' b' ∧ a' ≤ i' ∧ b' ≤ j' := by
  induction h with
  | nil => exact absurd hc List.not_mem_nil
  | cons hd hcs ih =>
    rcases List.mem_cons.1 hc with rfl | hc
    · exact ⟨_, _, _, _, hd, hcs.bounds.1, hcs.bounds.2.1⟩
    · exact ih hc

/-- The places where a script starts and ends are those where its first and its last change do. -/
theorem Script.places {first last : Change} (h : Script old new i j cs i' j')
    (hfirst : cs.head? = some first) (hlast : cs.getLast? = some last) :
    first.oldLow = i ∧ first.newLow = j ∧ last.oldHigh = i' ∧ last.newHigh = j' := by
  obtain ⟨front, rfl⟩ := List.getLast?_eq_some_iff.1 hlast
  obtain ⟨a, b, -, hback⟩ := script_append_iff.1 h
  obtain ⟨-, hold, -, hnew⟩ := (script_singleton_iff.1 hback).places
  obtain ⟨rest, hrest⟩ := List.head?_eq_some_iff.1 hfirst
  rw [hrest] at h
  cases h with
  | cons hc hcs =>
    obtain ⟨hold', -, hnew', -⟩ := hc.places
    exact ⟨hold', hnew', hold, hnew⟩

/-- Nothing is between a pair of places and itself. -/
theorem gap_self (i j : Nat) : gap i j i j = [] := by
  rw [gap, if_neg fun h => Nat.lt_irrefl i h.1, if_neg (Nat.lt_irrefl i), if_neg (Nat.lt_irrefl j)]

/-- What is between two stretches leads from one to the other. -/
theorem script_gap (hi : i ≤ i') (hj : j ≤ j') (hi' : i' ≤ old.length) (hj' : j' ≤ new.length) :
    Script old new i j (gap i j i' j') i' j' := by
  obtain ⟨n, rfl⟩ := Nat.exists_eq_add_of_le hi
  obtain ⟨k, rfl⟩ := Nat.exists_eq_add_of_le hj
  unfold gap
  rw [Int.natCast_add, Int.natCast_add]
  -- lines of both texts, of the old one, of the new one, or none
  split
  · next hboth => exact (Leads.replace (by omega) (by omega) hi' hj').script
  · next hboth =>
    split
    · next hdelete =>
      obtain rfl : k = 0 := by omega
      rw [Int.natCast_zero, Int.add_zero]
      exact (Leads.delete (by omega) hi' hj').script
    · next hold =>
      obtain rfl : n = 0 := by omega
      split
      · rw [Int.natCast_zero, Int.add_zero]
        exact (Leads.insert (by omega) hi' hj').script
      · next hnew =>
        obtain rfl : k = 0 := by omega
        exact .nil hi' hj'

/-- The stretches and what is between them lead to the ends of the texts. -/
theorem Chain.script {ms : List Match} (h : Chain old new old.length new.length i j ms) :
    Script old new i j (changesFrom old.length new.length i j ms) old.length new.length := by
  induction h with
  | nil hi hj => exact script_gap hi hj (Nat.le_refl _) (Nat.le_refl _)
  | @cons i j m ms hi hj hpos hm hms ih =>
    have hold := Nat.le_trans (Nat.le_add_right m.old m.size) hm.old_le
    have hnew := Nat.le_trans (Nat.le_add_right m.new m.size) hm.new_le
    unfold changesFrom
    exact ((script_gap hi hj hold hnew).append (Leads.equal hm).script).append ih

/-- **The changes lead from one text to the other.** -/
theorem script_changes (old new : List Text) :
    Script old new 0 0 (changes old new) old.length new.length :=
  (chain_sharedStretches old new).script

/-! ### Trimming -/

/-- Lines that stay, whose ends are given in some other way. -/
theorem Leads.of_same {k : Nat} {a a' b b' : Int} (h : Same old new i j k) (ha : a = i)
    (ha' : a' = i' ∧ i' = i + k) (hb : b = j) (hb' : b' = j' ∧ j' = j + k) :
    Leads old new i j ⟨.equal, a, a', b, b'⟩ i' j' := by
  obtain ⟨rfl, rfl⟩ := ha'
  obtain ⟨rfl, rfl⟩ := hb'
  rw [ha, hb, Int.natCast_add, Int.natCast_add]
  exact .equal h

theorem leads_keepFirst {m : Nat} (h : Same old new i j m) (k : Nat) :
    Leads old new i j (Change.keepFirst k ⟨.equal, i, i + m, j, j + m⟩)
      (i + min m k) (j + min m k) := by
  show Leads old new i j ⟨.equal, i, min (i + m) (i + k), j, min (j + m) (j + k)⟩ _ _
  exact .of_same (h.part (a := 0) (b := min m k) (by omega)) rfl (by omega) rfl (by omega)

theorem leads_keepLast {m : Nat} (h : Same old new i j m) (k : Nat) :
    Leads old new (i + (m - k)) (j + (m - k))
      (Change.keepLast k ⟨.equal, i, i + m, j, j + m⟩) (i + m) (j + m) := by
  show Leads old new _ _ ⟨.equal, max i (i + m - k), i + m, max j (j + m - k), j + m⟩ _ _
  exact .of_same (h.part (b := min m k) (by omega)) (by omega) (by omega) (by omega) (by omega)

/-- The first lines of a change, and the lines behind them. -/
theorem Leads.keepFirst (hn : 0 ≤ n) (h : Leads old new i j c i' j') :
    ∃ a b, Leads old new i j (c.keepFirst n) a b ∧ Skips old new a b i' j' := by
  obtain ⟨k, rfl⟩ := Int.eq_ofNat_of_zero_le hn
  obtain ⟨-, -, hi', hj'⟩ := h.bounds
  cases h with
  | @equal m h =>
    exact ⟨_, _, leads_keepFirst h k, m - min m k, h.part (by omega), by omega, by omega⟩
  | replace hn hk hi hj => exact ⟨_, _, .replace hn hk hi hj, .refl hi' hj'⟩
  | delete hn hi hj => exact ⟨_, _, .delete hn hi hj, .refl hi' hj'⟩
  | insert hn hi hj => exact ⟨_, _, .insert hn hi hj, .refl hi' hj'⟩

/-- The last lines of a change, and the lines before them. -/
theorem Leads.keepLast (hn : 0 ≤ n) (h : Leads old new i j c i' j') :
    ∃ a b, Skips old new i j a b ∧ Leads old new a b (c.keepLast n) i' j' := by
  obtain ⟨k, rfl⟩ := Int.eq_ofNat_of_zero_le hn
  have hrefl : Skips old new i j i j :=
    .refl (Nat.le_trans h.bounds.1 h.bounds.2.2.1) (Nat.le_trans h.bounds.2.1 h.bounds.2.2.2)
  cases h with
  | @equal m h =>
    exact ⟨_, _, ⟨m - k, h.part (a := 0) (by omega), rfl, rfl⟩, leads_keepLast h k⟩
  | replace hn hk hi hj => exact ⟨_, _, hrefl, .replace hn hk hi hj⟩
  | delete hn hi hj => exact ⟨_, _, hrefl, .delete hn hi hj⟩
  | insert hn hi hj => exact ⟨_, _, hrefl, .insert hn hi hj⟩

/-- Lines that stay are cut in two, with the lines between them left out. -/
theorem Leads.cut (hn : 0 ≤ n) (h : Leads old new i j c i' j') (hkind : c.kind = .equal)
    (hlong : n + n < c.oldHigh - c.oldLow) :
    ∃ a b a' b', Leads old new i j (c.keepFirst n) a b ∧ Skips old new a b a' b' ∧
      Leads old new a' b' (c.keepLast n) i' j' := by
  obtain ⟨k, rfl⟩ := Int.eq_ofNat_of_zero_le hn
  cases h with
  | @equal m h =>
    change (k : Int) + k < i + m - i at hlong
    refine ⟨_, _, _, _, leads_keepFirst h k, ?_, leads_keepLast h k⟩
    exact ⟨m - k - k, h.part (by omega), by omega, by omega⟩
  | replace | delete | insert => cases hkind

/-- The first change may be trimmed if lines are skipped before it. -/
theorem Script.trimFirst (hn : 0 ≤ n) (h : Script old new i j cs i' j') :
    ∃ a b, Skips old new i j a b ∧ Script old new a b (cs.modify 0 (Change.keepLast n)) i' j' := by
  cases h with
  | nil hi hj => exact ⟨_, _, .refl hi hj, .nil hi hj⟩
  | cons hc hcs =>
    obtain ⟨a, b, hskip, hlast⟩ := hc.keepLast hn
    exact ⟨a, b, hskip, .cons hlast hcs⟩

theorem modify_last (f : Change → Change) (cs : List Change) (c : Change) :
    (cs ++ [c]).modify ((cs ++ [c]).length - 1) f = cs ++ [f c] := by
  rw [List.length_append, List.length_singleton, Nat.add_sub_cancel]
  induction cs with
  | nil => rfl
  | cons d cs ih => exact congrArg (d :: ·) ih

/-- The last change may be trimmed if lines are skipped behind it. -/
theorem Script.trimLast (hn : 0 ≤ n) (h : Script old new i j cs i' j') :
    ∃ a b, Script old new i j (cs.modify (cs.length - 1) (Change.keepFirst n)) a b ∧
      Skips old new a b i' j' := by
  -- a script is built from its start, so its last change has to be split off
  rcases List.eq_nil_or_concat cs with rfl | ⟨cs, c, rfl⟩
  · obtain ⟨-, -, hi', hj'⟩ := h.bounds
    exact ⟨i', j', h, .refl hi' hj'⟩
  · obtain ⟨a, b, hfront, hback⟩ := script_append_iff.1 (List.concat_eq_append ▸ h)
    obtain ⟨a', b', hfirst, hskip⟩ := (script_singleton_iff.1 hback).keepFirst hn
    refine ⟨a', b', ?_, hskip⟩
    rw [List.concat_eq_append, modify_last]
    exact hfront.append hfirst.script

/-- **Trimmed changes** lead from one text to the other with the lines before and behind them. -/
theorem exists_script_trimEnds (hn : 0 ≤ n) (h : Script old new i j cs i' j') :
    ∃ a b a' b', Skips old new i j a b ∧ Script old new a b (trimEnds n cs) a' b' ∧
      Skips old new a' b' i' j' := by
  obtain ⟨a, b, hfront, h⟩ := h.trimFirst hn
  obtain ⟨a', b', h, hback⟩ := h.trimLast hn
  exact ⟨a, b, a', b', hfront, h, hback⟩

/-! ### Groups -/

/-- Groups of changes that lead from one pair of places to another, with lines that are skipped
before, between and behind them. -/
inductive Hunks (old new : List Text) : Nat → Nat → List (List Change) → Nat → Nat → Prop where
  | nil {i j i' j' : Nat} (h : Skips old new i j i' j') : Hunks old new i j [] i' j'
  | cons {i j a b a' b' i' j' : Nat} {g : List Change} {gs : List (List Change)}
      (hskip : Skips old new i j a b) (hne : g ≠ []) (hg : Script old new a b g a' b')
      (hgs : Hunks old new a' b' gs i' j') : Hunks old new i j (g :: gs) i' j'

theorem Hunks.le (h : Hunks old new i j gs i' j') : i ≤ old.length ∧ j ≤ new.length := by
  have hskips : ∀ {i' j' : Nat}, Skips old new i j i' j' → i ≤ old.length ∧ j ≤ new.length := by
    rintro _ _ ⟨n, hn, -, -⟩
    exact ⟨Nat.le_trans (Nat.le_add_right i n) hn.old_le,
      Nat.le_trans (Nat.le_add_right j n) hn.new_le⟩
  cases h with
  | nil h => exact hskips h
  | cons h => exact hskips h

/-- Groups and others behind them. -/
theorem Hunks.of_append {gs' : List (List Change)} (h : Hunks old new i j (gs ++ gs') i' j') :
    ∃ a b, Hunks old new i j gs a b ∧ Hunks old new a b gs' i' j' := by
  induction gs generalizing i j with
  | nil => exact ⟨i, j, .nil (.refl h.le.1 h.le.2), h⟩
  | cons g gs ih =>
    cases h with
    | cons hskip hne hg hgs =>
      obtain ⟨a, b, hfront, hback⟩ := ih hgs
      exact ⟨a, b, .cons hskip hne hg hfront, hback⟩

/-- **The run.** The group that is under way and the changes behind it come out in groups. -/
theorem hunks_groupsFrom {a b a' b' : Nat} (hn : 0 ≤ n) (hskip : Skips old new i j a b)
    (hg : Script old new a b g a' b') (hcs : Script old new a' b' cs i' j')
    (hback : Skips old new i' j' i'' j'') :
    Hunks old new i j (groupsFrom n g cs) i'' j'' := by
  -- over the changes to come; the group under way is a script from where lines were last skipped
  induction cs generalizing i j g a b a' b' with
  | nil =>
    cases hcs
    match g, hg with
    | [], .nil _ _ => exact .nil (hskip.trans hback)
    | [c], hg =>
      unfold groupsFrom
      simp only
      split
      · next hkind =>
        -- lines that stay are no group of their own, and may be skipped
        have hc := (script_singleton_iff.1 hg).skips hkind
        exact .nil ((hskip.trans hc).trans hback)
      · exact .cons hskip (List.cons_ne_nil _ _) hg (.nil hback)
    | c :: d :: rest, hg => exact .cons hskip (List.cons_ne_nil _ _) hg (.nil hback)
  | cons c cs ih =>
    cases hcs with
    | cons hc hcs =>
      unfold groupsFrom
      split
      · next hlong =>
        -- the group ends with the first lines of the stretch, and the last ones start the next
        obtain ⟨x, y, x', y', hfirst, hmiddle, hlast⟩ := hc.cut hn hlong.1 hlong.2
        have hne : g ++ [c.keepFirst n] ≠ [] :=
          List.append_ne_nil_of_right_ne_nil g (List.cons_ne_nil _ _)
        exact .cons hskip hne (hg.append hfirst.script) (ih hmiddle hlast.script hcs)
      · exact ih hskip (hg.append hc.script) hcs

/-- Lines that stay are no group if nothing is around them. -/
theorem groupsFrom_trimEnds_singleton (hn : 0 ≤ n) (hkind : c.kind = .equal) :
    groupsFrom n [] (trimEnds n [c]) = [] := by
  have htrim : trimEnds n [c] = [(c.keepLast n).keepFirst n] := rfl
  have hlast : c.keepLast n =
      { c with oldLow := max c.oldLow (c.oldHigh - n), newLow := max c.newLow (c.newHigh - n) } :=
    if_pos hkind
  have hkind' : ((c.keepLast n).keepFirst n).kind = .equal := by
    rw [hlast, Change.keepFirst]
    split <;> exact hkind
  have hshort : ((c.keepLast n).keepFirst n).oldHigh - ((c.keepLast n).keepFirst n).oldLow ≤ n := by
    rw [hlast, Change.keepFirst, if_pos hkind]
    show min c.oldHigh (max c.oldLow (c.oldHigh - n) + n) - max c.oldLow (c.oldHigh - n) ≤ n
    omega
  rw [htrim, groupsFrom, if_neg (by omega), List.nil_append, groupsFrom]
  exact if_pos hkind'

/-- The groups are made of the trimmed changes, also if there are no changes at all. -/
theorem groups_eq (hn : 0 ≤ n) (old new : List Text) :
    groups n old new = groupsFrom n [] (trimEnds n (changes old new)) := by
  unfold groups
  simp only
  split
  · next hnil =>
    -- both texts are empty, and the change made up for them is no group
    rw [groupsFrom_trimEnds_singleton hn rfl, hnil]
    rfl
  · rfl

/-- **Groups lose no line.** -/
theorem hunks_groups (hn : 0 ≤ n) (old new : List Text) :
    Hunks old new 0 0 (groups n old new) old.length new.length := by
  obtain ⟨a, b, a', b', hfront, hcs, hback⟩ := exists_script_trimEnds hn (script_changes old new)
  obtain ⟨hi, hj, hi', hj'⟩ := hcs.bounds
  rw [groups_eq hn]
  exact hunks_groupsFrom hn hfront (.nil (Nat.le_trans hi hi') (Nat.le_trans hj hj')) hcs hback

/-! ### Changes of which lines go or come -/

/-- The changes of which lines go or come. -/
def changing (cs : List Change) : List Change := cs.filter fun c => c.kind ≠ .equal

theorem mem_changing : c ∈ changing cs ↔ c ∈ cs ∧ c.kind ≠ .equal := by
  rw [changing, List.mem_filter, decide_eq_true_eq]

theorem changing_append (cs ds : List Change) : changing (cs ++ ds) = changing cs ++ changing ds :=
  List.filter_append _ _

theorem changing_cons (c : Change) (cs : List Change) :
    changing (c :: cs) = changing [c] ++ changing cs := changing_append [c] cs

theorem changing_equal (h : c.kind = .equal) : changing [c] = [] :=
  List.filter_eq_nil_iff.2 fun d hd => by
    rw [List.mem_singleton.1 hd, decide_eq_true_eq]
    exact not_not_intro h

theorem keepFirst_of_ne (h : c.kind ≠ .equal) (n : Int) : c.keepFirst n = c := if_neg h

theorem keepLast_of_ne (h : c.kind ≠ .equal) (n : Int) : c.keepLast n = c := if_neg h

/-- Trimming a change leaves it as it is, or it is one of lines that stay. -/
theorem changing_keepFirst (n : Int) (c : Change) : changing [c.keepFirst n] = changing [c] := by
  by_cases hkind : c.kind = .equal
  · rw [changing_equal hkind, Change.keepFirst, if_pos hkind]
    exact changing_equal hkind
  · rw [keepFirst_of_ne hkind]

theorem changing_keepLast (n : Int) (c : Change) : changing [c.keepLast n] = changing [c] := by
  by_cases hkind : c.kind = .equal
  · rw [changing_equal hkind, Change.keepLast, if_pos hkind]
    exact changing_equal hkind
  · rw [keepLast_of_ne hkind]

theorem changing_modify {f : Change → Change} (hf : ∀ c, changing [f c] = changing [c])
    (cs : List Change) (k : Nat) : changing (cs.modify k f) = changing cs := by
  induction cs generalizing k with
  | nil => cases k <;> rfl
  | cons c cs ih =>
    cases k with
    | zero =>
      show changing (f c :: cs) = _
      rw [changing_cons, hf, ← changing_cons]
    | succ k =>
      show changing (c :: cs.modify k f) = _
      rw [changing_cons, ih, ← changing_cons]

theorem changing_trimEnds (n : Int) (cs : List Change) :
    changing (trimEnds n cs) = changing cs := by
  unfold trimEnds
  simp only
  rw [changing_modify (changing_keepFirst n), changing_modify (changing_keepLast n)]

/-- **Groups have all changes** of which lines go or come, as they are. -/
theorem changing_groupsFrom (n : Int) (g cs : List Change) :
    changing (groupsFrom n g cs).flatten = changing (g ++ cs) := by
  induction cs generalizing g with
  | nil =>
    rw [List.append_nil]
    unfold groupsFrom
    split
    · rfl
    · next c =>
      split
      · next hkind => exact (changing_equal hkind).symm
      · rfl
    · rw [List.flatten_cons, List.flatten_nil, List.append_nil]
  | cons c cs ih =>
    unfold groupsFrom
    split
    · next hlong =>
      -- neither part of the stretch that is cut counts, nor does the stretch itself
      rw [List.flatten_cons, changing_append, ih, changing_append, changing_append,
        changing_append, changing_keepFirst, changing_keepLast, changing_cons c cs,
        changing_equal hlong.1, List.append_nil]
    · rw [ih, List.append_assoc]
      rfl

theorem changing_groups (hn : 0 ≤ n) (old new : List Text) :
    changing (groups n old new).flatten = changing (changes old new) := by
  rw [groups_eq hn, changing_groupsFrom, List.nil_append, changing_trimEnds]

/-- Lines that go or come in a group go or come in the whole. -/
theorem mem_changes_of_mem_groups (hn : 0 ≤ n) (hc : c ∈ (groups n old new).flatten)
    (hkind : c.kind ≠ .equal) : c ∈ changes old new := by
  have hmem : c ∈ changing (groups n old new).flatten := mem_changing.2 ⟨hc, hkind⟩
  rw [changing_groups hn] at hmem
  exact (mem_changing.1 hmem).1

/-- A last change of which lines go or come is not trimmed. -/
theorem exists_trimEnds_concat (h : c.kind ≠ .equal) (n : Int) (cs : List Change) :
    ∃ cs', trimEnds n (cs ++ [c]) = cs' ++ [c] := by
  have hfirst : ∃ cs', (cs ++ [c]).modify 0 (Change.keepLast n) = cs' ++ [c] := by
    cases cs with
    | nil => exact ⟨[], congrArg ([·]) (keepLast_of_ne h n)⟩
    | cons d cs => exact ⟨d.keepLast n :: cs, rfl⟩
  obtain ⟨cs', hcs'⟩ := hfirst
  refine ⟨cs', ?_⟩
  unfold trimEnds
  simp only
  rw [hcs', modify_last, keepFirst_of_ne h]

/-- It ends the last group. -/
theorem exists_groupsFrom_concat (h : c.kind ≠ .equal) (n : Int) (g cs : List Change) :
    ∃ gs g', groupsFrom n g (cs ++ [c]) = gs ++ [g' ++ [c]] := by
  induction cs generalizing g with
  | nil =>
    refine ⟨[], g, ?_⟩
    rw [List.nil_append, groupsFrom, if_neg fun hlong => h hlong.1]
    cases g with
    | nil => exact if_neg h
    | cons d g =>
      cases g with
      | nil => rfl
      | cons e g => rfl
  | cons d cs ih =>
    rw [List.cons_append, groupsFrom]
    split
    · obtain ⟨gs, g', hgs⟩ := ih [d.keepLast n]
      exact ⟨(g ++ [d.keepFirst n]) :: gs, g', by rw [hgs]; rfl⟩
    · exact ih (g ++ [d])

end LiterateEdit.Diff
