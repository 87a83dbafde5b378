import LiterateEdit.Context.Resolve
import LiterateEdit.Proofs.Text.Digit

/-!
# Selecting a block

A key selects the first block whose identity it is, else the first one whose name it is, else the
one whose number it writes (`Selects`). The block that a key selects is found (`Selects.value`), and
if there is none this is told (`select_value_of_not`), with one exception.

The exception is a key of digits that no number is read from (`Unreadable`): one of the digits is
not decimal, or they are too many. Unless it is the identity or the name of a block, such a key is
told to be no number (`select_value_of_unreadable`). `select_value_spec` puts the three together.
-/

namespace LiterateEdit

open Text (decimalValue? isDigit maxDigits allDigits readDecimal)

variable {blocks : List Block} {key : Text} {i : Nat} {p : Block → Prop}

/-! ### What a key selects -/

/-- The block at a place is the first one of a kind. -/
def IsFirst (p : Block → Prop) (blocks : List Block) (i : Nat) : Prop :=
  ∃ h : i < blocks.length, p blocks[i] ∧ ∀ j (hj : j < i), ¬p blocks[j]

/-- The key is neither the identity nor the name of a block. -/
def Unnamed (blocks : List Block) (key : Text) : Prop :=
  ∀ b ∈ blocks, b.identity ≠ key ∧ b.name ≠ some key

/-- **The block that a key selects**, by its place. -/
inductive Selects (blocks : List Block) (key : Text) : Nat → Prop where
  /-- The first block with the identity. -/
  | identity {i : Nat} (h : IsFirst (fun b => b.identity = key) blocks i) : Selects blocks key i
  /-- The first block with the name, if none has the identity. -/
  | name {i : Nat} (hidentity : ∀ b ∈ blocks, b.identity ≠ key)
      (h : IsFirst (fun b => b.name = some key) blocks i) : Selects blocks key i
  /-- The block with the number, counted from one, if there is nothing else to find. -/
  | number {i : Nat} (hunnamed : Unnamed blocks key) (hread : key.length ≤ maxDigits)
      (hnumber : key.Writes (i + 1)) (h : i < blocks.length) : Selects blocks key i

/-- The key is made of digits, but they are too many or not all decimal. -/
def Unreadable (key : Text) : Prop :=
  allDigits key = true ∧ (maxDigits < key.length ∨ ∃ c ∈ key, decimalValue? c = none)

/-! ### What is found -/

theorem findIdx?_eq_some_iff_isFirst [DecidablePred p] :
    blocks.findIdx? (fun b => p b) = some i ↔ IsFirst p blocks i := by
  rw [List.findIdx?_eq_some_iff_getElem]
  simp only [IsFirst, decide_eq_true_eq]

theorem findIdx?_eq_none_iff_forall [DecidablePred p] :
    blocks.findIdx? (fun b => p b) = none ↔ ∀ b ∈ blocks, ¬p b := by
  rw [List.findIdx?_eq_none_iff]
  simp only [decide_eq_false_iff_not]

/-- A key that is neither the identity nor the name of a block is read as a number. -/
theorem select_value_of_unnamed (h : Unnamed blocks key) :
    (select blocks key).value =
      if allDigits key then
        match readDecimal key with
        | .error e => .error (.digits e)
        | .ok k => if 1 ≤ k ∧ k ≤ blocks.length then .ok (k - 1) else .error (.notFound key)
      else .error (.notFound key) := by
  have hidentity := findIdx?_eq_none_iff_forall.2 fun b hb => (h b hb).1
  have hname := findIdx?_eq_none_iff_forall.2 fun b hb => (h b hb).2
  unfold select
  simp only [hidentity, hname]
  split
  · cases readDecimal key with
    | error e => rfl
    | ok k =>
      simp only
      split <;> rfl
  · rfl

/-- **What a key selects is found.** -/
theorem Selects.value (h : Selects blocks key i) : (select blocks key).value = .ok i := by
  cases h with
  | identity h =>
    unfold select
    simp only [findIdx?_eq_some_iff_isFirst.2 h]
    rfl
  | name hidentity h =>
    unfold select
    simp only [findIdx?_eq_none_iff_forall.2 hidentity, findIdx?_eq_some_iff_isFirst.2 h]
  | number hunnamed hread hnumber h =>
    have hne : key ≠ [] := Text.ne_nil_of_writes hnumber
    rw [select_value_of_unnamed hunnamed, if_pos (Text.allDigits_of_writes hne hnumber),
      Text.readDecimal_eq_ok_iff.2 ⟨hne, hread, hnumber⟩]
    exact if_pos ⟨Nat.succ_pos i, h⟩

/-- Digits that no number is read from fail as such. -/
theorem select_value_of_unreadable (hunnamed : Unnamed blocks key) (h : Unreadable key) :
    ∃ e, (select blocks key).value = .error (.digits e) := by
  obtain ⟨hdigits, hfault⟩ := h
  obtain ⟨e, he⟩ := Text.readDecimal_eq_error_iff.2 (.inr hfault)
  rw [select_value_of_unnamed hunnamed, if_pos hdigits, he]
  exact ⟨e, rfl⟩

/-- **In every other case no block is found**, and this is what is told. -/
theorem select_value_of_not (hselects : ∀ i, ¬Selects blocks key i)
    (hreadable : ¬(Unnamed blocks key ∧ Unreadable key)) :
    (select blocks key).value = .error (.notFound key) := by
  have hidentity : ∀ b ∈ blocks, b.identity ≠ key := by
    refine findIdx?_eq_none_iff_forall.1 (Option.eq_none_iff_forall_ne_some.2 fun i hi => ?_)
    exact hselects i (.identity (findIdx?_eq_some_iff_isFirst.1 hi))
  have hname : ∀ b ∈ blocks, b.name ≠ some key := by
    refine findIdx?_eq_none_iff_forall.1 (Option.eq_none_iff_forall_ne_some.2 fun i hi => ?_)
    exact hselects i (.name hidentity (findIdx?_eq_some_iff_isFirst.1 hi))
  have hunnamed : Unnamed blocks key := fun b hb => ⟨hidentity b hb, hname b hb⟩
  rw [select_value_of_unnamed hunnamed]
  split
  · next hdigits =>
    split
    · next e he =>
      -- digits that no number is read from are unreadable
      refine absurd ⟨hunnamed, hdigits, ?_⟩ hreadable
      refine (Text.readDecimal_eq_error_iff.1 ⟨e, he⟩).resolve_left ?_
      rintro rfl
      cases hdigits
    · next k hk =>
      obtain ⟨-, hfew, hwrites⟩ := Text.readDecimal_eq_ok_iff.1 hk
      refine if_neg fun ⟨hpos, hle⟩ => hselects (k - 1) (.number hunnamed hfew ?_ ?_)
      · rwa [Nat.sub_add_cancel hpos]
      · omega
  · rfl

/-- **Selecting a block**, for any blocks and any key. The block that the key selects is found.
Digits that no number is read from fail as such unless they are the identity or the name of a block.
In every other case it is told that no block is found. -/
theorem select_value_spec (blocks : List Block) (key : Text) :
    let selected := (select blocks key).value
    let fails := Unnamed blocks key ∧ Unreadable key
    (∀ i, selected = .ok i ↔ Selects blocks key i) ∧
      ((∃ e, selected = .error (.digits e)) ↔ fails) ∧
      (selected = .error (.notFound key) ↔ (∀ i, ¬Selects blocks key i) ∧ ¬fails) := by
  intro selected fails
  by_cases hselects : ∃ i, Selects blocks key i
  · -- what is selected is found, so nothing is told
    obtain ⟨i, hi⟩ := hselects
    have hvalue : selected = .ok i := hi.value
    have hfails : ¬fails := fun ⟨hunnamed, hunreadable⟩ => by
      obtain ⟨e, he⟩ := select_value_of_unreadable hunnamed hunreadable
      exact nomatch hvalue.symm.trans he
    rw [hvalue]
    exact ⟨fun j => ⟨fun hj => Except.ok.inj hj ▸ hi, fun hj => hvalue.symm.trans hj.value⟩,
      iff_of_false nofun hfails, iff_of_false nofun fun hnot => hnot.1 i hi⟩
  have hnone : ∀ i, ¬Selects blocks key i := not_exists.1 hselects
  by_cases hfails : fails
  · -- the key is taken for a number and fails as one
    obtain ⟨e, he⟩ := select_value_of_unreadable hfails.1 hfails.2
    have hvalue : selected = .error (.digits e) := he
    rw [hvalue]
    exact ⟨fun i => iff_of_false nofun (hnone i), iff_of_true ⟨e, rfl⟩ hfails,
      iff_of_false nofun fun hnot => hnot.2 hfails⟩
  · have hvalue : selected = .error (.notFound key) := select_value_of_not hnone hfails
    rw [hvalue]
    exact ⟨fun i => iff_of_false nofun (hnone i), iff_of_false nofun hfails,
      iff_of_true rfl ⟨hnone, hfails⟩⟩

/-- A superscript is a digit that is not decimal, so the key fails as a number. As the name of a
block it selects that block. -/
example :
    let block (name : Option Text) : Block := ⟨Text.lit "a", none, none, [], [], name, 0, 0⟩
    (select [block none] ['\u00b2']).value = .error (.digits (.notDecimal ['\u00b2'])) ∧
      (select [block none, block (some ['\u00b2'])] ['\u00b2']).value = .ok 1 := by
  decide +kernel

end LiterateEdit
