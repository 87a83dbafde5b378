import LiterateEdit.Settings.Basic

/-!
# Fields, each on its own

Settings are read from entries one field after another, and what went wrong is gathered on the way
(`Settings.ofEntries`). Nothing of this order is left in the result:

* the settings are `s` exactly if each field of `s` is what the value given to this field is read
  as, or the default if none is given (`Settings.ofEntries_eq_ok_iff`);
* otherwise all fields that cannot be read are told (`Settings.ofEntries_eq_error_iff`).

Both are stated about the values that are given (`Field → Option Yaml.Value`), so that entries that
give the same values cannot be told apart.
-/

namespace LiterateEdit

open Yaml (Value)

namespace Field

/-- What a field holds. -/
abbrev Content : Field → Type
  | .appName => Text
  | .narrow => Bool
  | .strategy => Strategy
  | .stagingDir => Option Text
  | .dialect => Text
  | .background => Text
  | .logLevel => Level

/-- What a field holds if it is given a value. -/
def read : (f : Field) → Value → Except FieldFault f.Content
  | .appName => Settings.readText
  | .narrow => Settings.readTruth
  | .strategy => Settings.readStrategy
  | .stagingDir => Settings.readOptionalText
  | .dialect => Settings.readText
  | .background => Settings.readText
  | .logLevel => Settings.readLevel

theorem mem_all (f : Field) : f ∈ all := by cases f <;> decide

theorem name_injective : Function.Injective fun f : Field => Text.lit f.name := by
  intro f g h
  cases f <;> cases g <;> first | rfl | exact absurd h (by decide)

end Field

namespace Settings

/-- What the settings say in a field. -/
def get (s : Settings) : (f : Field) → f.Content
  | .appName => s.appName
  | .narrow => s.narrow
  | .strategy => s.strategy
  | .stagingDir => s.stagingDir
  | .dialect => s.dialect
  | .background => s.background
  | .logLevel => s.logLevel

/-- The settings with another content of a field. -/
def put (s : Settings) : (f : Field) → f.Content → Settings
  | .appName, t => { s with appName := t }
  | .narrow, b => { s with narrow := b }
  | .strategy, k => { s with strategy := k }
  | .stagingDir, t => { s with stagingDir := t }
  | .dialect, t => { s with dialect := t }
  | .background, t => { s with background := t }
  | .logLevel, l => { s with logLevel := l }

end Settings

namespace Field

/-- What a field holds if it may be given a value: the default if it is given none. -/
def content (f : Field) : Option Value → Except FieldFault f.Content
  | none => .ok (({} : Settings).get f)
  | some v => f.read v

/-- What is told about a field that may be given a value, if anything is. -/
def fault? (f : Field) (v? : Option Value) : Option (Field × FieldFault) :=
  match f.content v? with
  | .ok _ => none
  | .error e => some (f, e)

/-- All that is told about the values that are given to the fields. -/
def faults (given : Field → Option Value) : List (Field × FieldFault) :=
  all.filterMap fun f => f.fault? (given f)

/-- What a field that holds `c` holds behind an attempt to read a value. -/
def kept (f : Field) (v? : Option Value) (c : f.Content) : f.Content :=
  match v? with
  | none => c
  | some v => (f.read v).toOption.getD c

theorem fault?_eq_none_iff {f : Field} {v? : Option Value} :
    f.fault? v? = none ↔ ∃ c, f.content v? = .ok c := by
  unfold fault?
  cases f.content v? with
  | ok c => exact ⟨fun _ => ⟨c, rfl⟩, fun _ => rfl⟩
  | error e => exact ⟨nofun, nofun⟩

theorem faults_eq_nil_iff {given : Field → Option Value} :
    faults given = [] ↔ ∀ f : Field, ∃ c, f.content (given f) = .ok c := by
  rw [faults, List.filterMap_eq_nil_iff]
  exact ⟨fun h f => fault?_eq_none_iff.1 (h f f.mem_all), fun h f _ => fault?_eq_none_iff.2 (h f)⟩

/-- A value that can be read is kept, over the default or whatever stood there. -/
theorem kept_eq {f : Field} {v? : Option Value} {c : f.Content} (h : f.content v? = .ok c) :
    f.kept v? (({} : Settings).get f) = c := by
  cases v? with
  | none => exact Except.ok.inj h
  | some v =>
    change f.read v = .ok c at h
    simp only [kept, h, Except.toOption, Option.getD_some]

/-- To read a value once more changes nothing. -/
theorem kept_kept (f : Field) (v? : Option Value) (c : f.Content) :
    f.kept v? (f.kept v? c) = f.kept v? c := by
  cases v? with
  | none => rfl
  | some v =>
    simp only [kept]
    cases f.read v with
    | ok d => rfl
    | error e => rfl

end Field

namespace Settings

variable {s s' : Settings} {entries : Entries}

theorem set_eq (s : Settings) (v : Value) (f : Field) : s.set v f = (f.read v).map (s.put f) := by
  cases f <;> rfl

theorem get_put_self (s : Settings) (f : Field) (c : f.Content) : (s.put f c).get f = c := by
  cases f <;> rfl

/-- No field has an influence on another one. -/
theorem get_put_of_ne {f g : Field} (h : g ≠ f) (s : Settings) (c : f.Content) :
    (s.put f c).get g = s.get g := by
  cases f <;> cases g <;> first | rfl | exact absurd rfl h

/-- Settings are what they say in their fields. -/
theorem eq_of_get_eq (h : ∀ f, s.get f = s'.get f) : s = s' := by
  -- each side is built of what it says in its fields
  calc s = ⟨s.get .appName, s.get .narrow, s.get .strategy, s.get .stagingDir, s.get .dialect,
        s.get .background, s.get .logLevel⟩ := rfl
    _ = ⟨s'.get .appName, s'.get .narrow, s'.get .strategy, s'.get .stagingDir, s'.get .dialect,
        s'.get .background, s'.get .logLevel⟩ := by simp only [h]
    _ = s' := rfl

/-- **The step.** The field is read, or it is told why not, and all other fields stay. -/
theorem setGiven_spec (entries : Entries) (acc : Settings × List (Field × FieldFault)) (f : Field) :
    (setGiven entries acc f).2 = acc.2 ++ (f.fault? (given entries f)).toList ∧
      (setGiven entries acc f).1.get f = f.kept (given entries f) (acc.1.get f) ∧
      ∀ g, g ≠ f → (setGiven entries acc f).1.get g = acc.1.get g := by
  unfold setGiven
  cases hgiven : given entries f with
  | none => exact ⟨(List.append_nil _).symm, rfl, fun _ _ => rfl⟩
  | some v =>
    simp only [set_eq, Field.fault?, Field.content, Field.kept]
    cases f.read v with
    | ok c =>
      exact ⟨(List.append_nil _).symm, get_put_self acc.1 f c, fun g hg => get_put_of_ne hg acc.1 c⟩
    | error e => exact ⟨rfl, rfl, fun _ _ => rfl⟩

/-- **The run.** After some fields, just these are read, and the reasons why fields could not be
read are told in order. -/
theorem foldl_setGiven (entries : Entries) (fs : List Field)
    (acc : Settings × List (Field × FieldFault)) :
    (fs.foldl (setGiven entries) acc).2
        = acc.2 ++ fs.filterMap (fun f => f.fault? (given entries f)) ∧
      ∀ g, (fs.foldl (setGiven entries) acc).1.get g
        = if g ∈ fs then g.kept (given entries g) (acc.1.get g) else acc.1.get g := by
  induction fs generalizing acc with
  | nil => exact ⟨(List.append_nil _).symm, fun g => (if_neg List.not_mem_nil).symm⟩
  | cons f fs ih =>
    obtain ⟨hfaults, hself, hother⟩ := setGiven_spec entries acc f
    obtain ⟨ihfaults, ihget⟩ := ih (setGiven entries acc f)
    refine ⟨?_, fun g => ?_⟩
    · rw [List.foldl_cons, ihfaults, hfaults, List.append_assoc]
      congr 1
      rw [List.filterMap_cons]
      cases f.fault? (given entries f) with
      | none => rfl
      | some e => rfl
    · rw [List.foldl_cons, ihget]
      by_cases hg : g = f
      · -- the field is read here, and perhaps once more later on
        subst hg
        rw [hself, Field.kept_kept, ite_self, if_pos List.mem_cons_self]
      · rw [hother g hg]
        simp only [List.mem_cons, hg, false_or]

/-- What reading entries comes to: the fields, each read on its own, unless something is told. -/
theorem ofEntries_eq (entries : Entries) :
    ∃ s, (∀ f, s.get f = f.kept (given entries f) (({} : Settings).get f)) ∧
      ofEntries entries
        = if Field.faults (given entries) = [] then .ok s
          else .error (Field.faults (given entries)) := by
  obtain ⟨hfaults, hget⟩ := foldl_setGiven entries Field.all ({}, [])
  rw [List.nil_append] at hfaults
  -- the settings are those at the end of the run, whether they are given back or not
  refine ⟨_, fun f => (hget f).trans (if_pos f.mem_all), ?_⟩
  change _ = if Field.all.filterMap (fun f => f.fault? (given entries f)) = [] then Except.ok _
    else Except.error (Field.all.filterMap fun f => f.fault? (given entries f))
  rw [← hfaults]
  unfold ofEntries
  generalize Field.all.foldl (setGiven entries) ({}, []) = acc
  obtain ⟨s, faults⟩ := acc
  cases faults with
  | nil => rfl
  | cons e faults => rfl

/-- **Which settings are read.** -/
theorem ofEntries_eq_ok_iff :
    ofEntries entries = .ok s ↔ ∀ f : Field, f.content (given entries f) = .ok (s.get f) := by
  obtain ⟨s', hget, heq⟩ := ofEntries_eq entries
  rw [heq]
  constructor
  · intro h f
    split at h
    · next hnone =>
      obtain rfl : s' = s := Except.ok.inj h
      obtain ⟨c, hc⟩ := Field.faults_eq_nil_iff.1 hnone f
      rw [hc, hget f, Field.kept_eq hc]
    · cases h
  · intro h
    -- nothing is told, and what is read says the same as `s` in each field
    rw [if_pos (Field.faults_eq_nil_iff.2 fun f => ⟨_, h f⟩)]
    apply congrArg
    apply eq_of_get_eq
    intro f
    rw [hget f, Field.kept_eq (h f)]

/-- **What is told instead.** -/
theorem ofEntries_eq_error_iff {faults : List (Field × FieldFault)} :
    ofEntries entries = .error faults ↔
      faults = Field.faults (given entries) ∧ faults ≠ [] := by
  obtain ⟨s', -, heq⟩ := ofEntries_eq entries
  rw [heq]
  split
  · next hnone => exact ⟨nofun, fun ⟨h, hne⟩ => absurd (h.trans hnone) hne⟩
  · next hne =>
    rw [Except.error.injEq]
    constructor
    · rintro rfl
      exact ⟨rfl, hne⟩
    · exact fun h => h.1.symm

/-- All that the result depends on is what the fields are given. -/
theorem ofEntries_congr {entries' : Entries} (h : given entries = given entries') :
    ofEntries entries = ofEntries entries' := by
  cases hread : ofEntries entries' with
  | ok s =>
    rw [ofEntries_eq_ok_iff, h]
    exact ofEntries_eq_ok_iff.1 hread
  | error faults =>
    rw [ofEntries_eq_error_iff, h]
    exact ofEntries_eq_error_iff.1 hread

end Settings

end LiterateEdit
