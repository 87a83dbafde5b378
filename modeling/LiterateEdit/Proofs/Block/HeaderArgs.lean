import LiterateEdit.Block.Basic

/-!
# Header arguments as a mapping

Header arguments are read by their names (`HeaderArgs.get?`), and have those names whose value can
be read (`get?_eq_none_iff`). Arguments that are set one after another stand there once each
(`nodup_names_setAll`); of several values for one name the last one counts, and the values set
before are read where there is none (`get?_setAll`). Arguments with names of their own are just put
behind those that are there (`setAll_of_nodup`).
-/

namespace LiterateEdit

namespace HeaderArgs

variable {args more : HeaderArgs} {name : Text}

/-- The names of the arguments. -/
def names (args : HeaderArgs) : List Text := args.map Prod.fst

/-! ### Reading a value -/

theorem get?_append (args more : HeaderArgs) (name : Text) :
    (args ++ more).get? name = (args.get? name).or (more.get? name) := List.lookup_append

theorem get?_cons (kv : Text × Text) (args : HeaderArgs) (name : Text) :
    get? (kv :: args) name = if name = kv.1 then some kv.2 else args.get? name := by
  rw [get?, List.lookup_cons]
  split
  · next h => rw [if_pos (beq_iff_eq.1 h)]
  · next h => rw [if_neg (beq_eq_false_iff_ne.1 h), get?]

theorem get?_singleton (kv : Text × Text) (name : Text) :
    get? [kv] name = if name = kv.1 then some kv.2 else none := get?_cons kv [] name

/-- A value can be read for the names of the arguments. -/
theorem get?_eq_none_iff : args.get? name = none ↔ name ∉ args.names := by
  rw [get?, List.lookup_eq_none_iff, names, List.mem_map]
  constructor
  · rintro h ⟨kv, hkv, rfl⟩
    exact bne_iff_ne.1 (h kv hkv) rfl
  · intro h kv hkv
    refine bne_iff_ne.2 ?_
    rintro rfl
    exact h ⟨kv, hkv, rfl⟩

/-! ### Setting values -/

theorem set_of_not_mem {key : Text} (h : key ∉ args.names) (value : Text) :
    args.set key value = args ++ [(key, value)] := by
  induction args with
  | nil => rfl
  | cons kv args ih =>
    obtain ⟨hne, hrest⟩ := not_or.1 (mt List.mem_cons.2 h)
    rw [set, if_neg (Ne.symm hne), ih hrest]
    rfl

theorem names_set (args : HeaderArgs) (key value : Text) :
    (args.set key value).names = if key ∈ args.names then args.names else args.names ++ [key] := by
  induction args with
  | nil => rfl
  | cons kv args ih =>
    rw [set]
    by_cases hkey : kv.1 = key
    · rw [if_pos hkey, if_pos (hkey ▸ List.mem_cons_self)]
      rfl
    · have hmem : key ∈ names (kv :: args) ↔ key ∈ names args := by
        rw [names, List.map_cons, List.mem_cons, or_iff_right (Ne.symm hkey)]
        exact Iff.rfl
      rw [if_neg hkey]
      simp only [hmem]
      change kv.1 :: names (set args key value) = _
      rw [ih]
      split <;> rfl

theorem nodup_names_set (h : args.names.Nodup) (key value : Text) :
    (args.set key value).names.Nodup := by
  rw [names_set]
  split
  · exact h
  · next hkey =>
    refine List.nodup_append.2 ⟨h, List.pairwise_singleton _ key, ?_⟩
    rintro a ha b hb rfl
    exact hkey (List.mem_singleton.1 hb ▸ ha)

/-- Arguments that are set one after another stand there once each. -/
theorem nodup_names_setAll (h : args.names.Nodup) (more : List (Text × Text)) :
    (args.setAll more).names.Nodup := by
  induction more generalizing args with
  | nil => exact h
  | cons kv more ih => exact ih (nodup_names_set h kv.1 kv.2)

/-- **The last value that is given to a name counts**, and the one before all if none is given. -/
theorem get?_setAll (args : HeaderArgs) (more : List (Text × Text)) (name : Text) :
    (args.setAll more).get? name = (get? more.reverse name).or (args.get? name) := by
  induction more generalizing args with
  | nil => rfl
  | cons kv more ih =>
    have hstep : args.setAll (kv :: more) = (args.set kv.1 kv.2).setAll more := rfl
    rw [hstep, ih, get?_set, List.reverse_cons, get?_append, Option.or_assoc, get?_singleton]
    split <;> rfl

theorem mem_names_setAll {more : List (Text × Text)} :
    name ∈ (args.setAll more).names ↔ name ∈ args.names ∨ name ∈ names more := by
  have hreverse : name ∈ names more.reverse ↔ name ∈ names more := by
    rw [names, names, List.map_reverse, List.mem_reverse]
  rw [← Decidable.not_iff_not, ← get?_eq_none_iff, get?_setAll, Option.or_eq_none_iff,
    get?_eq_none_iff, get?_eq_none_iff, hreverse, not_or, and_comm]

theorem setAll_of_nodup (h : (args ++ more).names.Nodup) : args.setAll more = args ++ more := by
  induction more generalizing args with
  | nil => exact (List.append_nil args).symm
  | cons kv more ih =>
    have hkey : kv.1 ∉ args.names := by
      rw [names, List.map_append, List.map_cons] at h
      intro hmem
      exact (List.nodup_append.1 h).2.2 _ hmem _ List.mem_cons_self rfl
    have hstep : args.setAll (kv :: more) = (args ++ [kv]).setAll more := by
      change (args.set kv.1 kv.2).setAll more = _
      rw [set_of_not_mem hkey]
    rw [hstep, ih (by rwa [List.append_assoc]), List.append_assoc]
    rfl

/-- Arguments with each name once override those before. -/
theorem get?_setAll_of_nodup (h : more.names.Nodup) (args : HeaderArgs) (name : Text) :
    (args.setAll more).get? name = (more.get? name).or (args.get? name) := by
  have hreverse : get? more.reverse name = more.get? name := by
    have hset : setAll [] more = more := @setAll_of_nodup [] more h
    have hvalue := get?_setAll [] more name
    rw [hset] at hvalue
    exact (hvalue.trans Option.or_none).symm
  rw [get?_setAll, hreverse]

end HeaderArgs

end LiterateEdit
