import LiterateEdit.Block.Info
import LiterateEdit.Proofs.Block.HeaderArgs
import LiterateEdit.Proofs.Text.ShellWords

/-!
# What an info string says

The words of an info string are read from left to right: the language, then keys with the words of
their values. The value that counts for a name stands behind the last key with that name and goes up
to the next key (`ValueIn`). This is found word by word from the end (`valueIn_cons`,
`get?_reverse_pairs_eq_some_iff`). The words before the first key say nothing (`pairs_dropWhile`).
With that `parse_value_spec` says what is read from any info string.

Words that start with a key (`StartsWithKey`) end the value before them, and name no language. So
they are read for themselves behind any other words (`pairs_append`, `splitLanguage_append`).
-/

namespace LiterateEdit

namespace Info

variable {ws more : List Text} {w name value : Text}

/-! ### Keys and their values -/

theorem isKey_iff : isKey w = true ↔ w.head? = some ':' ∧ 1 < w.length := by
  unfold isKey
  split
  · simp
  · next hne =>
    refine iff_of_false nofun fun ⟨hhead, hlength⟩ => ?_
    match w, hhead, hlength with
    | [c], _, hlength => exact absurd hlength (Nat.lt_irrefl 1)
    | c :: d :: rest, hhead, _ =>
      obtain rfl := Option.some.inj hhead
      exact hne d rest rfl

/-- The names that come up are those of the keys. -/
theorem names_pairs (ws : List Text) :
    HeaderArgs.names (pairs ws) = (ws.filter isKey).map keyName := by
  induction ws with
  | nil => rfl
  | cons w ws ih =>
    rw [pairs]
    split
    · next hkey => rw [List.filter_cons_of_pos hkey, List.map_cons, ← ih]; rfl
    · next hkey => rw [List.filter_cons_of_neg hkey, ih]

/-- Words that are no keys say nothing if no key is before them. -/
theorem pairs_append_of_not_isKey (h : ∀ v ∈ ws, isKey v = false) (more : List Text) :
    pairs (ws ++ more) = pairs more := by
  induction ws with
  | nil => rfl
  | cons w ws ih =>
    obtain ⟨hw, hws⟩ := List.forall_mem_cons.1 h
    rw [List.cons_append, pairs, hw, if_neg Bool.false_ne_true, ih hws]

theorem pairs_dropWhile (ws : List Text) :
    pairs (ws.dropWhile fun w => !isKey w) = pairs ws := by
  have hstray : ∀ v ∈ ws.takeWhile fun w => !isKey w, isKey v = false := fun v hv => by
    simpa using List.all_eq_true.1 List.all_takeWhile v hv
  have happend := pairs_append_of_not_isKey hstray (ws.dropWhile fun w => !isKey w)
  rwa [List.takeWhile_append_dropWhile, eq_comm] at happend

/-- The first word, if there is one, is a key. -/
def StartsWithKey (ws : List Text) : Prop := ∀ w, ws.head? = some w → isKey w = true

theorem startsWithKey_dropWhile (ws : List Text) :
    StartsWithKey (ws.dropWhile fun w => !isKey w) := fun w hw => by
  have hnot := List.head?_dropWhile_not (fun w => !isKey w) ws
  rw [hw] at hnot
  simpa using hnot

/-- A value ends where words start with a key. -/
theorem takeWhile_append_of_startsWithKey (h : StartsWithKey more) (ws : List Text) :
    (ws ++ more).takeWhile (fun w => !isKey w) = ws.takeWhile fun w => !isKey w := by
  have hmore : more.takeWhile (fun w => !isKey w) = [] := by
    cases more with
    | nil => rfl
    | cons w more => exact List.takeWhile_cons_of_neg (by simp [h w rfl])
  rw [List.takeWhile_append, hmore, List.append_nil]
  split
  · next hlength => exact ((List.takeWhile_prefix _).eq_of_length hlength).symm
  · rfl

/-- **Words that start with a key are read for themselves**, whatever stands before them. -/
theorem pairs_append (h : StartsWithKey more) (ws : List Text) :
    pairs (ws ++ more) = pairs ws ++ pairs more := by
  induction ws with
  | nil => rfl
  | cons w ws ih =>
    rw [List.cons_append, pairs, pairs, takeWhile_append_of_startsWithKey h, ih]
    split <;> rfl

/-- A value stands behind the last key with a name, up to the next key. -/
def ValueIn (ws : List Text) (name value : Text) : Prop :=
  ∃ before key after, ws = before ++ key :: after ∧ isKey key = true ∧ keyName key = name ∧
    (∀ v ∈ after, isKey v = true → keyName v ≠ name) ∧
    value = Text.join [' '] (after.takeWhile fun v => !isKey v)

/-- One word more: it is the key in question, or the value stands behind it. -/
theorem valueIn_cons :
    ValueIn (w :: ws) name value ↔
      ValueIn ws name value ∨
        isKey w = true ∧ keyName w = name ∧ (∀ v ∈ ws, isKey v = true → keyName v ≠ name) ∧
          value = Text.join [' '] (ws.takeWhile fun v => !isKey v) := by
  constructor
  · rintro ⟨before, key, after, hws, hkey⟩
    obtain ⟨-, hcons⟩ | ⟨before, -, hrest⟩ := List.cons_eq_append_iff.1 hws
    · obtain ⟨rfl, rfl⟩ := List.cons.inj hcons
      exact .inr hkey
    · exact .inl ⟨before, key, after, hrest, hkey⟩
  · rintro (⟨before, key, after, rfl, hkey⟩ | hkey)
    · exact ⟨w :: before, key, after, rfl, hkey⟩
    · exact ⟨[], w, ws, rfl, hkey⟩

theorem not_mem_names_pairs :
    name ∉ HeaderArgs.names (pairs ws).reverse ↔ ∀ v ∈ ws, isKey v = true → keyName v ≠ name := by
  rw [HeaderArgs.names, List.map_reverse, List.mem_reverse, ← HeaderArgs.names, names_pairs]
  simp

/-- **The value that counts for a name** is the one behind the last key with that name. -/
theorem get?_reverse_pairs_eq_some_iff :
    HeaderArgs.get? (pairs ws).reverse name = some value ↔ ValueIn ws name value := by
  induction ws with
  | nil => exact iff_of_false nofun fun ⟨before, _, _, h, _⟩ => by simp at h
  | cons w ws ih =>
    rw [valueIn_cons, ← ih, pairs]
    split
    · -- the key counts if none with its name is behind it
      next hkey =>
      rw [List.reverse_cons, HeaderArgs.get?_append, HeaderArgs.get?_singleton,
        Option.or_eq_some_iff, HeaderArgs.get?_eq_none_iff, not_mem_names_pairs,
        Option.ite_none_right_eq_some, Option.some.injEq]
      refine or_congr_right ⟨?_, ?_⟩
      · rintro ⟨hlast, rfl, rfl⟩
        exact ⟨hkey, rfl, hlast, rfl⟩
      · rintro ⟨-, rfl, hlast, rfl⟩
        exact ⟨hlast, rfl, rfl⟩
    · next hkey => simp [hkey]

/-! ### The language -/

theorem splitLanguage_fst (ws : List Text) :
    (splitLanguage ws).1 = ws.head?.filter fun w => w.head? ≠ some ':' := by
  cases ws with
  | nil => rfl
  | cons w ws =>
    rw [splitLanguage, List.head?_cons, Option.filter_some]
    split
    · next h => simp [h]
    · next h => simp [h]

theorem splitLanguage_snd (ws : List Text) :
    (splitLanguage ws).2 = if (splitLanguage ws).1 = none then ws else ws.tail := by
  cases ws with
  | nil => rfl
  | cons w ws =>
    rw [splitLanguage]
    split <;> rfl

/-- Words that start with a key name no language. -/
theorem splitLanguage_of_startsWithKey (h : StartsWithKey ws) :
    splitLanguage ws = (none, ws) := by
  cases ws with
  | nil => rfl
  | cons w ws => rw [splitLanguage, if_pos (isKey_iff.1 (h w rfl)).1]

/-- Words that start with a key stand behind the language that is named before them. -/
theorem splitLanguage_append (h : StartsWithKey more) (ws : List Text) :
    splitLanguage (ws ++ more) = ((splitLanguage ws).1, (splitLanguage ws).2 ++ more) := by
  cases ws with
  | nil => exact splitLanguage_of_startsWithKey h
  | cons w ws =>
    rw [List.cons_append, splitLanguage, splitLanguage]
    split <;> rfl

/-! ### Any info string -/

theorem words_value (info : Text) :
    (words info).value = (Text.shellWords info).getD (Text.blankWords info) := by
  unfold words
  split
  · next ws hws => rw [hws]; rfl
  · next hnone => rw [hnone]; rfl

theorem language_ofWords (ws : List Text) : (ofWords ws).language = (splitLanguage ws).1 := rfl

theorem args_ofWords (ws : List Text) :
    (ofWords ws).args = HeaderArgs.setAll [] (pairs (splitLanguage ws).2) := rfl

/-- No argument of an info string stands there twice. -/
theorem nodup_names_parse (info : Text) : (parse info).value.args.names.Nodup :=
  @HeaderArgs.nodup_names_setAll [] List.nodup_nil _

theorem get?_ofWords_eq_some_iff :
    (ofWords ws).args.get? name = some value ↔ ValueIn (splitLanguage ws).2 name value := by
  rw [← get?_reverse_pairs_eq_some_iff, args_ofWords, HeaderArgs.get?_setAll]
  exact Option.or_none ▸ Iff.rfl

theorem mem_names_ofWords :
    name ∈ (ofWords ws).args.names ↔
      ∃ w ∈ (splitLanguage ws).2, isKey w = true ∧ keyName w = name := by
  rw [args_ofWords, HeaderArgs.mem_names_setAll, names_pairs]
  simp [HeaderArgs.names, and_assoc]

/-- The words before the first key say nothing about the arguments. -/
theorem ofWords_dropWhile (ws : List Text) :
    (ofWords ((splitLanguage ws).2.dropWhile fun w => !isKey w)).args = (ofWords ws).args := by
  rw [args_ofWords, splitLanguage_of_startsWithKey (startsWithKey_dropWhile _), pairs_dropWhile]
  rfl

/-- **What an info string says.** Its words are shell words, or what stands between white space if a
quote is left open. The first one is the language unless it starts with a colon. Each name of a key
behind it stands there once, with the words between the last key of that name and the next key as
its value; the words before the first key say nothing. -/
theorem parse_value_spec (info : Text) :
    let ws := (Text.shellWords info).getD (Text.blankWords info)
    let parsed := (parse info).value
    let rest := if parsed.language = none then ws else ws.tail
    parsed.language = (ws.head?.filter fun w => w.head? ≠ some ':') ∧
      parsed.args.names.Nodup ∧
      (∀ name, name ∈ parsed.args.names ↔ ∃ w ∈ rest, isKey w = true ∧ keyName w = name) ∧
      (∀ name value, parsed.args.get? name = some value ↔ ValueIn rest name value) ∧
      parsed.args = (ofWords (rest.dropWhile fun w => !isKey w)).args := by
  intro ws parsed rest
  have hparsed : parsed = ofWords ws := congrArg ofWords (words_value info)
  have hrest : rest = (splitLanguage ws).2 := by
    rw [splitLanguage_snd, ← language_ofWords, ← hparsed]
  rw [hrest, hparsed]
  exact ⟨splitLanguage_fst ws, hparsed ▸ nodup_names_parse info, fun _ => mem_names_ofWords,
    fun _ _ => get?_ofWords_eq_some_iff, (ofWords_dropWhile ws).symm⟩

end Info

end LiterateEdit
