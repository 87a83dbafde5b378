import LiterateEdit.Proofs.Block.Info

/-!
# Header arguments in words

Header arguments are spelled out in words, the name of each as a key and its value as one word
behind it (`HeaderArgs.spelled`). Arguments that can be spelled (`HeaderArgs.IsSpellable`) are what
these words are read as (`pairs_spelled`). The first of the words is a key, so it ends what stands
before it: words that are spelled out behind others are read behind what the others say
(`Info.ofWords_append_spelled`).

An info string is written from a language and arguments by quoting each word of them for the shell
and joining the words by blanks (`Info.written`). It is read as just these, and nothing is noticed
on the way (`Info.parse_written`).
-/

namespace LiterateEdit

open Text (Undone shellQuoted singleQuoted)

variable {args : HeaderArgs} {quote : Text → Text}

namespace HeaderArgs

/-- The words that stand for arguments: each name as a key, with its value behind it. -/
def spelled (args : HeaderArgs) : List Text := args.flatMap fun kv => [':' :: kv.1, kv.2]

/-- Arguments that words can stand for. -/
structure IsSpellable (args : HeaderArgs) : Prop where
  /-- Each name stands there once. -/
  nodup : args.names.Nodup
  /-- No name is empty, and all are in lower case. -/
  name : ∀ kv ∈ args, kv.1 ≠ [] ∧ Text.lower kv.1 = kv.1
  /-- No value starts with a colon unless it is just that. -/
  value : ∀ kv ∈ args, kv.2.head? = some ':' → kv.2 = [':']

end HeaderArgs

namespace Info

variable {name value : Text}

theorem isKey_colon (h : name ≠ []) : isKey (':' :: name) = true :=
  isKey_iff.2 ⟨rfl, Nat.succ_lt_succ (List.length_pos_iff.2 h)⟩

theorem keyName_colon (h : Text.lower name = name) : keyName (':' :: name) = name := h

theorem isKey_eq_false (h : value.head? = some ':' → value = [':']) : isKey value = false := by
  refine Bool.eq_false_iff.2 fun hkey => ?_
  obtain ⟨hhead, hlength⟩ := isKey_iff.1 hkey
  rw [h hhead] at hlength
  exact Nat.lt_irrefl 1 hlength

end Info

namespace HeaderArgs.IsSpellable

theorem tail {kv : Text × Text} (h : IsSpellable (kv :: args)) : IsSpellable args where
  nodup := (List.nodup_cons.1 h.nodup).2
  name := fun kv hkv => h.name kv (List.mem_cons_of_mem _ hkv)
  value := fun kv hkv => h.value kv (List.mem_cons_of_mem _ hkv)

theorem startsWithKey (h : args.IsSpellable) : Info.StartsWithKey args.spelled := by
  cases args with
  | nil => exact nofun
  | cons kv args =>
    intro w hw
    obtain rfl := Option.some.inj hw
    exact Info.isKey_colon (h.name kv List.mem_cons_self).1

end HeaderArgs.IsSpellable

namespace Info

/-- **Words that stand for arguments are read as those.** -/
theorem pairs_spelled (h : args.IsSpellable) : pairs args.spelled = args := by
  induction args with
  | nil => rfl
  | cons kv args ih =>
    obtain ⟨hname, hlower⟩ := h.name kv List.mem_cons_self
    have hvalue := isKey_eq_false (h.value kv List.mem_cons_self)
    have hrest := pairs_append_of_not_isKey (List.forall_mem_singleton.2 hvalue)
      (HeaderArgs.spelled args)
    -- the value is the one word up to the next key
    have htake := takeWhile_append_of_startsWithKey h.tail.startsWithKey [kv.2]
    rw [List.takeWhile_cons_of_pos (by rw [hvalue]; rfl), List.takeWhile_nil] at htake
    change pairs ((':' :: kv.1) :: ([kv.2] ++ HeaderArgs.spelled args)) = kv :: args
    rw [pairs, if_pos (isKey_colon hname), htake, hrest, ih h.tail, keyName_colon hlower,
      Text.join_singleton]

/-- **Arguments that are spelled out behind words** are set behind what the words say. -/
theorem ofWords_append_spelled (h : args.IsSpellable) (ws : List Text) :
    ofWords (ws ++ args.spelled) = ⟨(ofWords ws).language, (ofWords ws).args.setAll args⟩ := by
  have hsplit := splitLanguage_append h.startsWithKey ws
  have hargs : (ofWords (ws ++ args.spelled)).args = (ofWords ws).args.setAll args := by
    rw [args_ofWords, hsplit, pairs_append h.startsWithKey, pairs_spelled h]
    exact List.foldl_append
  have hlanguage : (ofWords (ws ++ args.spelled)).language = (ofWords ws).language := by
    rw [language_ofWords, hsplit, language_ofWords]
  rw [← hargs, ← hlanguage]

/-- The words that stand for a language and arguments. -/
def spelled (i : Info) : List Text := i.language.toList ++ i.args.spelled

/-- The info string that says a language and arguments, with each word quoted. -/
def written (quote : Text → Text) (i : Info) : Text :=
  Text.join [' '] (i.spelled.map quote)

variable {i : Info}

theorem splitLanguage_spelled (hlanguage : ∀ l, i.language = some l → l.head? ≠ some ':')
    (hargs : i.args.IsSpellable) : splitLanguage i.spelled = (i.language, i.args.spelled) := by
  have hwords : splitLanguage i.language.toList = (i.language, []) := by
    cases hl : i.language with
    | none => rfl
    | some l => exact if_neg (hlanguage l hl)
  rw [spelled, splitLanguage_append hargs.startsWithKey, hwords, List.nil_append]

/-- **What is written is read back**, and nothing is noticed, if each word is quoted in a way that
the shell undoes. -/
theorem parse_written_of_undone (hquote : Undone quote)
    (hlanguage : ∀ l, i.language = some l → l.head? ≠ some ':') (hargs : i.args.IsSpellable) :
    parse (i.written quote) = .quiet i := by
  have hwords : words (i.written quote) = .quiet i.spelled := by
    rw [words, written, Text.shellWords_join hquote]
  have hsplit := splitLanguage_spelled hlanguage hargs
  have hread : ofWords i.spelled = i := by
    have hset : HeaderArgs.setAll [] i.args = i.args := @HeaderArgs.setAll_of_nodup [] _ hargs.nodup
    change (⟨(splitLanguage i.spelled).1,
      HeaderArgs.setAll [] (pairs (splitLanguage i.spelled).2)⟩ : Info) = i
    rw [hsplit, pairs_spelled hargs, hset]
  -- the words behind the language start with a key
  have hstray : strayNotices i.args.spelled = [] := by
    have htake := takeWhile_append_of_startsWithKey hargs.startsWithKey []
    rw [List.nil_append, List.takeWhile_nil] at htake
    rw [strayNotices, htake, List.map_nil]
  rw [parse, hwords]
  change (⟨ofWords i.spelled, strayNotices (splitLanguage i.spelled).2⟩ : Noted Info) = .quiet i
  rw [hread, hsplit, hstray]
  rfl

/-- **Quoted header arguments survive.** A language that does not start with a colon and arguments
that can be spelled are read back from the info string that is written from them, whether each word
stands between single quotes or only those that need it. -/
theorem parse_written (hlanguage : ∀ l, i.language = some l → l.head? ≠ some ':')
    (hargs : i.args.IsSpellable) :
    ∀ quote ∈ [singleQuoted, shellQuoted], parse (i.written quote) = .quiet i :=
  fun _ hquote => parse_written_of_undone (Text.undone_of_mem hquote) hlanguage hargs

/-- An empty language, and values with quotes, blanks, a backslash and a line feed, a lone colon,
and nothing at all. -/
theorem parse_written_odd_values :
    let args : HeaderArgs :=
      [(Text.lit "tangle", Text.lit "it's \"a b\" \\\n"), (Text.lit ":x", [':']),
        (Text.lit "no web", [])]
    let i : Info := ⟨some [], args⟩
    (∀ l, i.language = some l → l.head? ≠ some ':') ∧ i.args.IsSpellable ∧
      ∀ quote ∈ [singleQuoted, shellQuoted], parse (i.written quote) = .quiet i := by
  intro args i
  have hlanguage : ∀ l, i.language = some l → l.head? ≠ some ':' := by
    rintro l hl
    obtain rfl := Option.some.inj hl
    exact nofun
  have hargs : i.args.IsSpellable :=
    ⟨by decide +kernel, by decide +kernel, by decide +kernel⟩
  exact ⟨hlanguage, hargs, parse_written hlanguage hargs⟩

example :
    written shellQuoted ⟨some (Text.lit "py"), [(Text.lit "tangle", Text.lit "it's.py")]⟩
      = Text.lit "py :tangle 'it'\"'\"'s.py'" := by
  decide +kernel

end Info

end LiterateEdit
