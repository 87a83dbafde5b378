import LiterateEdit.CommandLine.Run
import LiterateEdit.Proofs.Settings.Sources

/-!
# Settings that cannot be loaded

If loading the settings fails, the user should be told why: a command that loads them goes on, or
shows one line with what is wrong and exits with code 1 (`Settings.Reported`). That is so if the
file is no YAML at all, and if a field cannot be read. It is not so if the file holds a value that
is no mapping from texts. The first source that is put onto such a value stumbles over it, or the
reading of the entries does if nothing is put on (`Settings.refusal`), and for none of these errors
there is anything to tell.

`Settings.settings_reported_iff` says that there is no other gap.
-/

namespace LiterateEdit

open Yaml (Value)

namespace Settings

variable {w : World} {env : Environment} {overrides : Entries} {v : Value} {sh : Shell}

/-- A value is a mapping from texts. -/
def HasNames (v : Value) : Prop := ∃ es, v = .map (keyed es)

theorem hasNames_iff : HasNames v ↔ (entries v).isOk = true := by
  constructor
  · rintro ⟨es, hes⟩
    rw [entries_eq_ok_iff.2 hes]
    rfl
  · intro h
    cases hentries : entries v with
    | error e =>
      rw [hentries] at h
      cases h
    | ok es => exact ⟨es, entries_eq_ok_iff.1 hentries⟩

/-- How loading is refused if the file holds no mapping from texts. -/
def refusal (env : Environment) (overrides : Entries) : Value → LoadError
  | .map _ => .noNames
  | v =>
    if fromVariables env Field.all ≠ [] then .takesNoEntry
    else
      match v with
      | .set _ => .noNames
      | _ => if overrides.isEmpty then .noNames else .takesNoUpdate

/-- There is nothing to tell about a refusal. -/
theorem message?_refusal (env : Environment) (overrides : Entries) (v : Value) :
    (refusal env overrides v).message? = none := by
  unfold refusal
  split
  · rfl
  · split
    · rfl
    · split
      · rfl
      · split <;> rfl

/-! ### A mapping with a key that is no text -/

/-- Some key is no text. -/
def HasOtherKey (kvs : List (Value × Value)) : Prop := ∃ e ∈ kvs, ∀ t, e.1 ≠ .text t

/-- No key goes when an entry is set. -/
theorem exists_mem_insert {k x : Value} {kvs : List (Value × Value)} {e : Value × Value}
    (he : e ∈ kvs) : ∃ e' ∈ Value.insert k x kvs, e'.1 = e.1 := by
  induction kvs with
  | nil => exact absurd he List.not_mem_nil
  | cons d kvs ih =>
    rw [show d = (d.1, d.2) from rfl, Value.insert]
    split
    · -- an entry that is replaced keeps its key, which need not be the one that is set
      rcases List.mem_cons.1 he with rfl | he
      · exact ⟨(e.1, x), List.mem_cons_self, rfl⟩
      · exact ⟨e, List.mem_cons_of_mem _ he, rfl⟩
    · rcases List.mem_cons.1 he with rfl | he
      · exact ⟨e, List.mem_cons_self, rfl⟩
      · obtain ⟨e', he', hkey⟩ := ih he
        exact ⟨e', List.mem_cons_of_mem _ he', hkey⟩

theorem HasOtherKey.insertAll {kvs : List (Value × Value)} (h : HasOtherKey kvs) (more : Entries) :
    HasOtherKey (insertAll more kvs) := by
  induction more generalizing kvs with
  | nil => exact h
  | cons o more ih =>
    apply ih
    obtain ⟨e, he, hkey⟩ := h
    obtain ⟨e', he', hsame⟩ := exists_mem_insert he
    exact ⟨e', he', fun t => hsame ▸ hkey t⟩

theorem HasOtherKey.entries {kvs : List (Value × Value)} (h : HasOtherKey kvs) :
    entries (.map kvs) = .error .noNames := by
  change kvs.mapM namedEntry = _
  induction kvs with
  | nil =>
    obtain ⟨e, he, -⟩ := h
    exact absurd he List.not_mem_nil
  | cons d kvs ih =>
    obtain ⟨e, he, hkey⟩ := h
    obtain ⟨k, x⟩ := d
    rw [List.mapM_cons]
    cases k with
    | text t =>
      rcases List.mem_cons.1 he with rfl | he
      · exact absurd rfl (hkey t)
      · rw [ih ⟨e, he, hkey⟩]
        rfl
    | _ => rfl

/-- A mapping is one from texts, or some key is no text. -/
theorem hasNames_or_hasOtherKey (kvs : List (Value × Value)) :
    HasNames (.map kvs) ∨ HasOtherKey kvs := by
  induction kvs with
  | nil => exact .inl ⟨[], rfl⟩
  | cons e kvs ih =>
    obtain ⟨k, x⟩ := e
    cases k with
    | text t =>
      rcases ih with ⟨es, hes⟩ | ⟨e, he, hkey⟩
      · rw [Value.map.inj hes]
        exact .inl ⟨(t, x) :: es, rfl⟩
      · exact .inr ⟨e, List.mem_cons_of_mem _ he, hkey⟩
    | _ => exact .inr ⟨_, List.mem_cons_self, nofun⟩

/-! ### Another value -/

/-- The first variable that gives a field is the one that does not go onto the value. -/
theorem foldlM_putVariable_other (hv : ∀ kvs, v ≠ .map kvs) (env : Environment) (fs : List Field) :
    fs.foldlM (putVariable env) v
      = if fromVariables env fs ≠ [] then .error .takesNoEntry else .ok v := by
  induction fs with
  | nil => rfl
  | cons f fs ih =>
    rw [List.foldlM_cons, fromVariables, List.filterMap_cons, putVariable]
    cases variableValue? env f with
    | none => exact ih
    | some x =>
      have hentry : withEntry v (Text.lit f.name) x = .error .takesNoEntry := by
        cases v with
        | map kvs => exact absurd rfl (hv kvs)
        | _ => rfl
      have hsome : ((some x).map (Text.lit f.name, ·)) = some (Text.lit f.name, x) := rfl
      simp only [hentry, hsome, ne_eq, List.cons_ne_nil, not_false_eq_true, if_true]
      rfl

theorem load_of_other (h : fileValue w = .ok v) (hv : ∀ kvs, v ≠ .map kvs) (env : Environment)
    (overrides : Entries) : load w env overrides = .error (refusal env overrides v) := by
  have henv := (withEnvironment_eq env v).trans (foldlM_putVariable_other hv env Field.all)
  unfold load
  rw [h]
  by_cases hnone : fromVariables env Field.all = []
  · -- the environment puts nothing on, so the overrides or the reading come upon the value
    rw [if_neg (not_not.2 hnone)] at henv
    simp only [bind, Except.bind, henv, withOverrides]
    cases v with
    | map kvs => exact absurd rfl (hv kvs)
    | _ => simp only [refusal, hnone, ne_eq, not_true_eq_false, if_false]; cases overrides <;> rfl
  · rw [if_pos hnone] at henv
    simp only [bind, Except.bind, henv]
    cases v with
    | map kvs => exact absurd rfl (hv kvs)
    | _ => exact congrArg _ (if_pos hnone).symm

/-- **How loading is refused.** -/
theorem load_eq_refusal (h : fileValue w = .ok v) (hv : ¬HasNames v) (env : Environment)
    (overrides : Entries) : load w env overrides = .error (refusal env overrides v) := by
  by_cases hmap : ∃ kvs, v = .map kvs
  · -- entries are set as in any mapping, and the key that is no text is found at the end
    obtain ⟨kvs, rfl⟩ := hmap
    have hother := (hasNames_or_hasOtherKey kvs).resolve_left hv
    rw [load_of_map h, (hother.insertAll _).entries]
    rfl
  · exact load_of_other h (fun kvs hkvs => hmap ⟨kvs, hkvs⟩) env overrides

/-! ### What a command does -/

/-- **Settings are reported**: the command goes on with them, or tells why they cannot be loaded
and exits with code 1. -/
inductive Reported (sh : Shell) (overrides : Entries) : Prop where
  | loaded (s : Settings) (hload : load sh.world sh.environment overrides = .ok s)
      (hact : (Action.settings overrides).run.run sh = (.ok s, { sh with level := s.logLevel }))
  | told (e : LoadError) (hload : load sh.world sh.environment overrides = .error e)
      (what : Text) (hwhat : what = Text.lit invalidFile ∨ what = Text.lit invalidFields)
      (why : Text) (hmessage : e.message? = some (what ++ why))
      (hact : (Action.settings overrides).run.run sh = (.error (.exit 1),
        { sh with err := sh.err ++ sh.shown (Text.lit "Error: " ++ (what ++ why) ++ ['\n']) }))

/-- What loading the settings does to a command. -/
theorem settings_run (sh : Shell) (overrides : Entries) :
    (Action.settings overrides).run.run sh =
      match load sh.world sh.environment overrides with
      | .ok s => (.ok s, { sh with level := s.logLevel })
      | .error e =>
        match e.message? with
        | some m => (.error (.exit 1),
            { sh with err := sh.err ++ sh.shown (Text.lit "Error: " ++ m ++ ['\n']) })
        | none => (.error (.failed (.settings e)), sh) := by
  have hrun : (Action.settings overrides).run.run sh =
      ((match load sh.world sh.environment overrides with
        | .ok s => do
          Action.update fun shell => { shell with level := s.logLevel }
          return s
        | .error e =>
          match e.message? with
          | some m => Action.reject m none
          | none => Action.fail (.settings e)) : Action Settings).run.run sh := rfl
  rw [hrun]
  cases load sh.world sh.environment overrides with
  | ok s => rfl
  | error e =>
    dsimp only
    cases e.message? with
    | none => rfl
    | some m => rfl

/-- **Which settings are reported.** The file can be read, and it is a YAML document or malformed.
Then the user gets the settings, or is told what is wrong, exactly if the file is malformed or holds
a mapping from texts, whatever the environment and the overrides are. Otherwise the command dies of
an error that there is nothing to tell about, and which one this is depends on the source that came
upon the value. -/
theorem settings_reported_iff (sh : Shell) (overrides : Entries)
    (hfile : ∀ e, fileValue sh.world = .error e → e = .yaml .malformed) :
    (Reported sh overrides ↔ ∀ v, fileValue sh.world = .ok v → HasNames v) ∧
      ∀ v, fileValue sh.world = .ok v → ¬HasNames v →
        load sh.world sh.environment overrides
            = .error (refusal sh.environment overrides v) ∧
          (Action.settings overrides).run.run sh
            = (.error (.failed (.settings (refusal sh.environment overrides v))), sh) := by
  have hrun := settings_run sh overrides
  have hrefused : ∀ v, fileValue sh.world = .ok v → ¬HasNames v →
      load sh.world sh.environment overrides = .error (refusal sh.environment overrides v) ∧
        (Action.settings overrides).run.run sh
          = (.error (.failed (.settings (refusal sh.environment overrides v))), sh) := by
    intro v hv hnames
    have hload := load_eq_refusal hv hnames sh.environment overrides
    refine ⟨hload, ?_⟩
    rw [hrun, hload]
    simp only [message?_refusal]
  refine ⟨⟨fun hreported v hv => ?_, fun hnames => ?_⟩, hrefused⟩
  · by_contra hother
    -- the settings are refused, and what is told about them would be the message of a refusal
    obtain ⟨hload, -⟩ := hrefused v hv hother
    cases hreported with
    | loaded s hok =>
      rw [hload] at hok
      cases hok
    | told e herror what _ why hmessage =>
      rw [hload] at herror
      obtain rfl := Except.error.inj herror
      rw [message?_refusal] at hmessage
      cases hmessage
  · cases hvalue : fileValue sh.world with
    | error e =>
      -- the file is malformed
      obtain rfl := hfile e hvalue
      have hload : load sh.world sh.environment overrides = .error (.yaml .malformed) := by
        unfold load
        rw [hvalue]
        rfl
      rw [hload] at hrun
      exact .told _ hload _ (.inl rfl) _ rfl hrun
    | ok v =>
      obtain ⟨es, rfl⟩ := hnames v hvalue
      obtain ⟨es', -, hload⟩ :=
        load_of_holdsEntries (holdsEntries_of_fileValue hvalue) sh.environment overrides
      cases hread : ofEntries es' with
      | ok s =>
        rw [hread] at hload
        rw [hload] at hrun
        exact .loaded s hload hrun
      | error faults =>
        rw [hread] at hload
        rw [hload] at hrun
        exact .told _ hload _ (.inr rfl) _ rfl hrun

/-- A file that is known to hold a value, and to hold names or not. -/
theorem fileValue_cases (names : Bool)
    (h : (fileValue w).toOption.map (fun v => (entries v).isOk) = some names) :
    (∀ e, fileValue w = .error e → e = .yaml .malformed) ∧
      ∃ v, fileValue w = .ok v ∧ (HasNames v ↔ names = true) := by
  cases hv : fileValue w with
  | error e =>
    rw [hv] at h
    cases h
  | ok v =>
    rw [hv] at h
    obtain rfl : (entries v).isOk = names := Option.some.inj h
    exact ⟨nofun, v, rfl, hasNames_iff⟩

/-- A file that holds a sequence, and one that holds a mapping with a value that cannot be read. -/
theorem settings_reported_iff_sequence :
    let holding (stored : String) : Shell :=
      { world := ⟨⟨[([Text.lit "config.yaml"], .file (Utf8.encode (Text.lit stored)))]⟩,
          .ofText (Text.lit "/")⟩
        environment := []
        styled := false }
    let sequence := holding "- a\n"
    let mapping := holding "narrow: maybe\n"
    ((∀ e, fileValue sequence.world = .error e → e = .yaml .malformed) ∧
        ¬Reported sequence []) ∧
      (∀ e, fileValue mapping.world = .error e → e = .yaml .malformed) ∧ Reported mapping [] := by
  intro holding sequence mapping
  obtain ⟨hfile, v, hv, hnames⟩ := fileValue_cases (w := sequence.world) false (by decide +kernel)
  obtain ⟨hfile', v', hv', hnames'⟩ := fileValue_cases (w := mapping.world) true (by decide +kernel)
  refine ⟨⟨hfile, fun h => ?_⟩, hfile', ?_⟩
  · have hread := (settings_reported_iff sequence [] hfile).1.1 h v hv
    exact absurd (hnames.1 hread) Bool.false_ne_true
  · refine (settings_reported_iff mapping [] hfile').1.2 fun x hx => ?_
    rw [hv'] at hx
    cases hx
    exact hnames'.2 rfl

end Settings

end LiterateEdit
