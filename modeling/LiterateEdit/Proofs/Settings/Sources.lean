import LiterateEdit.Proofs.Settings.Fields
import LiterateEdit.Settings.Load
import Mathlib.Data.List.Basic

/-!
# Sources of settings

The file, the environment and the overrides are put one onto another, and only then is anything
read. If the file holds a mapping, putting on is setting entries, so all that is put on is one list
of entries (`Settings.laid`, `Settings.load_of_map`). If the text of the file is a mapping from
texts (`Settings.HoldsEntries`), each field is given the value of the highest source that has one
(`Settings.winner`):

* an override, unless it is nothing;
* else the variable of the environment, unless it is empty;
* else the entry of the file, whatever it is;
* else none, and the default counts.

Loading depends on these values only, field by field (`Settings.load_by_precedence`). In particular
a value that cannot be read does no harm below one that can.
-/

namespace LiterateEdit

open Yaml (Value)

namespace Settings

variable {w : World} {env : Environment} {overrides es more : Entries} {name : Text}

/-! ### Entries by their names -/

/-- The value of a name among entries. -/
def valueOf? (es : Entries) (name : Text) : Option Value :=
  (es.find? fun e => e.1 = name).map (·.2)

/-- Entries with the value of a name set, where the name is or at the end. -/
def putEntry (name : Text) (v : Value) : Entries → Entries
  | [] => [(name, v)]
  | e :: es => if e.1 = name then (name, v) :: es else e :: putEntry name v es

/-- Entries with others set, one after another. -/
def putAll (more es : Entries) : Entries := more.foldl (fun es e => putEntry e.1 e.2 es) es

theorem given_eq (es : Entries) (f : Field) : given es f = valueOf? es (Text.lit f.name) := rfl

theorem valueOf?_cons (e : Text × Value) (es : Entries) (name : Text) :
    valueOf? (e :: es) name = if e.1 = name then some e.2 else valueOf? es name := by
  unfold valueOf?
  by_cases h : e.1 = name
  · rw [List.find?_cons_of_pos (by simpa using h), if_pos h]
    rfl
  · rw [List.find?_cons_of_neg (by simpa using h), if_neg h]

theorem valueOf?_append (es es' : Entries) (name : Text) :
    valueOf? (es ++ es') name = (valueOf? es name).or (valueOf? es' name) := by
  unfold valueOf?
  rw [List.find?_append]
  cases es.find? fun e => e.1 = name with
  | none => rfl
  | some e => rfl

theorem valueOf?_putEntry (n : Text) (v : Value) (es : Entries) (name : Text) :
    valueOf? (putEntry n v es) name = if n = name then some v else valueOf? es name := by
  induction es with
  | nil => exact valueOf?_cons (n, v) [] name
  | cons e es ih =>
    rw [putEntry]
    split
    · next he =>
      -- the entry that is replaced has the same name
      rw [valueOf?_cons, valueOf?_cons, he]
      split <;> rfl
    · next he =>
      rw [valueOf?_cons, ih, valueOf?_cons]
      by_cases hname : e.1 = name
      · -- this entry is the one that is found, and it is none of those that are set
        rw [if_pos hname, if_pos hname, if_neg]
        rintro rfl
        exact he hname
      · rw [if_neg hname, if_neg hname]

/-- **The entry that is put on last counts**, and the one below if none is put on. -/
theorem valueOf?_putAll (more es : Entries) (name : Text) :
    valueOf? (putAll more es) name = (valueOf? more.reverse name).or (valueOf? es name) := by
  induction more generalizing es with
  | nil => rfl
  | cons e more ih =>
    have hstep : putAll (e :: more) es = putAll more (putEntry e.1 e.2 es) := rfl
    rw [hstep, ih, valueOf?_putEntry, List.reverse_cons, valueOf?_append, Option.or_assoc,
      valueOf?_cons]
    split <;> rfl

/-! ### What is put on -/

/-- The value that the environment gives to a field. -/
def variableValue? (env : Environment) (f : Field) : Option Value :=
  match env.lookup f.variable with
  | none => none
  | some [] => none
  | some t => some (.text t)

/-- The entries of some fields that the environment gives. -/
def fromVariables (env : Environment) (fs : List Field) : Entries :=
  fs.filterMap fun f => (variableValue? env f).map (Text.lit f.name, ·)

/-- The overrides that are more than nothing. -/
def effective (overrides : Entries) : Entries :=
  overrides.filter fun o =>
    match o.2 with
    | .null => false
    | _ => true

/-- All that is put onto the file, in order. -/
def laid (env : Environment) (overrides : Entries) : Entries :=
  fromVariables env Field.all ++ effective overrides

/-- The override of a field, unless it is nothing. If there are several, the last one counts. -/
def override? (overrides : Entries) (f : Field) : Option Value :=
  given (effective overrides).reverse f

/-- **The value of the highest source** that has one for a field. -/
def winner (es : Entries) (env : Environment) (overrides : Entries) (f : Field) : Option Value :=
  ((override? overrides f).or (variableValue? env f)).or (given es f)

/-- Each field has one variable, so the order of the fields does not matter. -/
theorem given_fromVariables (env : Environment) (fs : List Field) (f : Field) :
    given (fromVariables env fs) f = if f ∈ fs then variableValue? env f else none := by
  induction fs with
  | nil => exact (if_neg List.not_mem_nil).symm
  | cons g fs ih =>
    rw [given_eq] at ih
    rw [given_eq, fromVariables, List.filterMap_cons]
    by_cases hfg : f = g
    · subst hfg
      rw [if_pos List.mem_cons_self]
      cases hv : variableValue? env f with
      | none =>
        rw [hv, ite_self] at ih
        exact ih
      | some v => exact (valueOf?_cons _ _ _).trans (if_pos rfl)
    · have hname : Text.lit g.name ≠ Text.lit f.name := fun h => hfg (Field.name_injective h).symm
      simp only [List.mem_cons, hfg, false_or]
      -- what the variable of another field gives has another name
      cases variableValue? env g with
      | none => exact ih
      | some v => exact (valueOf?_cons _ _ _).trans ((if_neg hname).trans ih)

/-- **Each field is given the value of the highest source.** -/
theorem given_putAll_laid (es : Entries) (env : Environment) (overrides : Entries) (f : Field) :
    given (putAll (laid env overrides) es) f = winner es env overrides f := by
  have henv : valueOf? (fromVariables env Field.all).reverse (Text.lit f.name)
      = variableValue? env f := by
    rw [fromVariables, ← List.filterMap_reverse]
    exact (given_fromVariables env Field.all.reverse f).trans
      (if_pos (List.mem_reverse.2 f.mem_all))
  rw [given_eq, valueOf?_putAll, laid, List.reverse_append, valueOf?_append, henv]
  rfl

/-! ### Putting it on -/

/-- Entries set in a mapping, one after another. -/
def insertAll (more : Entries) (kvs : List (Value × Value)) : List (Value × Value) :=
  more.foldl (fun kvs e => Value.insert (.text e.1) e.2 kvs) kvs

/-- Entries as a mapping. -/
def keyed (es : Entries) : List (Value × Value) := es.map fun e => (.text e.1, e.2)

theorem insertAll_append (more more' : Entries) (kvs : List (Value × Value)) :
    insertAll (more ++ more') kvs = insertAll more' (insertAll more kvs) := List.foldl_append

theorem insert_keyed (name : Text) (v : Value) (es : Entries) :
    Value.insert (.text name) v (keyed es) = keyed (putEntry name v es) := by
  induction es with
  | nil => rfl
  | cons e es ih =>
    change (if (Value.text e.1).sameKey (.text name) then _ else _) = _
    rw [putEntry]
    by_cases he : e.1 = name
    · rw [if_pos (by simpa [Value.sameKey] using he), if_pos he, he]
      rfl
    · rw [if_neg (by simpa [Value.sameKey] using he), if_neg he]
      exact congrArg (_ :: ·) ih

theorem insertAll_keyed (more es : Entries) :
    insertAll more (keyed es) = keyed (putAll more es) := by
  induction more generalizing es with
  | nil => rfl
  | cons e more ih =>
    change insertAll more (Value.insert (.text e.1) e.2 (keyed es)) = _
    rw [insert_keyed, ih]
    rfl

theorem mapM_namedEntry_eq_ok_iff {kvs : List (Value × Value)} :
    kvs.mapM namedEntry = .ok es ↔ kvs = keyed es := by
  induction kvs generalizing es with
  | nil =>
    rw [List.mapM_nil, eq_comm, keyed, eq_comm, List.nil_eq, List.map_eq_nil_iff]
    exact ⟨fun h => Except.ok.inj h.symm, fun h => congrArg _ h.symm⟩
  | cons e kvs ih =>
    obtain ⟨k, v⟩ := e
    rw [List.mapM_cons]
    constructor
    · intro h
      -- the first key is a text, or there would be no entries
      cases k with
      | text name =>
        cases hrest : kvs.mapM namedEntry with
        | error e =>
          rw [hrest] at h
          cases h
        | ok rest =>
          rw [hrest] at h
          obtain rfl : (name, v) :: rest = es := Except.ok.inj h
          rw [ih.1 hrest]
          rfl
      | _ => cases h
    · intro h
      cases es with
      | nil => cases h
      | cons e es =>
        obtain ⟨hkv, hrest⟩ := List.cons.inj h
        obtain ⟨rfl, rfl⟩ := Prod.mk.inj hkv
        rw [ih.2 hrest]
        rfl

/-- **A mapping from texts** is what entries can be read off. -/
theorem entries_eq_ok_iff {v : Value} : entries v = .ok es ↔ v = .map (keyed es) := by
  cases v with
  | map kvs =>
    rw [Value.map.injEq]
    exact mapM_namedEntry_eq_ok_iff
  | _ => exact ⟨nofun, nofun⟩

/-- A value with a field put in, if the environment gives it. -/
def putVariable (env : Environment) (v : Value) (f : Field) : Except LoadError Value :=
  match variableValue? env f with
  | none => .ok v
  | some x => withEntry v (Text.lit f.name) x

theorem withEnvironment_eq (env : Environment) (v : Value) :
    withEnvironment env v = Field.all.foldlM (putVariable env) v := by
  unfold withEnvironment
  congr
  funext v f
  unfold putVariable variableValue?
  cases env.lookup f.variable with
  | none => rfl
  | some t => cases t <;> rfl

theorem foldlM_putVariable_map (env : Environment) (fs : List Field) (kvs : List (Value × Value)) :
    fs.foldlM (putVariable env) (.map kvs) = .ok (.map (insertAll (fromVariables env fs) kvs)) := by
  induction fs generalizing kvs with
  | nil => rfl
  | cons f fs ih =>
    rw [List.foldlM_cons, fromVariables, List.filterMap_cons, putVariable]
    cases variableValue? env f with
    | none => exact ih kvs
    | some x => exact ih (Value.insert (.text (Text.lit f.name)) x kvs)

theorem withEnvironment_map (env : Environment) (kvs : List (Value × Value)) :
    withEnvironment env (.map kvs) = .ok (.map (insertAll (fromVariables env Field.all) kvs)) :=
  (withEnvironment_eq env _).trans (foldlM_putVariable_map env Field.all kvs)

theorem withOverrides_map (overrides : Entries) (kvs : List (Value × Value)) :
    withOverrides overrides (.map kvs) = .ok (.map (insertAll (effective overrides) kvs)) := by
  unfold withOverrides
  split
  · next h =>
    rw [List.isEmpty_iff.1 h]
    rfl
  · -- an override that is nothing is passed over
    simp only [insertAll, effective, List.foldl_filter]
    congr
    funext kvs o
    cases o.2 <;> rfl

/-- **Loading from a mapping**: everything is put on, then the entries are read. -/
theorem load_of_map {kvs : List (Value × Value)} (h : fileValue w = .ok (.map kvs))
    (env : Environment) (overrides : Entries) :
    load w env overrides =
      match entries (.map (insertAll (laid env overrides) kvs)) with
      | .error e => .error e
      | .ok es =>
        match ofEntries es with
        | .ok s => .ok s
        | .error faults => .error (.invalid faults) := by
  unfold load
  rw [h]
  simp only [bind, Except.bind, withEnvironment_map, withOverrides_map, laid, insertAll_append]
  cases entries (.map _) with
  | error e => rfl
  | ok es => rfl

/-! ### Precedence -/

/-- The file holds these entries: its text is a mapping from texts that has them. A file that is not
there, or whose value counts as absent, holds none. -/
inductive HoldsEntries (w : World) : Entries → Prop where
  /-- There is no file. -/
  | missing (there : w.exists? file = false) : HoldsEntries w []
  /-- The file says nothing, or the like. -/
  | void {t : Text} {v : Value} (there : w.exists? file = true) (text : w.readText file = .ok t)
      (value : Yaml.load t = .ok v) (void : v.isVoid = true) : HoldsEntries w []
  /-- The file says a mapping from texts. -/
  | map {t : Text} (es : Entries) (there : w.exists? file = true) (text : w.readText file = .ok t)
      (value : Yaml.load t = .ok (.map (keyed es))) : HoldsEntries w es

/-- **What loading starts from**: the entries that the file holds, as a mapping. -/
theorem HoldsEntries.fileValue_eq (h : HoldsEntries w es) :
    fileValue w = .ok (.map (keyed es)) := by
  unfold fileValue
  cases h with
  | missing there =>
    rw [there]
    rfl
  | void there text value void =>
    rw [if_pos there, text]
    simp only [value, void]
    rfl
  | map es there text value =>
    rw [if_pos there, text]
    simp only [value]
    -- a mapping that counts as absent is the empty one
    cases es <;> rfl

theorem holdsEntries_of_fileValue (h : fileValue w = .ok (.map (keyed es))) :
    HoldsEntries w es := by
  have hnone : keyed es = [] → es = [] := List.map_eq_nil_iff.1
  unfold fileValue at h
  split at h
  · next there =>
    cases text : w.readText file with
    | error e =>
      rw [text] at h
      cases h
    | ok t =>
      cases value : Yaml.load t with
      | error e =>
        simp only [text, value] at h
        cases h
      | ok v =>
        simp only [text, value, Except.ok.injEq] at h
        split at h
        · next void =>
          obtain rfl := hnone (Value.map.inj h).symm
          exact .void there text value void
        · exact .map es there text (h ▸ value)
  · next there =>
    obtain rfl := hnone (Value.map.inj (Except.ok.inj h)).symm
    exact .missing (Bool.eq_false_iff.2 there)

theorem holdsEntries_of_isOk (h : (fileValue w >>= entries).isOk = true) :
    HoldsEntries w ((fileValue w >>= entries).toOption.getD []) := by
  refine holdsEntries_of_fileValue ?_
  cases hvalue : fileValue w with
  | error e =>
    rw [hvalue] at h
    cases h
  | ok v =>
    rw [hvalue] at h
    cases hentries : entries v with
    | error e =>
      change (entries v).isOk = true at h
      rw [hentries] at h
      cases h
    | ok es =>
      change Except.ok v = Except.ok (.map (keyed ((entries v).toOption.getD [])))
      rw [hentries]
      exact congrArg _ (entries_eq_ok_iff.1 hentries)

/-- Values cannot be compared, but keys can. -/
theorem eq_text_of_sameKey {o : Option Value} {t : Text}
    (h : o.any (Value.sameKey (.text t)) = true) : o = some (.text t) := by
  cases o with
  | none => cases h
  | some v =>
    cases v with
    | text t' =>
      obtain rfl : t = t' := by simpa [Value.sameKey] using h
      rfl
    | _ => cases h

/-- Loading reads the winners. -/
theorem load_of_holdsEntries (h : HoldsEntries w es) (env : Environment) (overrides : Entries) :
    ∃ es', given es' = winner es env overrides ∧
      load w env overrides =
        match ofEntries es' with
        | .ok s => .ok s
        | .error faults => .error (.invalid faults) := by
  refine ⟨putAll (laid env overrides) es, funext (given_putAll_laid es env overrides), ?_⟩
  rw [load_of_map h.fileValue_eq, insertAll_keyed, entries_eq_ok_iff.2 rfl]

/-- **Precedence, field by field.** If the file holds a mapping from texts, loading gives the
settings that say in each field what the winner of this field is read as, or the default if no
source has a value for it. If some winner cannot be read, this is told, and nothing else is. So two
inputs with the same winners give the same settings or are refused for the same reasons, whatever
is in the sources below the winners. -/
theorem load_by_precedence (h : HoldsEntries w es) (env : Environment) (overrides : Entries) :
    (∀ s, load w env overrides = .ok s ↔
        ∀ f : Field, f.content (winner es env overrides f) = .ok (s.get f)) ∧
      (∀ e, load w env overrides = .error e ↔
        e = .invalid (Field.faults (winner es env overrides)) ∧
          Field.faults (winner es env overrides) ≠ []) ∧
      ∀ (w' : World) (es' : Entries) (env' : Environment) (overrides' : Entries),
        HoldsEntries w' es' →
        (∀ f, winner es env overrides f = winner es' env' overrides' f) →
        load w env overrides = load w' env' overrides' := by
  obtain ⟨all, hall, hload⟩ := load_of_holdsEntries h env overrides
  refine ⟨fun s => ?_, fun e => ?_, fun w' es' env' overrides' h' hsame => ?_⟩
  · rw [← hall, ← ofEntries_eq_ok_iff, hload]
    cases ofEntries all with
    | ok s' => simp only [Except.ok.injEq]
    | error faults => exact ⟨nofun, nofun⟩
  · rw [← hall, hload]
    cases hread : ofEntries all with
    | ok s' =>
      refine ⟨nofun, fun ⟨_, hne⟩ => ?_⟩
      rw [ofEntries_eq_error_iff.2 ⟨rfl, hne⟩] at hread
      cases hread
    | error faults =>
      obtain ⟨rfl, hne⟩ := ofEntries_eq_error_iff.1 hread
      rw [and_iff_left hne, Except.error.injEq]
      exact eq_comm
  · -- two runs read lists of entries that may differ, but not in what they give to a field
    obtain ⟨all', hall', hload'⟩ := load_of_holdsEntries h' env' overrides'
    have hgiven : given all = given all' := by
      rw [hall, hall']
      exact funext hsame
    rw [hload, hload', ofEntries_congr hgiven]

/-- The file wins one field. Below what wins the others there are two values that cannot be read, an
override that is nothing, an empty variable and a name of no field. Without a file the same is
loaded, if the same wins. -/
theorem load_by_precedence_shadowed :
    let root := Path.ofText (Text.lit "/")
    let stored := Text.lit "app_name: notes\nnarrow: maybe\ncontext_bg: [red]\nstray: 1\n"
    let w : World := ⟨⟨[([Text.lit "config.yaml"], .file (Utf8.encode stored))]⟩, root⟩
    let env : Environment := [(Text.lit "MDCTX_NARROW", Text.lit "on"),
      (Text.lit "MDCTX_APP_NAME", []), (Text.lit "MDCTX_CONTEXT_BG", Text.lit "red")]
    let overrides : Entries :=
      [(Text.lit "context_bg", .text (Text.lit "blue")), (Text.lit "narrow", .null)]
    let w' : World := ⟨⟨[]⟩, root⟩
    let overrides' : Entries :=
      [(Text.lit "narrow", .text (Text.lit "on")), (Text.lit "context_bg", .text (Text.lit "blue")),
        (Text.lit "app_name", .text (Text.lit "notes"))]
    let s : Settings :=
      { appName := Text.lit "notes", narrow := true, background := Text.lit "blue" }
    (∃ es, HoldsEntries w es ∧ HoldsEntries w' [] ∧
      given es .appName = some (.text (Text.lit "notes")) ∧
      ∀ f, winner es env overrides f = winner [] [] overrides' f) ∧
      load w env overrides = .ok s ∧ load w env overrides = load w' [] overrides' := by
  intro root stored w env overrides w' overrides' s
  have hnone : HoldsEntries w' [] := .missing rfl
  obtain ⟨es, hes, hname, hunset⟩ : ∃ es, HoldsEntries w es ∧
      given es .appName = some (.text (Text.lit "notes")) ∧
      ∀ f ∈ [Field.strategy, .stagingDir, .dialect, .logLevel], given es f = none := by
    refine ⟨_, holdsEntries_of_isOk (by decide +kernel), ?_,
      fun f hf => Option.isNone_iff_eq_none.1 ?_⟩
    · refine eq_text_of_sameKey ?_
      decide +kernel
    · revert f
      decide +kernel
  have hsame : ∀ f, winner es env overrides f = winner [] [] overrides' f := by
    intro f
    cases f with
    | narrow => rfl
    | background => rfl
    | appName => exact hname
    | _ => exact hunset _ (by decide)
  have hfields : ∀ f : Field, f.content (winner es env overrides f) = .ok (s.get f) := by
    intro f
    rw [hsame]
    cases f <;> rfl
  have h := load_by_precedence hes env overrides
  exact ⟨⟨es, hes, hnone, hname, hsame⟩, (h.1 s).2 hfields, h.2.2 w' [] [] overrides' hnone hsame⟩

end Settings

end LiterateEdit
