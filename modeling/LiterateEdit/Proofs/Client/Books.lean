import LiterateEdit.Client.Basic
import Mathlib.Data.List.Nodup

/-!
# The books of a language client

A client keeps its attached files twice, once all together and once by the sessions that they
belong to, and it keeps the calls of its start hook. Nothing ever takes anything out of these books,
so that one entry in the wrong place would stay there: a session that never started would count as
running, and no later file of its key would call the hook.

`Client.attach_cases` says what attaching comes to. Either there is a session of the key and the
file joins it; or there is none and the hook fails, which is recorded and is all that happens; or
there is none and one is opened with the file in it (`Client.opened`). Each of the three keeps
`Client.Kept`, the facts that the next attempt relies on:

* `started` is about lists and not about numbers. The keys that the hook returned for **are** the
  keys of the sessions, in the same order; that there is one return for each key follows from the
  keys being distinct;
* `inhabited` is what makes a key of a session a key of an attached file. A session is opened for a
  file and the file is put into it in the same attempt.

`Client.Agrees` says the same from the outside, of files and keys, and is concluded from it.
-/

namespace LiterateEdit

theorem mem_insertNew {α : Type} [DecidableEq α] {x y : α} {xs : List α} :
    y ∈ insertNew x xs ↔ y = x ∨ y ∈ xs := by
  unfold insertNew
  by_cases hx : x ∈ xs
  · rw [if_pos hx]
    constructor
    · exact .inr
    · rintro (rfl | hy)
      · exact hx
      · exact hy
  · rw [if_neg hx, List.mem_append, List.mem_singleton, or_comm]

namespace Client

variable {c : Client} {cwd p q k : Path} {s : Path × List Path} {files : List Path}

/-! ### The books -/

/-- The keys of the sessions, in the order in which they were opened. -/
def sessionKeys (c : Client) : List Path := c.sessions.map Prod.fst

/-- The keys of the files for which the start hook returned normally. -/
def startedKeys (c : Client) : List Path :=
  (c.calls.filter HookCall.returned).map fun call => c.strategy.key call.path

theorem mem_sessionKeys (h : s ∈ c.sessions) : s.1 ∈ c.sessionKeys := List.mem_map_of_mem h

theorem session?_eq_none_iff : c.session? k = none ↔ k ∉ c.sessionKeys := by
  rw [session?, List.lookup_eq_none_iff, sessionKeys, List.mem_map]
  constructor
  · rintro h ⟨s, hs, rfl⟩
    simpa using h s hs
  · intro h s hs
    rw [bne_iff_ne]
    rintro rfl
    exact h ⟨s, hs, rfl⟩

theorem mem_of_session?_eq_some (h : c.session? k = some files) : (k, files) ∈ c.sessions := by
  obtain ⟨front, rest, hsessions, -⟩ := List.lookup_eq_some_iff.1 h
  rw [hsessions]
  exact List.mem_append_right front List.mem_cons_self

/-- A session with a file put into it, if it is the session of a key. -/
def joined (k q : Path) (s : Path × List Path) : Path × List Path :=
  if s.1 = k then (s.1, insertNew q s.2) else s

@[simp] theorem joined_fst : (joined k q s).1 = s.1 := by
  unfold joined
  split <;> rfl

theorem mem_joined_snd : p ∈ (joined k q s).2 ↔ p ∈ s.2 ∨ (s.1 = k ∧ p = q) := by
  unfold joined
  split
  · next h => rw [mem_insertNew, or_comm, and_iff_right h]
  · next h => rw [or_iff_left fun hk => h hk.1]

theorem addTo_sessions (c : Client) (k q : Path) :
    (c.addTo k q).sessions = c.sessions.map (joined k q) := rfl

theorem mem_addTo_sessions :
    s ∈ (c.addTo k q).sessions ↔ ∃ old ∈ c.sessions, joined k q old = s := by
  rw [addTo_sessions, List.mem_map]

/-! ### What attaching comes to -/

/-- Will the start hook be called and fail if a session has to be opened? -/
def HookFails (c : Client) : Prop :=
  ∃ returns, c.hook = some returns ∧ returns c.calls.length = false

/-- The client after the start hook has failed for a file. -/
def refused (c : Client) (q : Path) : Client := { c with calls := c.calls ++ [⟨q, false⟩] }

/-- The client after the start hook, if there is one, has returned normally for a file. -/
def called (c : Client) (q : Path) : Client :=
  { c with calls := if c.hook.isSome then c.calls ++ [⟨q, true⟩] else c.calls }

/-- The client with a session opened for a file, of which the start hook has been told. -/
def opened (c : Client) (q : Path) : Client :=
  { c.called q with
    sessions := c.sessions ++ [(c.strategy.key q, [q])]
    attached := insertNew q c.attached }

theorem callHook_cases (c : Client) (q : Path) :
    (c.HookFails ∧ c.callHook q = (false, c.refused q)) ∨
      (¬ c.HookFails ∧ c.callHook q = (true, c.called q)) := by
  obtain ⟨strategy, hook, calls, sessions, attached⟩ := c
  cases hook with
  | none =>
    -- without a hook nothing fails, and there is no call to record
    refine .inr ⟨?_, rfl⟩
    rintro ⟨returns, hnone, -⟩
    cases hnone
  | some returns =>
    cases hreturned : returns calls.length with
    | false =>
      refine .inl ⟨⟨returns, rfl, hreturned⟩, ?_⟩
      simp only [callHook, hreturned]
      rfl
    | true =>
      refine .inr ⟨?_, ?_⟩
      · rintro ⟨_, hsome, hfails⟩
        cases hsome
        exact Bool.false_ne_true (hfails.symm.trans hreturned)
      · simp only [callHook, hreturned]
        rfl

/-- Putting a file into a session that has just been opened. -/
theorem join_fresh (hk : k ∉ c.sessionKeys) (told : List Notice) :
    let joined := { c with sessions := c.sessions ++ [(k, [])] }.join k q told
    joined.outcome = .ok true ∧
      joined.client = { c with
        sessions := c.sessions ++ [(k, [q])]
        attached := insertNew q c.attached } := by
  let c' : Client := { c with sessions := c.sessions ++ [(k, [])] }
  -- it is the only session of its key, and it is empty
  have hsession : c'.session? k = some [] := by
    have hnone : c.sessions.lookup k = none := session?_eq_none_iff.2 hk
    change (c.sessions ++ [(k, [])]).lookup k = some []
    rw [List.lookup_append, hnone]
    simp
  have hfresh : decide (q ∉ (c'.session? k).getD []) = true := by
    rw [hsession]
    exact decide_eq_true List.not_mem_nil
  have hold : c.sessions.map (joined k q) = c.sessions := by
    refine (List.map_congr_left fun s hs => ?_).trans (List.map_id _)
    exact if_neg fun heq : s.1 = k => hk (heq ▸ mem_sessionKeys hs)
  have hnew : joined k q (k, []) = (k, [q]) := if_pos rfl
  have hsessions : c'.sessions.map (joined k q) = c.sessions ++ [(k, [q])] := by
    rw [List.map_append, hold, List.map_singleton, hnew]
  constructor
  · exact congrArg Except.ok hfresh
  · rw [← hsessions]
    rfl

/-- **Attaching a file** joins it to the session of its key, or it has to open one: the start hook
fails and nothing else happens, or the session is opened for the file. -/
theorem attach_cases (c : Client) (cwd p : Path) :
    let q := cwd.absolute p
    (∃ files, (c.strategy.key q, files) ∈ c.sessions ∧
        (c.attach cwd p).outcome = .ok (decide (q ∉ files)) ∧
        (c.attach cwd p).client = c.addTo (c.strategy.key q) q) ∨
      c.strategy.key q ∉ c.sessionKeys ∧
        ((c.HookFails ∧ (c.attach cwd p).outcome = .error .hookFailed ∧
            (c.attach cwd p).client = c.refused q) ∨
          (¬ c.HookFails ∧ (c.attach cwd p).outcome = .ok true ∧
            (c.attach cwd p).client = c.opened q)) := by
  intro q
  cases hsession : c.session? (c.strategy.key q) with
  | some files =>
    have hattach : c.attach cwd p = c.join (c.strategy.key q) q [] := by
      unfold attach
      simp only [show c.session? (c.strategy.key (cwd.absolute p)) = some files from hsession]
      rfl
    have hfresh : (c.attach cwd p).outcome = .ok (decide (q ∉ files)) := by
      rw [hattach, join, hsession]
      rfl
    exact .inl ⟨files, mem_of_session?_eq_some hsession, hfresh, hattach ▸ rfl⟩
  | none =>
    refine .inr ⟨session?_eq_none_iff.1 hsession, ?_⟩
    -- what the hook answers decides whether the session is opened at all
    have hattach : ∀ answer c', c.callHook q = (answer, c') → c.attach cwd p
        = if answer then { c' with sessions := c'.sessions ++ [(c.strategy.key q, [])] }.join
              (c.strategy.key q) q [c.notice "starting session for " (c.strategy.key q)]
          else ⟨.error .hookFailed, c',
            [c.notice "starting session for " (c.strategy.key q)]⟩ := by
      intro answer c' hcall
      unfold attach
      simp only [show c.session? (c.strategy.key (cwd.absolute p)) = none from hsession,
        show c.callHook (cwd.absolute p) = (answer, c') from hcall]
      cases answer <;> rfl
    rcases c.callHook_cases q with ⟨hfails, hcall⟩ | ⟨hcalm, hcall⟩
    · rw [hattach _ _ hcall]
      exact .inl ⟨hfails, rfl, rfl⟩
    · rw [hattach _ _ hcall]
      -- the call is recorded and leaves the sessions alone
      have hk : c.strategy.key q ∉ (c.called q).sessionKeys := session?_eq_none_iff.1 hsession
      exact .inr ⟨hcalm, join_fresh hk _⟩

theorem attach_setup (c : Client) (cwd p : Path) :
    (c.attach cwd p).client.strategy = c.strategy ∧ (c.attach cwd p).client.hook = c.hook := by
  rcases c.attach_cases cwd p with ⟨files, -, -, h⟩ | ⟨-, ⟨-, -, h⟩ | ⟨-, -, h⟩⟩ <;>
    rw [h] <;> exact ⟨rfl, rfl⟩

/-! ### The invariant -/

/-- **What a client relies on** when a file is attached. -/
structure Kept (c : Client) : Prop where
  nodup : c.sessionKeys.Nodup
  union : ∀ q, q ∈ c.attached ↔ ∃ s ∈ c.sessions, q ∈ s.2
  own : ∀ s ∈ c.sessions, ∀ q ∈ s.2, s.1 = c.strategy.key q
  inhabited : ∀ s ∈ c.sessions, s.2 ≠ []
  started : c.hook.isSome = true → c.startedKeys = c.sessionKeys

namespace Kept

/-- A client that has no files yet. -/
theorem empty (strategy : Strategy) (hook : Option (Nat → Bool)) :
    ({ strategy := strategy, hook := hook } : Client).Kept where
  nodup := List.nodup_nil
  union q := by
    constructor
    · intro h
      cases h
    · rintro ⟨s, hs, -⟩
      cases hs
  own s hs := by cases hs
  inhabited s hs := by cases hs
  started _ := rfl

/-- Two sessions of one key are one session. -/
theorem session_inj (h : c.Kept) {s s' : Path × List Path} (hs : s ∈ c.sessions)
    (hs' : s' ∈ c.sessions) (heq : s.1 = s'.1) : s = s' :=
  List.inj_on_of_nodup_map h.nodup hs hs' heq

/-- A file is attached if and only if it is in the session of its key. -/
theorem mem_attached_iff (h : c.Kept) (hs : (c.strategy.key q, files) ∈ c.sessions) :
    q ∈ c.attached ↔ q ∈ files := by
  rw [h.union]
  constructor
  · rintro ⟨s, hs', hq⟩
    have hkey : s.1 = c.strategy.key q := h.own s hs' q hq
    obtain rfl : s = (c.strategy.key q, files) := h.session_inj hs' hs hkey
    exact hq
  · intro hq
    exact ⟨_, hs, hq⟩

/-- A file whose key has no session is not attached. -/
theorem not_mem_attached (h : c.Kept) (hk : c.strategy.key q ∉ c.sessionKeys) :
    q ∉ c.attached := by
  intro hq
  obtain ⟨s, hs, hqs⟩ := (h.union q).1 hq
  exact hk (h.own s hs q hqs ▸ mem_sessionKeys hs)

/-- **A file joins the session of its key.** -/
theorem addTo (h : c.Kept) (hs : (c.strategy.key q, files) ∈ c.sessions) :
    (c.addTo (c.strategy.key q) q).Kept := by
  have hkeys : (c.addTo (c.strategy.key q) q).sessionKeys = c.sessionKeys := by
    rw [sessionKeys, addTo_sessions, List.map_map]
    exact List.map_congr_left fun s _ => joined_fst
  constructor
  case nodup =>
    rw [hkeys]
    exact h.nodup
  case union =>
    intro p
    change p ∈ insertNew q c.attached ↔ _
    rw [mem_insertNew, h.union]
    constructor
    · rintro (rfl | ⟨s, hs', hp⟩)
      -- the file is in the session that it joins, and the others are where they were
      · exact ⟨joined (c.strategy.key p) p (c.strategy.key p, files),
          mem_addTo_sessions.2 ⟨_, hs, rfl⟩, mem_joined_snd.2 (.inr ⟨rfl, rfl⟩)⟩
      · exact ⟨joined (c.strategy.key q) q s, mem_addTo_sessions.2 ⟨s, hs', rfl⟩,
          mem_joined_snd.2 (.inl hp)⟩
    · rintro ⟨s, hs', hp⟩
      obtain ⟨old, hold, rfl⟩ := mem_addTo_sessions.1 hs'
      rcases mem_joined_snd.1 hp with hp | ⟨-, hp⟩
      · exact .inr ⟨old, hold, hp⟩
      · exact .inl hp
  case own =>
    intro s hs' p hp
    obtain ⟨old, hold, rfl⟩ := mem_addTo_sessions.1 hs'
    rw [joined_fst]
    rcases mem_joined_snd.1 hp with hp | ⟨hkey, rfl⟩
    · exact h.own old hold p hp
    · exact hkey
  case inhabited =>
    intro s hs' hnil
    obtain ⟨old, hold, rfl⟩ := mem_addTo_sessions.1 hs'
    -- joining takes nothing out, so the file that was there is still there
    obtain ⟨p, hp⟩ := List.exists_mem_of_ne_nil _ (h.inhabited old hold)
    have hp' : p ∈ (joined (c.strategy.key q) q old).2 := mem_joined_snd.2 (.inl hp)
    rw [hnil] at hp'
    cases hp'
  case started =>
    intro hhook
    rw [hkeys]
    exact h.started hhook

/-- **A call of the hook that fails** is the only trace of the attempt. -/
theorem refused (h : c.Kept) (q : Path) : (c.refused q).Kept where
  nodup := h.nodup
  union := h.union
  own := h.own
  inhabited := h.inhabited
  started hhook := by
    -- the call is in the history, and it is not one of those that returned
    have hcalls : (c.calls ++ [(⟨q, false⟩ : HookCall)]).filter HookCall.returned
        = c.calls.filter HookCall.returned := by
      rw [List.filter_append, List.filter_cons_of_neg Bool.false_ne_true, List.filter_nil,
        List.append_nil]
    change ((c.calls ++ [(⟨q, false⟩ : HookCall)]).filter HookCall.returned).map _
      = c.sessionKeys
    rw [hcalls]
    exact h.started hhook

/-- **A session is opened** for a file of a key that has none. -/
theorem opened (h : c.Kept) (hk : c.strategy.key q ∉ c.sessionKeys) : (c.opened q).Kept := by
  have hkeys : (c.opened q).sessionKeys = c.sessionKeys ++ [c.strategy.key q] := List.map_append
  have hmem : ∀ s, s ∈ (c.opened q).sessions ↔ s ∈ c.sessions ∨ s = (c.strategy.key q, [q]) := by
    intro s
    change s ∈ c.sessions ++ [_] ↔ _
    rw [List.mem_append, List.mem_singleton]
  constructor
  case nodup =>
    rw [hkeys, ← List.concat_eq_append]
    exact h.nodup.concat hk
  case union =>
    intro p
    change p ∈ insertNew q c.attached ↔ _
    rw [mem_insertNew, h.union]
    constructor
    · rintro (rfl | ⟨s, hs, hp⟩)
      · exact ⟨(c.strategy.key p, [p]), (hmem _).2 (.inr rfl), List.mem_singleton.2 rfl⟩
      · exact ⟨s, (hmem s).2 (.inl hs), hp⟩
    · rintro ⟨s, hs, hp⟩
      rcases (hmem s).1 hs with hs | rfl
      · exact .inr ⟨s, hs, hp⟩
      · exact .inl (List.mem_singleton.1 hp)
  case own =>
    intro s hs p hp
    rcases (hmem s).1 hs with hs | rfl
    · exact h.own s hs p hp
    · rw [List.mem_singleton.1 hp]
      rfl
  case inhabited =>
    intro s hs
    rcases (hmem s).1 hs with hs | rfl
    · exact h.inhabited s hs
    · exact List.cons_ne_nil q []
  case started =>
    intro hhook
    change c.hook.isSome = true at hhook
    -- the call that has returned is the last one, and the key of the new session, too
    have hcalls : (c.opened q).calls = c.calls ++ [⟨q, true⟩] := if_pos hhook
    have hreturned : (c.calls ++ [(⟨q, true⟩ : HookCall)]).filter HookCall.returned
        = c.calls.filter HookCall.returned ++ [⟨q, true⟩] := by
      rw [List.filter_append, List.filter_cons_of_pos rfl, List.filter_nil]
    calc (c.opened q).startedKeys = c.startedKeys ++ [c.strategy.key q] := by
          rw [startedKeys, hcalls, hreturned, List.map_append]
          rfl
      _ = c.sessionKeys ++ [c.strategy.key q] := by rw [h.started hhook]
      _ = (c.opened q).sessionKeys := hkeys.symm

/-- **The step**: attaching a file keeps the books, whether it succeeds or not. -/
theorem attach (h : c.Kept) (cwd p : Path) : (c.attach cwd p).client.Kept := by
  rcases c.attach_cases cwd p with ⟨files, hs, -, heq⟩ | ⟨hk, ⟨-, -, heq⟩ | ⟨-, -, heq⟩⟩
  · rw [heq]
    exact h.addTo hs
  · rw [heq]
    exact h.refused _
  · rw [heq]
    exact h.opened hk

end Kept

/-! ### Files one after another -/

/-- The client behind attempts to attach files one after another, each given by a current directory
and a path that is seen from there. An attempt that fails does not stop the others. -/
def attachAll (c : Client) (files : List (Path × Path)) : Client :=
  files.foldl (fun c f => (c.attach f.1 f.2).client) c

/-- **The run**: the books are kept whatever files are attached. -/
theorem Kept.attachAll (h : c.Kept) (files : List (Path × Path)) : (c.attachAll files).Kept := by
  induction files generalizing c with
  | nil => exact h
  | cons f rest ih => exact ih (h.attach f.1 f.2)

theorem attachAll_setup (c : Client) (files : List (Path × Path)) :
    (c.attachAll files).strategy = c.strategy ∧ (c.attachAll files).hook = c.hook := by
  induction files generalizing c with
  | nil => exact ⟨rfl, rfl⟩
  | cons f rest ih =>
    obtain ⟨hstrategy, hhook⟩ := c.attach_setup f.1 f.2
    exact ⟨(ih _).1.trans hstrategy, (ih _).2.trans hhook⟩

/-- Files of other keys open no session of a key. -/
theorem not_mem_sessionKeys_attachAll (hk : k ∉ c.sessionKeys) {files : List (Path × Path)}
    (hfiles : ∀ f ∈ files, c.strategy.key (f.1.absolute f.2) ≠ k) :
    k ∉ (c.attachAll files).sessionKeys := by
  induction files generalizing c with
  | nil => exact hk
  | cons f rest ih =>
    obtain ⟨hfirst, hmore⟩ := List.forall_mem_cons.1 hfiles
    have hstep : k ∉ (c.attach f.1 f.2).client.sessionKeys := by
      rcases c.attach_cases f.1 f.2 with ⟨files, hs, -, heq⟩ | ⟨-, ⟨-, -, heq⟩ | ⟨-, -, heq⟩⟩
      · rw [heq]
        intro hmem
        -- a session that is joined keeps its key
        obtain ⟨s, hs', rfl⟩ := List.mem_map.1 hmem
        obtain ⟨old, hold, rfl⟩ := mem_addTo_sessions.1 hs'
        rw [joined_fst] at hk
        exact hk (mem_sessionKeys hold)
      · rw [heq]
        exact hk
      · rw [heq]
        intro hmem
        -- the session that is opened is the only new one, and its key is the file's
        obtain ⟨s, hs, rfl⟩ := List.mem_map.1 hmem
        rcases List.mem_append.1 hs with hs | hs
        · exact hk (mem_sessionKeys hs)
        · exact hfirst (congrArg Prod.fst (List.mem_singleton.1 hs)).symm
    exact ih hstep ((c.attach_setup f.1 f.2).1.symm ▸ hmore)

/-! ### What can be told from the outside -/

theorem mem_keys : k ∈ c.keys ↔ k ∈ c.sessionKeys := List.mem_mergeSort

/-- **The books agree**: on the files, on their keys, and on what the start hook has been told. -/
structure Agrees (c : Client) : Prop where
  /-- There is one session for each key. -/
  nodup : c.keys.Nodup
  /-- The attached files are the files of the sessions. -/
  union : ∀ q, q ∈ c.attached ↔ ∃ s ∈ c.sessions, q ∈ s.2
  /-- A file is in the session of its own key and in no other. -/
  own : ∀ q ∈ c.attached, ∀ s ∈ c.sessions, q ∈ s.2 ↔ s.1 = c.strategy.key q
  /-- The keys of the sessions are the keys of the attached files. -/
  keys_iff : ∀ k, k ∈ c.keys ↔ ∃ q ∈ c.attached, c.strategy.key q = k
  /-- The hook has returned once for each of them, and for no other key. -/
  once : c.hook.isSome = true → ∀ k, c.startedKeys.count k = if k ∈ c.keys then 1 else 0

theorem Kept.agrees (h : c.Kept) : c.Agrees where
  nodup := (List.mergeSort_perm c.sessionKeys Path.le).nodup_iff.2 h.nodup
  union := h.union
  own q hq s hs := by
    constructor
    · exact h.own s hs q
    · intro hkey
      have hs' : (c.strategy.key q, s.2) ∈ c.sessions := hkey ▸ hs
      exact (h.mem_attached_iff hs').1 hq
  keys_iff k := by
    rw [mem_keys]
    constructor
    · intro hk
      -- a session has a file, and the file is of the session's key
      obtain ⟨s, hs, rfl⟩ := List.mem_map.1 hk
      obtain ⟨q, hq⟩ := List.exists_mem_of_ne_nil _ (h.inhabited s hs)
      exact ⟨q, (h.union q).2 ⟨s, hs, hq⟩, (h.own s hs q hq).symm⟩
    · rintro ⟨q, hq, rfl⟩
      obtain ⟨s, hs, hqs⟩ := (h.union q).1 hq
      exact h.own s hs q hqs ▸ mem_sessionKeys hs
  once hhook k := by
    simp only [mem_keys]
    rw [h.started hhook]
    exact h.nodup.count

/-- A file is attached if it has been answered whether it is new. -/
theorem mem_attached_of_ok {fresh : Bool} (hok : (c.attach cwd p).outcome = .ok fresh) :
    cwd.absolute p ∈ (c.attach cwd p).client.attached := by
  rcases c.attach_cases cwd p with ⟨files, -, -, hclient⟩ | ⟨-, ⟨-, hout, -⟩ | ⟨-, -, hclient⟩⟩
  · rw [hclient]
    exact mem_insertNew.2 (.inl rfl)
  · cases hout.symm.trans hok
  · rw [hclient]
    exact mem_insertNew.2 (.inl rfl)

/-- The answer tells whether the file is new. -/
theorem Kept.fresh_iff (h : c.Kept) {fresh : Bool} (hok : (c.attach cwd p).outcome = .ok fresh) :
    fresh = true ↔ cwd.absolute p ∉ c.attached := by
  rcases c.attach_cases cwd p with ⟨files, hs, hout, -⟩ | ⟨hk, ⟨-, hout, -⟩ | ⟨-, hout, -⟩⟩
  · obtain rfl : decide (cwd.absolute p ∉ files) = fresh := Except.ok.inj (hout.symm.trans hok)
    rw [decide_eq_true_iff, h.mem_attached_iff hs]
  · cases hout.symm.trans hok
  · obtain rfl : true = fresh := Except.ok.inj (hout.symm.trans hok)
    exact iff_of_true rfl (h.not_mem_attached hk)

/-- An attempt fails if it has to open a session and the hook fails. -/
theorem attach_error_iff :
    (c.attach cwd p).outcome = .error .hookFailed ↔
      c.strategy.key (cwd.absolute p) ∉ c.sessionKeys ∧ c.HookFails := by
  rcases c.attach_cases cwd p with ⟨files, hs, hout, -⟩ | ⟨hk, ⟨hfails, hout, -⟩ | ⟨hcalm, hout, -⟩⟩
  · rw [hout]
    constructor
    · intro herror
      cases herror
    · exact fun hnot => absurd (mem_sessionKeys hs) hnot.1
  · exact iff_of_true hout ⟨hk, hfails⟩
  · rw [hout]
    constructor
    · intro herror
      cases herror
    · exact fun hnot => absurd hnot.2 hcalm

theorem attach_error_client (herror : (c.attach cwd p).outcome = .error .hookFailed) :
    (c.attach cwd p).client = c.refused (cwd.absolute p) := by
  rcases c.attach_cases cwd p with ⟨files, -, hout, -⟩ | ⟨-, ⟨-, -, hclient⟩ | ⟨-, hout, -⟩⟩
  · cases hout.symm.trans herror
  · exact hclient
  · cases hout.symm.trans herror

/-- Opening a session calls the hook. -/
theorem attach_calls {returns : Nat → Bool} (hhook : c.hook = some returns)
    (hk : c.strategy.key (cwd.absolute p) ∉ c.sessionKeys) :
    (c.attach cwd p).client.calls
      = c.calls ++ [⟨cwd.absolute p, returns c.calls.length⟩] := by
  rcases c.attach_cases cwd p with
    ⟨files, hs, -, -⟩ | ⟨-, ⟨⟨r, hr, hfails⟩, -, hclient⟩ | ⟨hcalm, -, hclient⟩⟩
  · exact absurd (mem_sessionKeys hs) hk
  -- the call is recorded with its answer, whichever it is
  · obtain rfl : returns = r := Option.some.inj (hhook.symm.trans hr)
    rw [hclient, hfails]
    rfl
  · have hreturns : returns c.calls.length = true :=
      Bool.not_eq_false _ ▸ fun hfails => hcalm ⟨returns, hhook, hfails⟩
    rw [hclient, hreturns]
    exact if_pos (hhook ▸ rfl)

/-- **The books of a client.** Whatever files have been attached, seen from whatever directories,
and whichever calls of the start hook have failed: the books agree, and they do so after one more
file; the answer tells whether the file is new; and an attempt fails if and only if it had to open a
session and the hook failed. Then it leaves the sessions and the files alone, and the next file of
that key, however many files of other keys come before it, calls the hook again. -/
theorem attach_keeps_books (strategy : Strategy) (hook : Option (Nat → Bool))
    (files : List (Path × Path)) (cwd p : Path) :
    let c := ({ strategy := strategy, hook := hook } : Client).attachAll files
    let q := cwd.absolute p
    let a := c.attach cwd p
    c.Agrees ∧ a.client.Agrees ∧
      (∀ fresh, a.outcome = .ok fresh →
        q ∈ a.client.attached ∧ (fresh = true ↔ q ∉ c.attached)) ∧
      (a.outcome = .error .hookFailed ↔ strategy.key q ∉ c.keys ∧ c.HookFails) ∧
      (a.outcome = .error .hookFailed →
        a.client.sessions = c.sessions ∧ a.client.attached = c.attached ∧
          ∀ others : List (Path × Path),
            (∀ f ∈ others, strategy.key (f.1.absolute f.2) ≠ strategy.key q) →
            ∀ cwd' p', strategy.key (cwd'.absolute p') = strategy.key q →
              let c' := a.client.attachAll others
              ∃ returned,
                (c'.attach cwd' p').client.calls = c'.calls ++ [⟨cwd'.absolute p', returned⟩]) := by
  intro c q a
  have hkept : c.Kept := (Kept.empty strategy hook).attachAll files
  obtain ⟨hstrategy, -⟩ := attachAll_setup { strategy := strategy, hook := hook } files
  have hkey : ∀ k, strategy.key k = c.strategy.key k := fun k => by rw [hstrategy]
  refine ⟨hkept.agrees, (hkept.attach cwd p).agrees,
    fun fresh hok => ⟨mem_attached_of_ok hok, hkept.fresh_iff hok⟩, ?_, fun herror => ?_⟩
  · rw [hkey, mem_keys]
    exact attach_error_iff
  · obtain ⟨hk, returns, hreturns, -⟩ := attach_error_iff.1 herror
    have hclient : a.client = c.refused q := attach_error_client herror
    rw [hclient]
    refine ⟨rfl, rfl, fun others hothers cwd' p' hp' => ?_⟩
    -- the failed attempt opened no session of the key, and neither do files of other keys
    obtain ⟨hstrategy', hhook'⟩ := attachAll_setup (c.refused q) others
    have hkey' : ∀ k, ((c.refused q).attachAll others).strategy.key k = strategy.key k :=
      fun k => by rw [hstrategy', hkey]; rfl
    have hclosed : strategy.key q ∉ ((c.refused q).attachAll others).sessionKeys := by
      refine not_mem_sessionKeys_attachAll (hkey q ▸ hk) fun f hf => ?_
      exact hkey _ ▸ hothers f hf
    refine ⟨_, attach_calls (hhook'.trans hreturns) ?_⟩
    rw [hkey', hp']
    exact hclosed

/-- Two files of one directory, the second of them spelled with dots. The hook fails for the first
file and is called again for the second; the first one joins its session when it comes back. -/
theorem attach_keeps_books_second_call :
    let base : Path := ⟨.slash, [['w']]⟩
    let first : Path := ⟨.relative, [['a'], ['x']]⟩
    let second : Path := ⟨.relative, [['b'], ['.', '.'], ['a'], ['y']]⟩
    let x : Path := ⟨.slash, [['w'], ['a'], ['x']]⟩
    let y : Path := ⟨.slash, [['w'], ['a'], ['y']]⟩
    let c : Client := { strategy := .eglot, hook := some fun n => n ≠ 0 }
    let a := c.attach base first
    let c' := c.attachAll [(base, first), (base, second), (base, first)]
    a.outcome = .error .hookFailed ∧ a.client.sessions = [] ∧
      (∃ returned, (a.client.attach base second).client.calls = [⟨x, false⟩, ⟨y, returned⟩]) ∧
      c'.Agrees ∧ c'.sessions = [(⟨.slash, [['w'], ['a']]⟩, [y, x])] := by
  intro base first second x y c a c'
  have hbooks := attach_keeps_books .eglot (some fun n => n ≠ 0)
  have herror : a.outcome = .error .hookFailed := by decide
  obtain ⟨-, -, -, -, hrefused⟩ := hbooks [] base first
  obtain ⟨hsessions, -, hagain⟩ := hrefused herror
  have hcalls : ∃ returned,
      (a.client.attach base second).client.calls = a.client.calls ++ [⟨y, returned⟩] :=
    hagain [] (List.forall_mem_nil _) base second (by decide)
  obtain ⟨hagrees, -⟩ := hbooks [(base, first), (base, second), (base, first)] base first
  exact ⟨herror, hsessions, hcalls, hagrees, by decide⟩

end Client

end LiterateEdit
