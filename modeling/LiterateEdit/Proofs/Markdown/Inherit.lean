import LiterateEdit.Proofs.Markdown.Block

/-!
# What all readers have in common

A reader finds its fences in three ways: a line opens one, or it opens a block quote or an item of a
list and the fence is found by another reader in the lines of that container. So what holds of a
fence and the lines it is found in holds for all readers as soon as it is **inherited**
(`Inherited`): it holds of a fence that is read off its lines, and it is handed on from the lines of
a container to the lines around it. `Inherited.finds_fencesWithin` is the induction over the
readers, done once for all such facts.

The lines of a container are what is left of lines around it (`Line.LeftOf`), in the same order
(`map_quotation`).
-/

namespace LiterateEdit.Markdown

variable {c : Context} {m : ListMark} {k l q : Line} {ls ls' rest : List Line} {f : Fence}
  {quote list inner : Reader} {P : List Line → Fence → Prop}

/-! ### The lines of a container -/

/-- What is left of a line in a container: it has the same number, and some of the characters. -/
def Line.LeftOf (q l : Line) : Prop := q.number = l.number ∧ ∀ d ∈ q.chars, d ∈ l.chars

theorem Line.leftOf_refl (l : Line) : l.LeftOf l := ⟨rfl, fun _ hd => hd⟩

theorem Line.leftOf_unquoted (l : Line) : l.unquoted.LeftOf l :=
  ⟨rfl, fun _ hd => List.mem_of_mem_drop (List.mem_of_mem_drop (List.mem_of_mem_drop hd))⟩

theorem Line.leftOf_continued (l : Line) : l.continued.LeftOf l := ⟨rfl, fun _ hd => hd⟩

theorem ListMark.leftOf_item (m : ListMark) (l : Line) : (m.item l).1.LeftOf l :=
  ⟨rfl, fun _ hd => hd⟩

/-- The lines of the block quote that a line opens. -/
def quotation (c : Context) (l : Line) (rest : List Line) : List Line :=
  l.unquoted :: quotedLines c l.unquoted.isEmpty rest

private theorem mem_quotedLines {afterGap : Bool} (h : q ∈ quotedLines c afterGap rest) :
    ∃ k ∈ rest, k.body.head? = some '>' ∧ q = k.unquoted ∨ q = k.continued := by
  induction rest generalizing afterGap with
  | nil => exact absurd h List.not_mem_nil
  | cons l rest ih =>
    have later {afterGap : Bool} (h : q ∈ quotedLines c afterGap rest) :
        ∃ k ∈ l :: rest, k.body.head? = some '>' ∧ q = k.unquoted ∨ q = k.continued := by
      obtain ⟨k, hk, h⟩ := ih h
      exact ⟨k, List.mem_cons_of_mem _ hk, h⟩
    rw [quotedLines] at h
    split at h
    · exact absurd h List.not_mem_nil
    · split at h
      · next hmark =>
        rcases List.mem_cons.1 h with rfl | h
        · simp only [Bool.and_eq_true, decide_eq_true_eq] at hmark
          exact ⟨l, List.mem_cons_self, .inl ⟨hmark.1, rfl⟩⟩
        · exact later h
      · split at h
        · exact absurd h List.not_mem_nil
        · rcases List.mem_cons.1 h with rfl | h
          · exact ⟨l, List.mem_cons_self, .inr rfl⟩
          · exact later h

/-- **A line of a block quote** carries the marker or only continues a paragraph. -/
theorem mem_quotation (hquote : isQuote c l = true) (h : q ∈ quotation c l rest) :
    ∃ k ∈ l :: rest, k.body.head? = some '>' ∧ q = k.unquoted ∨ q = k.continued := by
  simp only [isQuote, Bool.and_eq_true, decide_eq_true_eq] at hquote
  rcases List.mem_cons.1 h with rfl | h
  · exact ⟨l, List.mem_cons_self, .inl ⟨hquote.2, rfl⟩⟩
  · obtain ⟨k, hk, h⟩ := mem_quotedLines h
    exact ⟨k, List.mem_cons_of_mem _ hk, h⟩

theorem exists_leftOf_of_mem_quotation (hquote : isQuote c l = true) (h : q ∈ quotation c l rest) :
    ∃ k ∈ l :: rest, q.LeftOf k := by
  obtain ⟨k, hk, ⟨-, rfl⟩ | rfl⟩ := mem_quotation hquote h
  · exact ⟨k, hk, k.leftOf_unquoted⟩
  · exact ⟨k, hk, k.leftOf_continued⟩

/-- The lines of a block quote are what is left of lines that follow one another: whatever the
marker leaves alone is that of the first of the lines. -/
theorem map_quotation {α : Type} (g : Line → α) (hunquoted : ∀ k, g k.unquoted = g k)
    (hcontinued : ∀ k, g k.continued = g k) (c : Context) (l : Line) (rest : List Line) :
    (quotation c l rest).map g <+: (l :: rest).map g := by
  have hquoted (afterGap : Bool) (rest : List Line) :
      (quotedLines c afterGap rest).map g <+: rest.map g := by
    induction rest generalizing afterGap with
    | nil => exact List.nil_prefix
    | cons k rest ih =>
      rw [quotedLines]
      split
      · exact List.nil_prefix
      · split
        · exact List.cons_prefix_cons.2 ⟨hunquoted k, ih _⟩
        · split
          · exact List.nil_prefix
          · exact List.cons_prefix_cons.2 ⟨hcontinued k, ih _⟩
  exact List.cons_prefix_cons.2 ⟨hunquoted l, hquoted _ rest⟩

/-! ### One fact about all fences -/

/-- All fences that a reader finds are so. -/
def Finds (P : List Line → Fence → Prop) (inner : Reader) : Prop :=
  ∀ c ls, ∀ f ∈ (inner c ls).fences, P ls f

/-- **An inherited fact** about a fence and the lines it is found in. -/
structure Inherited (P : List Line → Fence → Prop) : Prop where
  /-- It holds among more lines. -/
  suffix {ls' ls : List Line} {f : Fence} : ls' <:+ ls → P ls' f → P ls f
  /-- It holds of a fence that is read off the lines. -/
  read {c : Context} {m : FenceMark} {l : Line} {rest : List Line} :
    l.isOutdented c = false → FenceMark.ofLine? c l = some m → P (l :: rest) (m.read c l rest).1
  /-- A block quote hands it on. -/
  quote {c : Context} {l : Line} {rest : List Line} {f : Fence} :
    isQuote c l = true → P (quotation c l rest) f → P (l :: rest) f
  /-- An item of a list hands it on. -/
  item {m : ListMark} {l : Line} {rest : List Line} {f : Fence} :
    ListMark.ofText? l.body = some m → P ((m.item l).1 :: rest) f → P (l :: rest) f

theorem fences_skipContainer (c : Context) (ls : List Line) : (skipContainer c ls).fences = [] := by
  unfold skipContainer
  split
  · rfl
  · split <;> rfl

theorem finds_skipContainer : Finds P skipContainer := by
  intro c ls f hf
  rw [fences_skipContainer] at hf
  exact absurd hf List.not_mem_nil

namespace Inherited

variable (h : Inherited P)

include h

private theorem found_item (hinner : Finds P inner) (hmark : ListMark.ofText? l.body = some m)
    (hf : f ∈ (readItem inner c m l rest).fences) : P (l :: rest) f := by
  unfold readItem at hf
  split at hf
  · exact absurd hf List.not_mem_nil
  · exact h.item hmark (hinner _ _ f hf)

/-- The fences in a list. -/
theorem found_items (hinner : Finds P inner) (hmark : ListMark.ofText? l.body = some m)
    (hf : f ∈ (readItems inner c m l rest).1) : P (l :: rest) f := by
  -- on the lines behind the one that opens an item: the next item opens further behind
  induction hn : rest.length using Nat.strongRecOn generalizing m l rest with
  | ind n ih =>
  rw [readItems_eq] at hf
  rcases List.mem_append.1 hf with hf | hf
  · exact h.found_item hinner hmark hf
  rcases readMore_cases inner c m (rest.drop (itemExtent inner c m l rest)) with
    hnone | ⟨next, behind, m', hdrop, hnext, hmore⟩
  · rw [hnone] at hf
    exact absurd hf List.not_mem_nil
  · have hlength : behind.length < n := by
      have := congrArg List.length hdrop
      rw [List.length_drop, List.length_cons] at this
      omega
    rw [hmore] at hf
    refine h.suffix ?_ (ih _ hlength (of_nextMark? hnext).1 hf rfl)
    exact hdrop ▸ (List.drop_suffix _ rest).trans (List.suffix_cons l rest)

/-- The fences in a block. -/
theorem found_block (hquote : Finds P quote) (hlist : Finds P list)
    (hinside : l.isOutdented c = false) (hf : f ∈ (readBlock quote list c l rest).1) :
    P (l :: rest) f := by
  rw [readBlock_eq] at hf
  have hopens := kindOf_opens c l rest
  cases hkind : kindOf c l rest
  all_goals rw [hkind] at hf hopens
  case fence m =>
    rw [List.mem_singleton.1 hf]
    exact h.read hinside hopens
  case quote => exact h.quote hopens (hquote _ _ f hf)
  case list m => exact h.found_items hlist (ListMark.of_ofLine? hopens).1 hf
  all_goals exact absurd hf List.not_mem_nil

theorem finds_fencesOf (hquote : Finds P quote) (hlist : Finds P list) :
    Finds P (fencesOf quote list) := by
  intro c ls
  induction hn : ls.length using Nat.strongRecOn generalizing ls with
  | ind n ih =>
  intro f hf
  cases ls with
  | nil =>
    rw [fencesOf_nil] at hf
    exact absurd hf List.not_mem_nil
  | cons l rest =>
    cases hempty : l.isEmpty with
    | true =>
      rw [fencesOf_empty hempty] at hf
      exact h.suffix (List.suffix_cons l rest) (ih _ (hn ▸ Nat.lt_succ_self _) rest rfl f hf)
    | false =>
    cases hout : l.isOutdented c with
    | true =>
      rw [fencesOf_outdented hempty hout] at hf
      exact absurd hf List.not_mem_nil
    | false =>
      rw [fencesOf_block hempty hout rfl] at hf
      rcases List.mem_append.1 hf with hf | hf
      · exact h.found_block hquote hlist hout hf
      · have hlength : (rest.drop (readBlock quote list c l rest).2).length < n := by
          rw [← hn, List.length_drop, List.length_cons]
          omega
        have hbehind := (List.drop_suffix (readBlock quote list c l rest).2 rest).trans
          (List.suffix_cons l rest)
        exact h.suffix hbehind (ih _ hlength _ rfl f hf)

/-- **An inherited fact holds of all fences** that are found in lines. -/
theorem finds_fencesWithin (room : Nat) : Finds P (fencesWithin room) := by
  induction room using fencesWithin.induct with
  | case1 => exact finds_skipContainer
  | case2 => exact h.finds_fencesOf finds_skipContainer finds_skipContainer
  | case3 room ih ih' => exact h.finds_fencesOf ih ih'

end Inherited

end LiterateEdit.Markdown
