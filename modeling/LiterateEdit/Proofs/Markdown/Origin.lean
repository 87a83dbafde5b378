import LiterateEdit.Proofs.Markdown.Inherit

/-!
# Where a fence comes from

The lines of a container are not those of the document: markers are taken off, and a line that only
continues a paragraph is no longer told by its indentation. A fence whose opening line carries no
marker is nevertheless read off the lines of the document themselves. Lines of a block quote carry
its marker, and the one exception, lines that continue a paragraph, are never the start of a block.
Of the lines of a list only the first of each item is changed.

So every fence has an **origin** (`origin_fencesWithin`): its mark stands in one of the lines and
the fence is what is read from there on, or its first line opens a container.
-/

namespace LiterateEdit.Markdown

variable {c : Context} {m : ListMark} {l : Line} {ls ls' rest : List Line} {f : Fence}
  {quote list inner : Reader}

/-- Does a line start with the marker of a container? -/
def Line.OpensContainer (l : Line) : Prop :=
  l.body.head? = some '>' ∨ (ListMark.ofText? l.body).isSome = true

/-- A fence is no marker of a container. -/
theorem not_opensContainer (h : l.body.head? = some '`' ∨ l.body.head? = some '~') :
    ¬ l.OpensContainer := by
  have hnone (d : Char) (u : Text) (hd : d = '`' ∨ d = '~') : ListMark.ofText? (d :: u) = none := by
    rcases hd with rfl | rfl <;> rfl
  unfold Line.OpensContainer
  cases hbody : l.body with
  | nil =>
    rw [hbody] at h
    rcases h with h | h <;> cases h
  | cons d u =>
    have hd : d = '`' ∨ d = '~' := by
      rw [hbody] at h
      exact h.imp Option.some.inj Option.some.inj
    rintro (hquote | hlist)
    · rcases hd with rfl | rfl <;> cases hquote
    · rw [hnone d u hd] at hlist
      cases hlist

/-- The fence that is read from one of the lines on. -/
def ReadOff (ls : List Line) (f : Fence) : Prop :=
  ∃ c m before l rest, ls = before ++ l :: rest ∧ l.isOutdented c = false ∧
    FenceMark.ofLine? c l = some m ∧ f = (m.read c l rest).1

/-- **Origin of a fence**: it is read off the lines, or one of them holds its mark behind the marker
of a container. -/
def Origin (ls : List Line) (f : Fence) : Prop :=
  ReadOff ls f ∨ ∃ l ∈ ls, l.OpensContainer ∧ f.first = l.number ∧ f.first < f.stop

theorem Origin.of_suffix (hsuffix : ls' <:+ ls) (h : Origin ls' f) : Origin ls f := by
  obtain ⟨front, rfl⟩ := hsuffix
  rcases h with ⟨c, m, before, l, rest, rfl, h⟩ | ⟨l, hl, h⟩
  · exact .inl ⟨c, m, front ++ before, l, rest, (List.append_assoc _ _ _).symm, h⟩
  · exact .inr ⟨l, List.mem_append_right _ hl, h⟩

/-- The number of a fence is that of a line. -/
theorem Origin.exists_line (h : Origin ls f) : ∃ l ∈ ls, f.first = l.number := by
  rcases h with ⟨c, m, before, l, rest, rfl, -, -, rfl⟩ | ⟨l, hl, -, hfirst, -⟩
  · exact ⟨l, List.mem_append_right _ List.mem_cons_self, rfl⟩
  · exact ⟨l, hl, hfirst⟩

/-- A fence has at least its opening line. -/
theorem FenceMark.first_lt_stop (m : FenceMark) (c : Context) (l : Line) (rest : List Line) :
    (m.read c l rest).1.first < (m.read c l rest).1.stop := by
  rw [m.stop_read]
  change (l.number : Int) < _
  omega

/-- All fences that a reader finds have an origin. -/
def Traced (inner : Reader) : Prop := ∀ c ls, ∀ f ∈ (inner c ls).fences, Origin ls f

theorem continued_isOutdented (c : Context) (l : Line) : l.continued.isOutdented c = true := by
  apply decide_eq_true
  change (-1 : Int) < c.base
  omega

/-- A fence in a block quote starts at a line with a marker. -/
private theorem origin_quotation (hquote : isQuote c l = true)
    (h : Origin (quotation c l rest) f) :
    ∃ k ∈ l :: rest, k.OpensContainer ∧ f.first = k.number ∧ f.first < f.stop := by
  rcases h with ⟨c', m, before, q, rest', hsplit, hinside, hmark, rfl⟩ |
    ⟨q, hq, hopens, hfirst, hspan⟩
  · have hq : q ∈ quotation c l rest := hsplit ▸ List.mem_append_right _ List.mem_cons_self
    obtain ⟨k, hk, ⟨hmarker, rfl⟩ | rfl⟩ := mem_quotation hquote hq
    · exact ⟨k, hk, .inl hmarker, rfl, m.first_lt_stop c' k.unquoted rest'⟩
    -- a line that continues a paragraph is outdented wherever it is read
    · rw [continued_isOutdented] at hinside
      cases hinside
  · obtain ⟨k, hk, ⟨hmarker, rfl⟩ | rfl⟩ := mem_quotation hquote hq
    · exact ⟨k, hk, .inl hmarker, hfirst, hspan⟩
    · exact ⟨k, hk, hopens, hfirst, hspan⟩

private theorem origin_item (hmark : ListMark.ofText? l.body = some m)
    (h : Origin ((m.item l).1 :: rest) f) : Origin (l :: rest) f := by
  have hopens : l.OpensContainer := .inr (by rw [hmark]; rfl)
  rcases h with ⟨c', m', before, k, rest', hsplit, hread⟩ | ⟨k, hk, hopens', hfirst⟩
  · cases before with
    | nil =>
      obtain ⟨rfl, rfl⟩ := List.cons.inj hsplit
      rw [hread.2.2]
      exact .inr ⟨l, List.mem_cons_self, hopens, rfl, m'.first_lt_stop c' _ _⟩
    | cons first before =>
      obtain ⟨rfl, rfl⟩ := List.cons.inj hsplit
      exact .inl ⟨c', m', l :: before, k, rest', rfl, hread⟩
  · rcases List.mem_cons.1 hk with rfl | hk
    · exact .inr ⟨l, List.mem_cons_self, hopens, hfirst⟩
    · exact .inr ⟨k, List.mem_cons_of_mem _ hk, hopens', hfirst⟩

/-- Fences keep their origin in the lines around a container. -/
theorem inherited_origin : Inherited Origin where
  suffix hsuffix h := h.of_suffix hsuffix
  read hinside hmark := .inl ⟨_, _, [], _, _, rfl, hinside, hmark, rfl⟩
  quote hquote h := .inr (origin_quotation hquote h)
  item hmark h := origin_item hmark h

/-- A fence in a block quote starts at a line with a marker. -/
theorem origin_quote (hinner : Traced inner) (hquote : isQuote c l = true)
    (h : f ∈ (readQuote inner c l rest).1) :
    ∃ k ∈ l :: rest, k.OpensContainer ∧ f.first = k.number ∧ f.first < f.stop :=
  origin_quotation hquote (hinner _ _ f h)

/-- A fence in a list comes from one of its lines. -/
theorem origin_items (hinner : Traced inner) (hmark : ListMark.ofText? l.body = some m)
    (h : f ∈ (readItems inner c m l rest).1) : Origin (l :: rest) f :=
  inherited_origin.found_items hinner hmark h

theorem traced_fencesOf (hquote : Traced quote) (hlist : Traced list) :
    Traced (fencesOf quote list) :=
  inherited_origin.finds_fencesOf hquote hlist

/-- **Every fence of a document has an origin** among its lines. -/
theorem origin_fencesWithin (room : Nat) : Traced (fencesWithin room) :=
  inherited_origin.finds_fencesWithin room

end LiterateEdit.Markdown
