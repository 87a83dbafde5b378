import LiterateEdit.Markdown.Document

/-!
# Reading a fence

An opening fence is read as soon as a block starts there: its line is neither empty nor outdented
nor code, and no table starts with it (`readBlock_fence`). From then on the lines belong to the
content as long as the fence holds them (`FenceMark.holds`), and the first one that it does not hold
decides whether the fence is closed (`FenceMark.extent_append`, `FenceMark.exists_content`).
-/

namespace LiterateEdit.Markdown

variable {m : FenceMark} {c : Context} {l : Line} {ls content rest : List Line}
  {quote list : Reader} {t : Text}

/-- Does a line belong to the content of an open fence? -/
def FenceMark.holds (m : FenceMark) (c : Context) (l : Line) : Bool :=
  if l.isEmpty then l.terminated else !l.isOutdented c && !m.closedBy c l

theorem FenceMark.extent_cons (m : FenceMark) (c : Context) (l : Line) (rest : List Line) :
    m.extent c (l :: rest) =
      if m.holds c l then ((m.extent c rest).1 + 1, (m.extent c rest).2)
      else (0, !l.isEmpty && !l.isOutdented c) := by
  unfold FenceMark.holds
  rw [FenceMark.extent]
  cases l.isEmpty <;> cases l.terminated <;> cases l.isOutdented c <;> cases m.closedBy c l <;> rfl

/-- The lines that a fence holds are content. -/
theorem FenceMark.extent_append (h : ∀ l ∈ content, m.holds c l = true) (rest : List Line) :
    m.extent c (content ++ rest) =
      (content.length + (m.extent c rest).1, (m.extent c rest).2) := by
  induction content with
  | nil => rw [List.nil_append, List.length_nil, Nat.zero_add]
  | cons l content ih =>
    rw [List.cons_append, extent_cons, if_pos (h l List.mem_cons_self),
      ih fun l hl => h l (List.mem_cons_of_mem _ hl), List.length_cons, Nat.add_right_comm]

/-- **The content of a fence is made of the lines that it holds**, up to the first other one. -/
theorem FenceMark.exists_content (m : FenceMark) (c : Context) (ls : List Line) :
    ∃ content rest, ls = content ++ rest ∧ (∀ l ∈ content, m.holds c l = true) ∧
      content.length = (m.extent c ls).1 ∧ m.extent c rest = (0, (m.extent c ls).2) := by
  induction ls with
  | nil => exact ⟨[], [], rfl, fun l hl => absurd hl List.not_mem_nil, rfl, rfl⟩
  | cons l ls ih =>
    rw [extent_cons]
    cases hl : m.holds c l with
    | false =>
      refine ⟨[], l :: ls, rfl, fun l hl => absurd hl List.not_mem_nil, rfl, ?_⟩
      rw [extent_cons, hl]
      rfl
    | true =>
      obtain ⟨content, rest, rfl, hholds, hlength, hrest⟩ := ih
      refine ⟨l :: content, rest, rfl, ?_, congrArg (· + 1) hlength, hrest⟩
      intro k hk
      rcases List.mem_cons.1 hk with rfl | hk
      · exact hl
      · exact hholds k hk

/-- The fence that a line opens, and how many of the lines behind the first it takes. -/
def FenceMark.read (m : FenceMark) (c : Context) (l : Line) (rest : List Line) : Fence × Nat :=
  let (n, closed) := m.extent c rest
  let taken := if closed then n + 1 else n
  (⟨m.info, ((rest.take n).map (Line.outdented l.indent.toNat)).flatten, l.number,
    l.number + 1 + taken⟩, taken)

/-- A fence spans its opening line and the lines that it takes. -/
theorem FenceMark.stop_read (m : FenceMark) (c : Context) (l : Line) (rest : List Line) :
    (m.read c l rest).1.stop = l.number + 1 + (m.read c l rest).2 := rfl

/-- What is read behind a mark, given the lines of the content and what ends it. -/
theorem FenceMark.read_append (h : ∀ l ∈ content, m.holds c l = true) {closed : Bool}
    (hrest : m.extent c rest = (0, closed)) (l : Line) :
    m.read c l (content ++ rest) =
      (⟨m.info, (content.map (Line.outdented l.indent.toNat)).flatten, l.number,
        l.number + 1 + (if closed then content.length + 1 else content.length : Nat)⟩,
        if closed then content.length + 1 else content.length) := by
  unfold FenceMark.read
  rw [extent_append h rest, hrest]
  change (_, _) = (_, _)
  rw [Nat.add_zero, List.take_left]

/-- A fence takes no more lines than there are. -/
theorem FenceMark.read_le (m : FenceMark) (c : Context) (l : Line) (ls : List Line) :
    (m.read c l ls).2 ≤ ls.length := by
  obtain ⟨content, rest, rfl, hholds, -, hrest⟩ := m.exists_content c ls
  rw [read_append hholds hrest, List.length_append]
  split
  · next hclosed =>
    cases rest with
    | nil =>
      rw [hclosed, FenceMark.extent] at hrest
      cases hrest
    | cons next behind => exact Nat.add_le_add_left (Nat.le_add_left 1 behind.length) _
  · exact Nat.le_add_right _ _

/-! ### Marks -/

/-- The mark of a fence is a run of at least three backticks or tildes. -/
theorem FenceMark.of_ofText? (h : FenceMark.ofText? t = some m) :
    (m.marker = '`' ∨ m.marker = '~') ∧ 3 ≤ m.length ∧ t.head? = some m.marker := by
  unfold FenceMark.ofText? at h
  split at h
  · cases h
  · next d u =>
    rw [Option.ite_none_right_eq_some] at h
    obtain ⟨⟨hd, hlength, -⟩, heq⟩ := h
    cases heq
    exact ⟨hd, hlength, rfl⟩

/-- A line that closes a fence holds a run that is long enough, and gaps. -/
theorem FenceMark.of_closedBy (h : m.closedBy c l = true) :
    ∃ n trail, m.length ≤ n ∧ l.body = List.replicate n m.marker ++ trail ∧
      ∀ d ∈ trail, isGap d = true := by
  simp only [FenceMark.closedBy, Bool.and_eq_true, decide_eq_true_eq] at h
  obtain ⟨⟨-, hlength⟩, htrail⟩ := h
  have hrun : l.body.takeWhile (· = m.marker) =
      List.replicate (runLength m.marker l.body) m.marker :=
    List.eq_replicate_of_mem fun d hd =>
      of_decide_eq_true (List.all_eq_true.1 List.all_takeWhile d hd)
  refine ⟨_, l.body.drop (runLength m.marker l.body), hlength, ?_, List.all_eq_true.1 htrail⟩
  rw [← hrun]
  exact (List.prefix_iff_eq_append.1 (List.takeWhile_prefix _)).symm

/-! ### Blocks that are fences -/

private theorem mem_of_mem_trimRight {p : Char → Bool} {a : Char} (h : a ∈ Text.trimRight p t) :
    a ∈ t := by
  induction t with
  | nil => exact h
  | cons b t ih =>
    rw [Text.trimRight] at h
    split at h
    · split at h
      · exact absurd h List.not_mem_nil
      · exact List.mem_singleton.1 h ▸ List.mem_cons_self
    · next d u heq =>
      rcases List.mem_cons.1 h with rfl | h
      · exact List.mem_cons_self
      · exact List.mem_cons_of_mem _ (ih (heq ▸ h))

/-- A table starts with a line that has a vertical bar. -/
theorem tableColumns?_eq_none (h : '|' ∉ l.body) (delimiters : Line) :
    tableColumns? c l delimiters = none := by
  have hstrip : '|' ∉ Text.strip l.body := fun hmem =>
    h ((List.dropWhile_suffix _).mem (mem_of_mem_trimRight hmem))
  rw [tableColumns?, if_pos (by simp only [hstrip, not_false_eq_true, decide_true, Bool.or_true])]

/-- The second line of a table is a row of delimiters, and not outdented. -/
theorem tableColumns?_eq_none_of_delimiters {delimiters : Line}
    (h : looksDelimiting delimiters.body = false ∨ delimiters.isOutdented c = true) (l : Line) :
    tableColumns? c l delimiters = none := by
  rw [tableColumns?, if_pos]
  rcases h with h | h
  · simp only [h, Bool.not_false, Bool.or_true, Bool.true_or]
  · simp only [h, Bool.or_true, Bool.true_or]

theorem bind_tableColumns?_eq_none (h : '|' ∉ l.body) (rest : List Line) :
    rest.head?.bind (tableColumns? c l) = none := by
  cases rest with
  | nil => rfl
  | cons next behind => exact tableColumns?_eq_none h next

theorem FenceMark.of_ofLine? (h : FenceMark.ofLine? c l = some m) :
    FenceMark.ofText? l.body = some m := by
  unfold FenceMark.ofLine? at h
  split at h
  · cases h
  · exact h

/-- What ends a fence is no row of delimiters. -/
theorem FenceMark.no_table_behind (hm : m.marker = '`' ∨ m.marker = '~') (hlength : 0 < m.length)
    {closed : Bool} (h : m.extent c rest = (0, closed)) (l : Line) :
    rest.head?.bind (tableColumns? c l) = none := by
  cases rest with
  | nil => rfl
  | cons next behind =>
    refine tableColumns?_eq_none_of_delimiters ?_ l
    rw [extent_cons] at h
    split at h
    · cases (Prod.mk.inj h).1
    · next hholds =>
      rw [holds] at hholds
      split at hholds
      · next hempty =>
        left
        rw [List.isEmpty_iff.1 hempty]
        rfl
      · cases hout : next.isOutdented c with
        | true => exact .inr rfl
        | false =>
          -- what ends the fence there is its closing line, which starts with a mark
          have hclosed : m.closedBy c next = true := by
            cases hclosed : m.closedBy c next with
            | true => rfl
            | false => exact absurd (by rw [hout, hclosed]; rfl) hholds
          obtain ⟨n, trail, hn, hbody, -⟩ := of_closedBy hclosed
          obtain ⟨n, rfl⟩ : ∃ k, n = k + 1 := ⟨n - 1, by omega⟩
          left
          rw [hbody, List.replicate_succ, List.cons_append]
          have hmarker : isDelimiterChar m.marker = false := by
            rcases hm with hm | hm <;> rw [hm] <;> rfl
          cases List.replicate n m.marker ++ trail with
          | nil => rfl
          | cons d t => rw [looksDelimiting, hmarker]; rfl

theorem isCode_of_fence (h : FenceMark.ofLine? c l = some m) : l.isCode c = false := by
  unfold FenceMark.ofLine? at h
  split at h
  · cases h
  · next hcode => exact Bool.eq_false_iff.2 hcode

/-- An opening fence is read unless a table starts there. -/
theorem readBlock_fence (htable : rest.head?.bind (tableColumns? c l) = none)
    (hm : FenceMark.ofLine? c l = some m) :
    readBlock quote list c l rest = ([(m.read c l rest).1], (m.read c l rest).2) := by
  unfold readBlock
  rw [htable, isCode_of_fence hm, hm]
  rfl

/-! ### One block after another -/

theorem fencesOf_nil : fencesOf quote list c [] = ⟨[], []⟩ := by
  rw [fencesOf]

theorem fencesOf_empty (h : l.isEmpty = true) (rest : List Line) :
    fencesOf quote list c (l :: rest) = fencesOf quote list c rest := by
  rw [fencesOf, if_pos h]

theorem fencesOf_outdented (hne : l.isEmpty = false) (hout : l.isOutdented c = true)
    (rest : List Line) : fencesOf quote list c (l :: rest) = ⟨[], l :: rest⟩ := by
  rw [fencesOf, hne, if_pos hout]
  rfl

theorem fencesOf_block (hne : l.isEmpty = false) (hout : l.isOutdented c = false)
    {fences : List Fence} {n : Nat} (h : readBlock quote list c l rest = (fences, n)) :
    fencesOf quote list c (l :: rest) =
      ⟨fences ++ (fencesOf quote list c (rest.drop n)).fences,
        (fencesOf quote list c (rest.drop n)).left⟩ := by
  rw [fencesOf, hne, hout, h]
  rfl

theorem fencesOf_cons (hne : l.isEmpty = false) (hout : l.isOutdented c = false)
    (rest : List Line) :
    fencesOf quote list c (l :: rest) =
      ⟨(readBlock quote list c l rest).1 ++
          (fencesOf quote list c (rest.drop (readBlock quote list c l rest).2)).fences,
        (fencesOf quote list c (rest.drop (readBlock quote list c l rest).2)).left⟩ :=
  fencesOf_block hne hout rfl

/-- Something is read in every container, if it may be opened at all. -/
theorem exists_fencesWithin {room : Nat} (h : 0 < room) :
    ∃ quote list, fencesWithin room = fencesOf quote list := by
  match room with
  | 1 => exact ⟨_, _, rfl⟩
  | room + 2 => exact ⟨_, _, rfl⟩

end LiterateEdit.Markdown
