import LiterateEdit.Proofs.Markdown.Fence

/-!
# Blocks, items and containers

Only three kinds of blocks hold fences: a fence is one, a block quote and a list may have some
inside. All others are told apart only to know how many lines they take. `Kind` names the kinds, and
`readBlock_eq` says that a block is read by its kind.

A list is read item by item (`readItems_next`): one item is a container of its own (`readItem`), and
the line behind it may go on with the list (`nextMark?`).
-/

namespace LiterateEdit.Markdown

variable {m m' : ListMark} {c : Context} {l next : Line} {rest behind : List Line}
  {quote list inner : Reader}

/-! ### Kinds -/

/-- What kind of block a line opens. -/
inductive Kind where
  | table (columns : Nat)
  | code
  | fence (m : FenceMark)
  | quote
  | thematicBreak
  | list (m : ListMark)
  | definition (extent : Nat)
  | html (k : HtmlKind)
  | heading
  | text

/-- The kind of the block that a line opens. -/
def kindOf (c : Context) (l : Line) (rest : List Line) : Kind :=
  match rest.head?.bind (tableColumns? c l) with
  | some n => .table n
  | none =>
  if l.isCode c then .code
  else
  match FenceMark.ofLine? c l with
  | some m => .fence m
  | none =>
  if isQuote c l then .quote
  else if isBreak c l then .thematicBreak
  else
  match ListMark.ofLine? false c l with
  | some m => .list m
  | none =>
  match definitionExtent? c (interrupts .definition c) l rest with
  | some n => .definition n
  | none =>
  match HtmlKind.ofLine? c l with
  | some k => .html k
  | none => if isHeading c l then .heading else .text

/-- How many lines go on with a paragraph, or with a heading up to its underline. -/
def textExtent (c : Context) (rest : List Line) : Nat :=
  (underlinedExtent? c rest).getD (paragraphExtent c rest)

/-- How many of the lines behind the first belong to a block without fences. -/
def Kind.extent (c : Context) (l : Line) (rest : List Line) : Kind → Nat
  | .table n => 1 + tableExtent c (interrupts .quote c) n 0 (rest.drop 1)
  | .code => codeExtent c rest
  | .definition n => n
  | .html k => if k.endsWith l.body then 0 else k.extent c rest
  | .text => textExtent c rest
  | .fence _ | .quote | .list _ | .thematicBreak | .heading => 0

/-- **A block is read by its kind.** -/
theorem readBlock_eq (quote list : Reader) (c : Context) (l : Line) (rest : List Line) :
    readBlock quote list c l rest =
      match kindOf c l rest with
      | .fence m => ([(m.read c l rest).1], (m.read c l rest).2)
      | .quote => readQuote quote c l rest
      | .list m => readItems list c m l rest
      | k => ([], k.extent c l rest) := by
  unfold readBlock kindOf
  cases rest.head?.bind (tableColumns? c l) with
  | some n => rfl
  | none =>
  cases l.isCode c with
  | true => rfl
  | false =>
  cases FenceMark.ofLine? c l with
  | some m => rfl
  | none =>
  cases isQuote c l with
  | true => rfl
  | false =>
  cases isBreak c l with
  | true => rfl
  | false =>
  cases ListMark.ofLine? false c l with
  | some m => rfl
  | none =>
  cases definitionExtent? c (interrupts .definition c) l rest with
  | some n => rfl
  | none =>
  cases HtmlKind.ofLine? c l with
  | some k => rfl
  | none =>
  cases isHeading c l with
  | true => rfl
  | false =>
    change _ = ([], textExtent c rest)
    unfold textExtent
    cases underlinedExtent? c rest <;> rfl

/-- What a line of a kind looks like. -/
def Kind.Opens (c : Context) (l : Line) (rest : List Line) : Kind → Prop
  | .table n => rest.head?.bind (tableColumns? c l) = some n
  | .code => l.isCode c = true
  | .fence m => FenceMark.ofLine? c l = some m
  | .quote => isQuote c l = true
  | .list m => ListMark.ofLine? false c l = some m
  | .definition n => definitionExtent? c (interrupts .definition c) l rest = some n
  | .html k => HtmlKind.ofLine? c l = some k
  | .thematicBreak | .heading | .text => True

theorem kindOf_opens (c : Context) (l : Line) (rest : List Line) :
    (kindOf c l rest).Opens c l rest := by
  unfold kindOf
  split
  · assumption
  split
  · assumption
  split
  · assumption
  split
  · assumption
  split
  · trivial
  split
  · assumption
  split
  · assumption
  split
  · assumption
  split <;> trivial

/-! ### Lists -/

theorem ListMark.of_ofLine? {interrupting : Bool}
    (h : ListMark.ofLine? interrupting c l = some m) :
    ListMark.ofText? l.body = some m ∧ l.isCode c = false := by
  simp only [ListMark.ofLine?, Option.ite_none_left_eq_some, Bool.or_eq_true, not_or,
    Bool.not_eq_true] at h
  obtain ⟨⟨hcode, -⟩, h⟩ := h
  split at h
  · cases h
  · next m' heq =>
    rw [Option.ite_none_left_eq_some] at h
    exact ⟨heq.trans h.2, hcode⟩

/-- A line that is neither code nor far to the right of the list around it opens the item that its
text starts with. -/
theorem ListMark.ofLine?_eq (hcode : l.isCode c = false)
    (hnear : ∀ b, c.listBase = some b → l.indent - b < 4 ∨ l.isOutdented c = false) :
    ListMark.ofLine? false c l = ListMark.ofText? l.body := by
  unfold ListMark.ofLine?
  rw [hcode]
  cases hbase : c.listBase with
  | none => cases ListMark.ofText? l.body <;> rfl
  | some b =>
    have hcontinued : (decide (4 ≤ l.indent - b) && l.isOutdented c) = false := by
      rcases hnear b hbase with hnear | hinside
      · rw [decide_eq_false (by omega), Bool.false_and]
      · rw [hinside, Bool.and_false]
    dsimp only
    rw [hcontinued]
    cases ListMark.ofText? l.body <;> rfl

/-- Read the item of a list that a line opens with a marker. -/
def readItem (inner : Reader) (c : Context) (m : ListMark) (l : Line) (rest : List Line) :
    Reading :=
  if (m.item l).1.isEmpty && (rest.head?.map Line.isEmpty).getD false then ⟨[], rest.drop 1⟩
  else inner { c with base := (m.item l).2, listBase := some c.base } ((m.item l).1 :: rest)

/-- The marker with which a line goes on with a list, if it does. -/
def nextMark? (c : Context) (m : ListMark) (next : Line) (behind : List Line) : Option ListMark :=
  if next.isOutdented c || next.isCode c || interrupts .list c next behind then none
  else
    match ListMark.ofText? next.body with
    | none => none
    | some m' => if m.sameKind m' then some m' else none

/-- How many of the lines behind its first an item takes. -/
def itemExtent (inner : Reader) (c : Context) (m : ListMark) (l : Line) (rest : List Line) : Nat :=
  rest.length - (readItem inner c m l rest).left.length

/-- Read what goes on with a list behind an item, if anything does. -/
def readMore (inner : Reader) (c : Context) (m : ListMark) : List Line → List Fence × Nat
  | [] => ([], 0)
  | next :: behind =>
    match nextMark? c m next behind with
    | none => ([], 0)
    | some m' =>
      ((readItems inner c m' next behind).1, (readItems inner c m' next behind).2 + 1)

theorem readMore_none (h : nextMark? c m next behind = none) :
    readMore inner c m (next :: behind) = ([], 0) := by
  rw [readMore, h]

theorem readMore_some (h : nextMark? c m next behind = some m') :
    readMore inner c m (next :: behind) =
      ((readItems inner c m' next behind).1, (readItems inner c m' next behind).2 + 1) := by
  rw [readMore, h]

/-- Either nothing goes on with a list, or a line does that opens another item. -/
theorem readMore_cases (inner : Reader) (c : Context) (m : ListMark) (ls : List Line) :
    readMore inner c m ls = ([], 0) ∨
      ∃ next behind m', ls = next :: behind ∧ nextMark? c m next behind = some m' ∧
        readMore inner c m ls =
          ((readItems inner c m' next behind).1, (readItems inner c m' next behind).2 + 1) := by
  cases ls with
  | nil => exact .inl rfl
  | cons next behind =>
    cases hnext : nextMark? c m next behind with
    | none => exact .inl (readMore_none hnext)
    | some m' => exact .inr ⟨next, behind, m', rfl, hnext, readMore_some hnext⟩

/-- **A list is read item by item.** -/
theorem readItems_eq (inner : Reader) (c : Context) (m : ListMark) (l : Line) (rest : List Line) :
    readItems inner c m l rest =
      ((readItem inner c m l rest).fences ++
          (readMore inner c m (rest.drop (itemExtent inner c m l rest))).1,
        itemExtent inner c m l rest +
          (readMore inner c m (rest.drop (itemExtent inner c m l rest))).2) := by
  have hlast : ((readItem inner c m l rest).fences, itemExtent inner c m l rest) =
      ((readItem inner c m l rest).fences ++ [], itemExtent inner c m l rest + 0) := by
    rw [List.append_nil, Nat.add_zero]
  rw [readItems]
  dsimp only
  split
  -- no line is left behind the item
  · next heq =>
    have heq : rest.drop (itemExtent inner c m l rest) = [] := heq
    rw [heq]
    exact hlast
  · next next behind heq =>
    have heq : rest.drop (itemExtent inner c m l rest) = next :: behind := heq
    rw [heq]
    split
    -- the next line ends the list
    · next hstop =>
      have hnone : nextMark? c m next behind = none := if_pos hstop
      rw [readMore_none hnone]
      exact hlast
    · next hgo =>
      have hmark : nextMark? c m next behind = _ := if_neg hgo
      split
      -- or it has no marker, or one of another kind
      · next hnone =>
        rw [hnone] at hmark
        rw [readMore_none hmark]
        exact hlast
      · next m' hsome =>
        rw [hsome] at hmark
        dsimp only at hmark ⊢
        split
        · next hkind =>
          rw [if_pos hkind] at hmark
          rw [readMore_some hmark]
          exact congrArg (_, ·) (Nat.add_right_comm _ 1 _)
        · next hkind =>
          rw [if_neg hkind] at hmark
          rw [readMore_none hmark]
          exact hlast

/-- A line that goes on with a list opens an item, in the same container. -/
theorem of_nextMark? (h : nextMark? c m next behind = some m') :
    ListMark.ofText? next.body = some m' ∧ next.isOutdented c = false ∧ next.isCode c = false ∧
      interrupts .list c next behind = false := by
  unfold nextMark? at h
  split at h
  · cases h
  · next hgo =>
    simp only [Bool.or_eq_true, not_or, Bool.not_eq_true] at hgo
    split at h
    · cases h
    · next m'' heq =>
      split at h
      · rw [← h]
        exact ⟨heq, hgo.1.1, hgo.1.2, hgo.2⟩
      · cases h

/-- Whether a line goes on with a list does not depend on the lines behind it. -/
theorem nextMark?_congr (c : Context) (m : ListMark) (next : Line) (behind behind' : List Line) :
    nextMark? c m next behind = nextMark? c m next behind' := by
  have hinterrupts : interrupts .list c next behind = interrupts .list c next behind' := rfl
  unfold nextMark?
  rw [hinterrupts]

end LiterateEdit.Markdown
