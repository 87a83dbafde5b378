import LiterateEdit.Document.Replace
import LiterateEdit.Proofs.Block.Extract
import LiterateEdit.Proofs.Document.Replace
import LiterateEdit.Proofs.Markdown.Fence
import LiterateEdit.Proofs.Markdown.Outdent

/-!
# Documents that are made of fences

The simplest literate document is a row of fences with a blank line between each two (`render`). In
every dialect that knows fences, what is read from such a document is what was written, and to write
a text back to a block is the same as to write the document anew with that text
(`render_round_trip`).

The document is handled as the list of its rows. `read_rows` reads them: an opening line starts a
fence, the content is held by it since no line of it starts with three backticks, and the closing
line closes it. Behind it stand a blank line and the next item, and so on.
-/

namespace LiterateEdit

open Text Markdown

/-- A fence to be written: its info string, and the text between the fences. -/
structure FenceItem where
  /-- What stands behind the opening fence. -/
  info : Text
  /-- What stands between the fences. -/
  content : Text
  deriving DecidableEq

namespace FenceItem

/-- Three backticks. -/
def ticks : Text := ['`', '`', '`']

/-- The text of an item. -/
def text (it : FenceItem) : Text := ticks ++ it.info ++ ['\n'] ++ it.content ++ ticks ++ ['\n']

/-- May a text be an info string? It does not end there, and makes its line no row of a table. -/
def IsInfo (t : Text) : Prop :=
  ∀ c ∈ t, c ≠ '`' ∧ c ≠ '|' ∧ c ≠ '\x00' ∧ isLineBreak c = false

instance (t : Text) : Decidable (IsInfo t) := List.decidableBAll _ t

/-- An item that can be told from what stands around it: no line of the content starts with three
backticks. -/
structure IsWellFormed (it : FenceItem) : Prop where
  info_allowed : IsInfo it.info
  content_plain : IsPlain it.content
  content_fed : it.content = [] ∨ it.content.getLast? = some '\n'
  content_open : ∀ l ∈ Text.lines it.content, ¬ ticks <+: l.dropWhile isGap

instance (it : FenceItem) : Decidable it.IsWellFormed :=
  decidable_of_iff
    (IsInfo it.info ∧ IsPlain it.content ∧
      (it.content = [] ∨ it.content.getLast? = some '\n') ∧
      ∀ l ∈ Text.lines it.content, ¬ ticks <+: l.dropWhile isGap)
    ⟨fun ⟨hinfo, hplain, hfed, hopen⟩ => ⟨hinfo, hplain, hfed, hopen⟩,
      fun ⟨hinfo, hplain, hfed, hopen⟩ => ⟨hinfo, hplain, hfed, hopen⟩⟩

/-- The lines of an item. -/
def rows (it : FenceItem) : List Text :=
  (ticks ++ it.info ++ ['\n']) :: (Text.lines it.content ++ [ticks ++ ['\n']])

/-- How many lines an item has. -/
def height (it : FenceItem) : Nat := (Text.lines it.content).length + 2

/-- The fence that an item is, if its first line has the number `k`. -/
def fence (k : Nat) (it : FenceItem) : Fence := ⟨it.info, it.content, k, k + it.height⟩

end FenceItem

/-- The document that holds the items, with a blank line between each two. -/
def render (items : List FenceItem) : Text := Text.join ['\n'] (items.map FenceItem.text)

/-- How many lines stand before the item with an index. -/
def startOf : List FenceItem → Nat → Nat
  | [], _ => 0
  | _ :: _, 0 => 0
  | it :: items, i + 1 => it.height + 1 + startOf items i

variable {it : FenceItem} {items : List FenceItem} {c : Context} {quote list : Reader} {k : Nat}
  {t : Text}

/-! ### The rows of a document -/

/-- The rows of items that stand before another one. -/
def rowsBefore (items : List FenceItem) : List Text := items.flatMap fun it => it.rows ++ [['\n']]

/-- The rows of items that stand behind another one. -/
def rowsBehind (items : List FenceItem) : List Text := items.flatMap fun it => ['\n'] :: it.rows

theorem FenceItem.length_rows (it : FenceItem) : it.rows.length = it.height := by
  rw [rows, List.length_cons, List.length_append]
  rfl

theorem FenceItem.flatten_rows (it : FenceItem) : it.rows.flatten = it.text := by
  have hclosing : [ticks ++ ['\n']].flatten = ticks ++ ['\n'] := List.append_nil _
  rw [rows, List.flatten_cons, List.flatten_append, join_lines, hclosing, text]
  simp only [List.append_assoc]

private theorem join_behind (it : FenceItem) (items : List FenceItem) :
    render (it :: items) = it.text ++ (rowsBehind items).flatten := by
  induction items generalizing it with
  | nil => exact (List.append_nil _).symm
  | cons next items ih =>
    have hnext : render (next :: items) = next.text ++ (rowsBehind items).flatten := ih next
    have hrows : rowsBehind (next :: items) = ['\n'] :: (next.rows ++ rowsBehind items) := rfl
    rw [hrows, List.flatten_cons, List.flatten_append, FenceItem.flatten_rows, ← hnext]
    exact List.append_assoc _ _ _

/-- **The rows of a document**, around one of its items. -/
theorem render_around (before : List FenceItem) (it : FenceItem) (behind : List FenceItem) :
    render (before ++ it :: behind) =
      (rowsBefore before).flatten ++ it.text ++ (rowsBehind behind).flatten := by
  induction before with
  | nil => exact join_behind it behind
  | cons first before ih =>
    have hjoin : ∀ items, items ≠ [] →
        render (first :: items) = first.text ++ ['\n'] ++ render items := by
      intro items hne
      cases items with
      | nil => exact absurd rfl hne
      | cons next items => rfl
    have hrows : rowsBefore (first :: before) = first.rows ++ [['\n']] ++ rowsBefore before := rfl
    rw [List.cons_append, hjoin _ (List.append_ne_nil_of_right_ne_nil _ (List.cons_ne_nil _ _)), ih,
      hrows, List.flatten_append, List.flatten_append, FenceItem.flatten_rows]
    simp only [List.append_assoc, List.flatten_cons, List.flatten_nil, List.append_nil]

theorem length_rowsBefore_cons (it : FenceItem) (items : List FenceItem) :
    (rowsBefore (it :: items)).length = it.height + 1 + (rowsBefore items).length := by
  have hrows : rowsBefore (it :: items) = it.rows ++ [['\n']] ++ rowsBefore items := rfl
  rw [hrows, List.length_append, List.length_append, FenceItem.length_rows]
  rfl

theorem startOf_append (before : List FenceItem) (it : FenceItem) (behind : List FenceItem) :
    startOf (before ++ it :: behind) before.length = (rowsBefore before).length := by
  induction before with
  | nil => rfl
  | cons first before ih => rw [length_rowsBefore_cons, ← ih]; rfl

/-! ### What is written is plain -/

namespace FenceItem.IsWellFormed

variable (h : it.IsWellFormed)

include h

theorem unbroken_opening : Unbroken (ticks ++ it.info) := by
  intro c hc
  rcases List.mem_append.1 hc with hc | hc
  · rw [ticks, List.mem_cons, List.mem_cons, List.mem_singleton, or_self, or_self] at hc
    rw [hc]
    decide
  · exact (h.info_allowed c hc).2.2.2

theorem fed_content : ∀ l ∈ Text.lines it.content, IsFed l :=
  h.content_plain.cut_lines.isFed_of_getLast? (by rw [join_lines]; exact h.content_fed)

theorem fed_rows : ∀ l ∈ it.rows, IsFed l := by
  intro l hl
  rcases List.mem_cons.1 hl with rfl | hl
  · exact ⟨_, h.unbroken_opening, rfl⟩
  · rcases List.mem_append.1 hl with hl | hl
    · exact h.fed_content l hl
    · rw [List.mem_singleton.1 hl]
      exact ⟨ticks, by decide, rfl⟩

theorem plain_text : IsPlain it.text := by
  have hticks : IsPlain ticks := by decide
  have hinfo : IsPlain it.info := fun c hc =>
    ⟨(h.info_allowed c hc).2.2.1, fun hbreak => by
      rw [(h.info_allowed c hc).2.2.2] at hbreak
      cases hbreak⟩
  have hfeed : IsPlain ['\n'] := by decide
  simp only [text, isPlain_append]
  exact ⟨⟨⟨⟨⟨hticks, hinfo⟩, hfeed⟩, h.content_plain⟩, hticks⟩, hfeed⟩

end FenceItem.IsWellFormed

/-! ### Reading what is written -/

private theorem line_ticks (k : Nat) (info : Text) :
    let l := Line.ofText k true (FenceItem.ticks ++ info)
    l.body = FenceItem.ticks ++ info ∧ l.indent = 0 := by
  have hlead : lead 0 0 (FenceItem.ticks ++ info) = (0, 0) := lead_of_not_isGap 0 0 (by decide) _
  refine ⟨?_, ?_⟩
  · rw [Line.body_ofText]
    rfl
  · change ((lead 0 0 (FenceItem.ticks ++ info)).2 : Int) = 0
    rw [hlead]
    rfl

private theorem ofText?_ticks {info : Text} (h : '`' ∉ info) :
    FenceMark.ofText? (FenceItem.ticks ++ info) = some ⟨'`', 3, info⟩ := by
  have hrun : runLength '`' (FenceItem.ticks ++ info) = 3 := by
    have hinfo : info.takeWhile (· = '`') = [] := by
      cases info with
      | nil => rfl
      | cons c info =>
        rw [List.takeWhile_cons, if_neg]
        intro hc
        exact h (of_decide_eq_true hc ▸ List.mem_cons_self)
    rw [runLength, List.takeWhile_append_of_pos (List.all_eq_true.1 (by decide)), hinfo]
    rfl
  have hmark : FenceMark.ofText? (FenceItem.ticks ++ info) =
      if ('`' = '`' ∨ '`' = '~') ∧ 3 ≤ runLength '`' (FenceItem.ticks ++ info) ∧
          ¬('`' = '`' ∧
            '`' ∈ (FenceItem.ticks ++ info).drop (runLength '`' (FenceItem.ticks ++ info)))
      then some ⟨'`', runLength '`' (FenceItem.ticks ++ info),
        (FenceItem.ticks ++ info).drop (runLength '`' (FenceItem.ticks ++ info))⟩
      else none := rfl
  have hrest : (FenceItem.ticks ++ info).drop 3 = info := rfl
  rw [hmark, hrun, hrest, if_pos ⟨.inl rfl, by omega, fun hin => h hin.2⟩]

private theorem ticks_prefix (h : 3 ≤ runLength '`' t) : FenceItem.ticks <+: t := by
  have hrun : t.takeWhile (· = '`') = List.replicate (runLength '`' t) '`' :=
    List.eq_replicate_of_mem fun c hc =>
      of_decide_eq_true (List.all_eq_true.1 List.all_takeWhile c hc)
  have hticks : FenceItem.ticks <+: List.replicate (runLength '`' t) '`' :=
    ⟨List.replicate (runLength '`' t - 3) '`', by
      change List.replicate 3 '`' ++ _ = _
      rw [List.replicate_append_replicate]
      congr 1
      omega⟩
  exact hticks.trans (hrun ▸ List.takeWhile_prefix _)

/-- A line of the content is held by the fence around it. -/
private theorem holds_content {u : Text} (h : ¬ FenceItem.ticks <+: (u ++ ['\n']).dropWhile isGap)
    (hbase : c.base = 0) (info : Text) (k : Nat) :
    FenceMark.holds ⟨'`', 3, info⟩ c (.ofText k true u) = true := by
  unfold FenceMark.holds
  split
  · rfl
  · next hne =>
    have hout : (Line.ofText k true u).isOutdented c = false := by
      rw [Line.isOutdented, hbase]
      exact decide_eq_false (by change ¬ ((lead 0 0 u).2 : Int) < 0; omega)
    have hclosed : FenceMark.closedBy ⟨'`', 3, info⟩ c (.ofText k true u) = false := by
      refine Bool.eq_false_iff.2 fun hclosed => h ?_
      simp only [FenceMark.closedBy, Bool.and_eq_true, decide_eq_true_eq] at hclosed
      have hticks := ticks_prefix hclosed.1.2
      rw [Line.body_ofText] at hticks
      rw [List.dropWhile_append, if_neg]
      · exact hticks.trans (List.prefix_append _ _)
      · rwa [Line.isEmpty, Line.body_ofText] at hne
    rw [hout, hclosed]
    rfl

private theorem closed_by_ticks (hbase : c.base = 0) (info : Text) (k : Nat) (rest : List Line) :
    FenceMark.extent ⟨'`', 3, info⟩ c (.ofText k true FenceItem.ticks :: rest) = (0, true) := by
  obtain ⟨hbody, hindent⟩ := line_ticks k []
  rw [List.append_nil] at hbody hindent
  have hout : (Line.ofText k true FenceItem.ticks).isOutdented c = false := by
    rw [Line.isOutdented, hbase, hindent]
    rfl
  have hclosed : FenceMark.closedBy ⟨'`', 3, info⟩ c (.ofText k true FenceItem.ticks) = true := by
    rw [FenceMark.closedBy, Line.isCode, hbody, hindent, hbase]
    rfl
  rw [FenceMark.extent_cons, FenceMark.holds, Line.isEmpty, hbody, hout, hclosed]
  rfl

private theorem mark_opening (h : it.IsWellFormed) (hbase : c.base = 0) (k : Nat) :
    FenceMark.ofLine? c (.ofText k true (FenceItem.ticks ++ it.info)) = some ⟨'`', 3, it.info⟩ := by
  obtain ⟨hbody, hindent⟩ := line_ticks k it.info
  have hcode : (Line.ofText k true (FenceItem.ticks ++ it.info)).isCode c = false := by
    rw [Line.isCode, hindent, hbase]
    rfl
  rw [FenceMark.ofLine?, hcode, hbody, ofText?_ticks fun hmem => (h.info_allowed _ hmem).1 rfl]
  rfl

/-- The fence ends where the item does. -/
private theorem read_mark (h : it.IsWellFormed) (hbase : c.base = 0) (k : Nat) (rest : List Line) :
    FenceMark.read ⟨'`', 3, it.info⟩ c (.ofText k true (FenceItem.ticks ++ it.info))
        (numbered (k + 1) (Text.lines it.content) ++
          .ofText (k + 1 + (Text.lines it.content).length) true FenceItem.ticks :: rest) =
      (it.fence k, (Text.lines it.content).length + 1) := by
  have hheld : ∀ l ∈ numbered (k + 1) (Text.lines it.content),
      FenceMark.holds ⟨'`', 3, it.info⟩ c l = true := by
    intro l hl
    obtain ⟨i, t, ht, -, rfl⟩ := mem_numbered hl
    have hmem := List.mem_of_getElem? ht
    obtain ⟨u, -, rfl⟩ := h.fed_content t hmem
    rw [Line.ofCut_feed]
    exact holds_content (h.content_open _ hmem) hbase it.info _
  rw [FenceMark.read_append hheld (closed_by_ticks hbase it.info _ rest),
    (line_ticks k it.info).2, Int.toNat_zero, flatten_outdented_zero _ h.fed_content, join_lines,
    length_numbered _ h.fed_content, FenceItem.fence, FenceItem.height]
  congr 2
  change (k : Int) + 1 + ((Text.lines it.content).length + 1 : Nat) = _
  omega

/-- **An item is read as one fence**, and then what stands behind it. -/
private theorem read_item (h : it.IsWellFormed) (hbase : c.base = 0) (k : Nat)
    (behind : List Text) :
    fencesOf quote list c (numbered k (it.rows ++ behind)) =
      ⟨it.fence k :: (fencesOf quote list c (numbered (k + it.height) behind)).fences,
        (fencesOf quote list c (numbered (k + it.height) behind)).left⟩ := by
  have hheight : k + 1 + (Text.lines it.content).length + 1 = k + it.height := by
    rw [FenceItem.height]
    omega
  obtain ⟨hbody, hindent⟩ := line_ticks k it.info
  have hbar : '|' ∉ FenceItem.ticks ++ it.info := by
    intro hmem
    rcases List.mem_append.1 hmem with hmem | hmem
    · revert hmem
      decide
    · exact (h.info_allowed _ hmem).2.1 rfl
  rw [FenceItem.rows, List.cons_append, numbered_feed, List.append_assoc, numbered_append,
    List.cons_append, numbered_feed, List.nil_append, hheight,
    fencesOf_block ?nonempty ?inside (readBlock_fence (bind_tableColumns?_eq_none ?bar _)
      (mark_opening h hbase k)), read_mark h hbase]
  case nonempty =>
    rw [Line.isEmpty, hbody]
    rfl
  case inside =>
    rw [Line.isOutdented, hindent, hbase]
    rfl
  case bar => rwa [hbody]
  have hdrop (rest : List Line) : (numbered (k + 1) (Text.lines it.content) ++
      .ofText (k + 1 + (Text.lines it.content).length) true FenceItem.ticks :: rest).drop
        ((Text.lines it.content).length + 1) = rest := by
    rw [← length_numbered (k + 1) h.fed_content, ← List.drop_drop, List.drop_left]
    rfl
  rw [hdrop]
  rfl

/-- The fences of items, the first of which starts at the line with the number `k`. -/
def fencesFrom (k : Nat) : List FenceItem → List Fence
  | [] => []
  | it :: items => it.fence k :: fencesFrom (k + it.height + 1) items

private theorem read_behind (h : ∀ it ∈ items, it.IsWellFormed) (hbase : c.base = 0) (k : Nat) :
    (fencesOf quote list c (numbered k (rowsBehind items))).fences = fencesFrom (k + 1) items := by
  induction items generalizing k with
  | nil =>
    change (fencesOf quote list c []).fences = []
    rw [fencesOf]
  | cons it items ih =>
    have hrows : rowsBehind (it :: items) = ([] ++ ['\n']) :: (it.rows ++ rowsBehind items) := rfl
    rw [hrows, numbered_feed, fencesOf_empty rfl, read_item (h it List.mem_cons_self) hbase,
      ih (fun it hit => h it (List.mem_cons_of_mem _ hit)), fencesFrom]

/-- The rows of a document are the lines that its text is cut into. -/
private theorem cut_rows (h : ∀ it ∈ items, it.IsWellFormed) :
    (∀ l ∈ rowsBefore items, IsFed l) ∧ ∀ l ∈ rowsBehind items, IsFed l := by
  have hblank : IsFed ['\n'] := ⟨[], by decide, rfl⟩
  constructor
  · intro l hl
    obtain ⟨it, hit, hl⟩ := List.mem_flatMap.1 hl
    rcases List.mem_append.1 hl with hl | hl
    · exact (h it hit).fed_rows l hl
    · exact List.mem_singleton.1 hl ▸ hblank
  · intro l hl
    obtain ⟨it, hit, hl⟩ := List.mem_flatMap.1 hl
    rcases List.mem_cons.1 hl with rfl | hl
    · exact hblank
    · exact (h it hit).fed_rows l hl

private theorem plain_render (h : ∀ it ∈ items, it.IsWellFormed) : IsPlain (render items) := by
  have hfeed : IsPlain ['\n'] := by decide
  induction items with
  | nil => exact fun c hc => absurd hc List.not_mem_nil
  | cons it items ih =>
    have ih := ih fun it hit => h it (List.mem_cons_of_mem _ hit)
    have hit := (h it List.mem_cons_self).plain_text
    cases items with
    | nil => exact hit
    | cons next items => exact isPlain_append.2 ⟨isPlain_append.2 ⟨hit, hfeed⟩, ih⟩

/-- **The fences of a document are its items.** -/
theorem fences_render {d : Dialect} (hd : d.blocks = true) (hroom : 0 < d.nesting)
    (h : ∀ it ∈ items, it.IsWellFormed) : fences d (render items) = fencesFrom 0 items := by
  obtain ⟨quote, list, hreader⟩ := exists_fencesWithin hroom
  rw [fences, if_pos hd, hreader]
  cases items with
  | nil =>
    change (fencesOf quote list _ []).fences = []
    rw [fencesOf]
  | cons it items =>
    have hit := h it List.mem_cons_self
    have hitems : ∀ it ∈ items, it.IsWellFormed := fun it hit => h it (List.mem_cons_of_mem _ hit)
    have hrows : render (it :: items) = (it.rows ++ rowsBehind items).flatten := by
      rw [join_behind, List.flatten_append, FenceItem.flatten_rows]
    have hcut : Cut (it.rows ++ rowsBehind items) :=
      Cut.append hit.fed_rows (Cut.of_fed (cut_rows hitems).2)
    have hplain := plain_render h
    rw [hrows] at hplain
    rw [hrows, lines_flatten hcut hplain, read_item hit rfl, read_behind hitems rfl, Nat.zero_add,
      fencesFrom, Nat.zero_add]

/-! ### What is shown and written back -/

/-- Does a block show an item whose first line has the number `k`? -/
structure FenceItem.IsShownBy (it : FenceItem) (k : Nat) (b : Block) : Prop where
  text : b.text = it.content
  language : b.language = (Info.parse it.info).value.language
  args : b.args = (Info.parse it.info).value.args
  first : b.first = k
  stop : b.stop = k + it.height

theorem length_fencesFrom (k : Nat) (items : List FenceItem) :
    (fencesFrom k items).length = items.length := by
  induction items generalizing k with
  | nil => rfl
  | cons it items ih => exact congrArg (· + 1) (ih _)

theorem getElem?_fencesFrom (k : Nat) (before : List FenceItem) (it : FenceItem)
    (behind : List FenceItem) :
    (fencesFrom k (before ++ it :: behind))[before.length]? =
      some (it.fence (k + (rowsBefore before).length)) := by
  induction before generalizing k with
  | nil => rfl
  | cons first before ih =>
    rw [List.cons_append, fencesFrom, List.length_cons, List.getElem?_cons_succ, ih,
      length_rowsBefore_cons]
    congr 2
    omega

/-- To write a text to an item of a document is to write the document with that text. -/
private theorem replace_item {before behind : List FenceItem}
    (h : ∀ it' ∈ before ++ it :: behind, it'.IsWellFormed) (identity t : Text) :
    replaceLines (render (before ++ it :: behind)) (render (before ++ it :: behind)) identity
        (rowsBefore before).length ((rowsBefore before).length + it.height : Nat) t =
      .ok (render (before ++ ⟨it.info, Replace.withFeed t⟩ :: behind)) := by
  let opening := FenceItem.ticks ++ it.info ++ ['\n']
  let content := Text.lines it.content
  let closing := FenceItem.ticks ++ ['\n']
  have hit : it.IsWellFormed := h it (List.mem_append_right _ List.mem_cons_self)
  have hbefore := (cut_rows fun it' hmem => h it' (List.mem_append_left _ hmem)).1
  have hbehind := (cut_rows fun it' hmem =>
    h it' (List.mem_append_right _ (List.mem_cons_of_mem _ hmem))).2
  have hlines : Text.lines (render (before ++ it :: behind)) =
      rowsBefore before ++ opening :: (content ++ closing :: rowsBehind behind) := by
    have hcut := Cut.append hbefore (Cut.append hit.fed_rows (Cut.of_fed hbehind))
    have hrows : render (before ++ it :: behind) =
        (rowsBefore before ++ (it.rows ++ rowsBehind behind)).flatten := by
      rw [render_around, List.flatten_append, List.flatten_append, FenceItem.flatten_rows,
        List.append_assoc]
    rw [hrows, hcut.lines_flatten, FenceItem.rows, List.cons_append,
      List.append_assoc (Text.lines it.content)]
    rfl
  have hheight : (rowsBefore before).length + it.height =
      (rowsBefore before).length + content.length + 2 := by
    rw [FenceItem.height, Nat.add_assoc]
  have hstop : (rowsBefore before).length + it.height ≤
      (Text.lines (render (before ++ it :: behind))).length := by
    rw [hlines, hheight, List.length_append, List.length_cons, List.length_append, List.length_cons]
    omega
  have hopening : opening.head? ≠ some ' ' := by
    change some '`' ≠ some ' '
    decide
  have hspan : (rowsBefore before).length < (rowsBefore before).length + it.height := by
    rw [FenceItem.height]
    omega
  -- the span is that of the item, and its last line is the closing one
  have hreplaced := replaceLines_eq_ok [] (render (before ++ it :: behind)) identity hspan hstop t
  rw [List.nil_append, List.nil_append, hlines, hheight, Replace.spliceLines_append
    (Replace.closingAt_closed (by decide) (rowsBefore before) opening content (rowsBehind behind)),
    Replace.openingLine_eq (.inr ⟨_, hit.unbroken_opening, rfl⟩)] at hreplaced
  rw [hheight, hreplaced, render_around, List.flatten_append, List.flatten_cons,
    List.flatten_append, Replace.flatten_newLines hopening, List.flatten_cons, FenceItem.text]
  simp only [closing, List.append_assoc]

private theorem nesting_of_ofName? {name : Text} {d : Dialect} (h : Dialect.ofName? name = some d) :
    0 < d.nesting := by
  obtain ⟨entry, hfind, rfl⟩ := Option.map_eq_some_iff.1 h
  have hall : ∀ entry ∈ Dialect.named, 0 < entry.2.nesting := by decide
  exact hall entry (List.mem_of_find?_eq_some hfind)

private theorem parse_render (items : List FenceItem) (path : Path) {name : Text} {d : Dialect}
    (h : Dialect.ofName? name = some d) :
    Document.parse (render items) path name =
      .ok ⟨path, render items, render items, [], fences d (render items)⟩ := by
  have hstart : Frontmatter.cut? (render items) = none := by
    cases items with
    | nil => rfl
    | cons it items => rw [join_behind]; rfl
  rw [Document.parse, splitFrontmatter, hstart, h]

/-- **Documents made of fences are read as they are written**: in every dialect that knows fences,
each item is a block in its place, and to write a text to a block is to write the document with that
text. -/
theorem render_round_trip {name : Text} {d : Dialect} (hname : Dialect.ofName? name = some d)
    (hblocks : d.blocks = true) (path : Path) (h : ∀ it ∈ items, it.IsWellFormed) :
    ∃ doc bs, Document.parse (render items) path name = .ok doc ∧ doc.blocks = .ok bs ∧
      bs.value.length = items.length ∧
      ∀ i it, items[i]? = some it → ∃ b, bs.value[i]? = some b ∧ it.IsShownBy (startOf items i) b ∧
        ∀ t, doc.replaceBlock b t =
          .ok (render (items.set i { it with content := Replace.withFeed t })) := by
  refine ⟨_, _, parse_render items path hname, rfl, ?_, ?_⟩
  · rw [blocksOfFences_value, List.length_map, fences_render hblocks (nesting_of_ofName? hname) h,
      length_fencesFrom]
  intro i it hit
  -- the items around the one in question
  obtain ⟨before, behind, rfl, rfl⟩ : ∃ before behind, items = before ++ it :: behind ∧
      before.length = i := by
    obtain ⟨hi, hget⟩ := List.getElem?_eq_some_iff.1 hit
    refine ⟨items.take i, items.drop (i + 1), ?_, List.length_take_of_le (Nat.le_of_lt hi)⟩
    rw [← hget, List.getElem_cons_drop hi, List.take_append_drop]
  refine ⟨((it.fence (rowsBefore before).length).toBlock path []).value, ?_, ?_, ?_⟩
  · rw [blocksOfFences_value, List.getElem?_map,
      fences_render hblocks (nesting_of_ofName? hname) h, getElem?_fencesFrom, Nat.zero_add]
    rfl
  · rw [startOf_append]
    exact ⟨rfl, rfl, Fence.toBlock_args_of_no_defaults path _, rfl, rfl⟩
  · intro t
    rw [List.set_append_right _ _ (Nat.le_refl _), Nat.sub_self, List.set_cons_zero]
    exact replace_item h _ t

/-- The content may look like front matter, hold tildes and short runs of backticks, or be empty. -/
theorem render_round_trip_hyphens :
    let items : List FenceItem := [⟨lit "py :name a", lit "---\n\n~~~\n ``\n"⟩, ⟨[], []⟩]
    (Dialect.ofName? (lit "gfm-like") = some ⟨true, true, true, 20⟩ ∧
      ∀ it ∈ items, it.IsWellFormed) ∧
    ∃ doc bs,
      Document.parse (render items) (Path.ofText (lit "doc.md")) (lit "gfm-like") = .ok doc ∧
      doc.blocks = .ok bs ∧ bs.value.length = items.length ∧
      ∀ i it, items[i]? = some it → ∃ b, bs.value[i]? = some b ∧ it.IsShownBy (startOf items i) b ∧
        ∀ t, doc.replaceBlock b t =
          .ok (render (items.set i { it with content := Replace.withFeed t })) := by
  intro items
  have hname : Dialect.ofName? (lit "gfm-like") = some ⟨true, true, true, 20⟩ := by decide
  have hitems : ∀ it ∈ items, it.IsWellFormed := by decide
  exact ⟨⟨hname, hitems⟩, render_round_trip hname rfl _ hitems⟩

end LiterateEdit
