import LiterateEdit.Document.Replace
import LiterateEdit.Proofs.Block.Extract
import LiterateEdit.Proofs.Document.Replace
import LiterateEdit.Proofs.Markdown.Origin
import LiterateEdit.Proofs.Markdown.Outdent

/-!
# Where a block stands in its document

A block comes from a fence, and a fence is told by Markdown in terms of its lines. To write to the
block the document is cut into lines of text. Both agree if the lines up to the end of the block are
plain and its opening line is **bare**: nothing but spaces stands before its fence, so no container
starts there and the line is read as it stands (`Fence.exists_place`). What stands behind the block
may be anything.

The lines of the content are then a stretch of the lines of text behind the opening line, each less
the indentation of that line, and the closing line, if there is one, is what write-back takes for
one.
-/

namespace LiterateEdit

open Text Markdown

variable {ls behind : List Text} {tail : List Line} {f : Fence} {k : Nat} {m : FenceMark}
  {c : Context} {l : Line}

/-- Is a line of text an opening fence behind nothing but spaces? -/
def IsBare (t : Text) : Prop :=
  (t.dropWhile (· = ' ')).head? = some '`' ∨ (t.dropWhile (· = ' ')).head? = some '~'

instance (t : Text) : Decidable (IsBare t) := inferInstanceAs (Decidable (_ ∨ _))

/-! ### The content of a fence as lines of text -/

theorem isBlank_of_isGap {d : Char} (h : isGap d = true) : isBlank d = true := by
  simp only [isGap, Bool.or_eq_true, decide_eq_true_eq] at h
  rcases h with rfl | rfl <;> decide

/-- A line that closes a fence is written as one that write-back takes for a closing fence. -/
private theorem isClosingFence_of_closedBy {t : Text} (hm : m.marker = '`' ∨ m.marker = '~')
    (hlength : 3 ≤ m.length) (ht : IsFed t ∨ Unbroken t)
    (h : m.closedBy c (.ofCut k t) = true) : Replace.isClosingFence t = true := by
  obtain ⟨n, trail, hn, hbody, htrail⟩ := FenceMark.of_closedBy h
  have hgaps (u : Text) : ∀ d ∈ u.takeWhile isGap, isBlank d = true := fun d hd =>
    isBlank_of_isGap (List.all_eq_true.1 List.all_takeWhile d hd)
  rcases ht with ⟨u, hu, rfl⟩ | hu
  · rw [Line.ofCut_feed, Line.body_ofText] at hbody
    have hline : u ++ ['\n'] =
        u.takeWhile isGap ++ List.replicate n m.marker ++ (trail ++ ['\n']) := by
      rw [List.append_assoc, ← List.append_assoc (List.replicate n m.marker), ← hbody,
        ← List.append_assoc, List.takeWhile_append_dropWhile]
    rw [hline]
    refine Replace.isClosingFence_run hm (Nat.le_trans hlength hn) (hgaps u) fun d hd => ?_
    rcases List.mem_append.1 hd with hd | hd
    · exact isBlank_of_isGap (htrail d hd)
    · rw [List.mem_singleton.1 hd]
      decide
  · rw [Line.ofCut_unbroken hu, Line.body_ofText] at hbody
    have hline : t = t.takeWhile isGap ++ List.replicate n m.marker ++ trail := by
      rw [List.append_assoc, ← hbody, List.takeWhile_append_dropWhile]
    rw [hline]
    exact Replace.isClosingFence_run hm (Nat.le_trans hlength hn) (hgaps t) fun d hd =>
      isBlank_of_isGap (htrail d hd)

/-- The line that closes a fence. -/
private theorem exists_closing (hm : m.marker = '`' ∨ m.marker = '~') (hlength : 3 ≤ m.length)
    (hcut : Cut behind) (hne : numbered k behind ≠ [])
    (h : m.extent c (numbered k behind ++ tail) = (0, true)) :
    ∃ closing rest, behind = closing :: rest ∧ Replace.isClosingFence closing = true := by
  cases hlines : numbered k behind with
  | nil => exact absurd hlines hne
  | cons line lines =>
    obtain ⟨closing, rest, rfl, rfl, -, hgap⟩ := numbered_eq_cons hcut hlines
    refine ⟨closing, rest, rfl, ?_⟩
    rw [hlines, List.cons_append, FenceMark.extent_cons] at h
    split at h
    · cases (Prod.mk.inj h).1
    · next hholds =>
      have hkept := (Prod.mk.inj h).2
      simp only [Bool.and_eq_true, Bool.not_eq_true'] at hkept
      rw [FenceMark.holds, hkept.1, hkept.2] at hholds
      have hclosed : m.closedBy c (.ofCut k closing) = true := by
        cases hclosed : m.closedBy c (.ofCut k closing) with
        | true => rfl
        | false => exact absurd (by rw [hclosed]; rfl) hholds
      refine isClosingFence_of_closedBy hm hlength ?_ hclosed
      cases hcut with
      | last hne hl => exact .inr hl
      | cons hl hls => exact .inl ⟨_, hl, rfl⟩

/-- What is read behind a mark, in terms of the lines that the text is cut into, if it ends among
them. -/
private theorem FenceMark.read_numbered (hcut : Cut ls) (m : FenceMark) (c : Context) (l : Line)
    (hend : (m.read c l (numbered k ls ++ tail)).2 ≤ (numbered k ls).length) :
    ∃ content behind closed, ls = content ++ behind ∧ (∀ t ∈ content, t.all isGap = false) ∧
      (closed = true → numbered (k + content.length) behind ≠ []) ∧
      m.extent c (numbered (k + content.length) behind ++ tail) = (0, closed) ∧
      m.read c l (numbered k ls ++ tail) =
        (⟨m.info, (content.map (outdentText l.indent.toNat)).flatten, l.number,
          l.number + 1 + (if closed then content.length + 1 else content.length : Nat)⟩,
          if closed then content.length + 1 else content.length) := by
  obtain ⟨front, back, hlines, hholds, -, hback⟩ := m.exists_content c (numbered k ls ++ tail)
  generalize (m.extent c (numbered k ls ++ tail)).2 = closed at hback
  rw [hlines, FenceMark.read_append hholds hback] at hend
  have hfront : front.length ≤ (numbered k ls).length := by
    refine Nat.le_trans ?_ hend
    split <;> omega
  obtain ⟨inner, hinner⟩ : front <+: numbered k ls :=
    List.prefix_of_prefix_length_le ⟨back, hlines.symm⟩ (List.prefix_append _ _) hfront
  rw [← hinner, List.append_assoc] at hlines
  obtain rfl := List.append_cancel_left hlines
  obtain ⟨content, behind, rfl, rfl, hlength, rfl, hgap⟩ := numbered_eq_append hcut hinner.symm
  refine ⟨content, behind, closed, rfl, hgap, ?_, hback, ?_⟩
  · rintro rfl hnil
    rw [numbered_append, hnil, List.append_nil] at hend
    exact absurd hend (Nat.not_succ_le_self _)
  · rw [numbered_append, List.append_assoc, FenceMark.read_append hholds hback,
      map_outdented_numbered k _ hgap, hlength]

/-! ### The place of a fence -/

/-- **The place of a fence** among lines of text: an opening line that is spaces and a mark, lines
of content, and what comes behind, which starts with a closing fence if the fence is closed. The
lines up to the end of the content are plain, and have their line feeds if another line follows. -/
structure Fence.Place (f : Fence) (ls before : List Text) (indent : Nat) (mark : Text)
    (content behind : List Text) : Prop where
  lines : ls = before ++ (List.replicate indent ' ' ++ mark) :: (content ++ behind)
  mark_head : mark.head? = some '`' ∨ mark.head? = some '~'
  opens : (FenceMark.ofText?
    (Line.ofCut before.length (List.replicate indent ' ' ++ mark)).body).isSome = true
  first : f.first = before.length
  text : f.content = (content.map (outdentText indent)).flatten
  ungapped : ∀ t ∈ content, t.all isGap = false
  stop : f.stop = before.length + 1 + content.length ∨
    f.stop = before.length + 1 + content.length + 1 ∧
      ∃ closing rest, behind = closing :: rest ∧ Replace.isClosingFence closing = true
  plain : ∀ l ∈ before ++ (List.replicate indent ' ' ++ mark) :: content, IsPlain l
  cut : Cut (before ++ (List.replicate indent ' ' ++ mark) :: content)
  fed : behind ≠ [] → ∀ l ∈ before ++ (List.replicate indent ' ' ++ mark) :: content, IsFed l

/-- A bare line is as wide as its spaces are many, and its content is the fence. -/
theorem IsBare.exists_spaces {t : Text} (h : IsBare t) :
    ∃ n d u, t = List.replicate n ' ' ++ d :: u ∧ (d = '`' ∨ d = '~') ∧
      ∀ k, (Line.ofCut k t).indent = n ∧ ∃ v, (Line.ofCut k t).body = d :: v ∧ ∀ c ∈ v, c ∈ u := by
  have hspaces : t.takeWhile (· = ' ') = List.replicate (t.takeWhile (· = ' ')).length ' ' :=
    List.eq_replicate_of_mem fun d hd =>
      of_decide_eq_true (List.all_eq_true.1 List.all_takeWhile d hd)
  have hsplit := List.takeWhile_append_dropWhile (p := (· = ' ')) (l := t)
  rw [hspaces] at hsplit
  cases hrest : t.dropWhile (· = ' ') with
  | nil =>
    rw [IsBare, hrest] at h
    rcases h with h | h <;> cases h
  | cons d u =>
    rw [IsBare, hrest] at h
    have hd : d = '`' ∨ d = '~' := h.imp Option.some.inj Option.some.inj
    have hgap : isGap d = false := by rcases hd with rfl | rfl <;> decide
    have hfeed : d ≠ '\n' := by rcases hd with rfl | rfl <;> decide
    rw [hrest] at hsplit
    refine ⟨_, d, u, hsplit.symm, hd, fun k => ?_⟩
    have hline := Line.ofCut_spaces k (t.takeWhile (· = ' ')).length (u := u) hgap hfeed
    rwa [hsplit] at hline

/-! ### Finding the place -/

/-- **The reach of a fence**: the lines of a text that it may take are plain, and all that stands
behind them lies beyond its end. -/
structure Fence.Reach (f : Fence) (near far : List Text) (beyond : List Line) : Prop where
  plain : ∀ l ∈ near, IsPlain l
  cut : Cut near
  fed : far ≠ [] → ∀ l ∈ near, IsFed l
  stop : far ≠ [] → f.stop ≤ near.length
  number : ∀ l ∈ beyond, f.stop ≤ l.number
  nothing : far = [] → beyond = []

theorem Fence.reach {t : Text} (h : ∀ l ∈ (Text.lines t).take f.stop.toNat, IsPlain l) :
    f.Reach ((Text.lines t).take f.stop.toNat) ((Text.lines t).drop f.stop.toNat)
      (linesFrom ((Text.lines t).take f.stop.toNat).length
        ((Text.lines t).drop f.stop.toNat).flatten) := by
  obtain ⟨hcut, hfed⟩ := cut_take h
  have hstop : (Text.lines t).drop f.stop.toNat ≠ [] →
      f.stop ≤ ((Text.lines t).take f.stop.toNat).length := by
    intro hne
    have hlt : f.stop.toNat < (Text.lines t).length :=
      Nat.lt_of_not_le fun hle => hne (List.drop_eq_nil_of_le hle)
    rw [List.length_take_of_le (Nat.le_of_lt hlt)]
    omega
  have hnothing : (Text.lines t).drop f.stop.toNat = [] →
      linesFrom ((Text.lines t).take f.stop.toNat).length
        ((Text.lines t).drop f.stop.toNat).flatten = [] := by
    intro hnil
    rw [hnil, List.flatten_nil, linesFrom_nil]
  refine ⟨h, hcut, hfed, hstop, fun l hl => ?_, hnothing⟩
  have hne : (Text.lines t).drop f.stop.toNat ≠ [] := by
    intro hnil
    rw [hnothing hnil] at hl
    exact absurd hl List.not_mem_nil
  exact Int.le_trans (hstop hne) (Int.ofNat_le.2 (mem_linesFrom hl).1)

namespace Fence.Reach

variable {near far before rest : List Text} {front back beyond : List Line} {indent : Nat}
  {mark : Text}

/-- The opening line of a fence is within its reach. -/
private theorem exists_opening (h : f.Reach near far beyond)
    (hlines : numbered 0 near ++ beyond = front ++ l :: back)
    (hlt : (l.number : Int) < f.stop) :
    ∃ before opening rest, near = before ++ opening :: rest ∧ l = .ofCut before.length opening ∧
      back = numbered (before.length + 1) rest ++ beyond := by
  have hnear : l ∉ beyond := by
    intro hl
    have := h.number l hl
    omega
  obtain ⟨inner, hinner, rfl⟩ : ∃ inner, numbered 0 near = front ++ l :: inner ∧
      back = inner ++ beyond := by
    rcases List.append_eq_append_iff.1 hlines with ⟨u, -, hback⟩ | ⟨u, hinner, hback⟩
    · exact absurd (hback ▸ List.mem_append_right u List.mem_cons_self) hnear
    · cases u with
      | nil =>
        rw [List.nil_append] at hback
        exact absurd (hback ▸ List.mem_cons_self) hnear
      | cons k u =>
        obtain ⟨rfl, rfl⟩ := List.cons.inj hback
        exact ⟨u, hinner, rfl⟩
  obtain ⟨before, rest, rfl, -, -, hback, -⟩ := numbered_eq_append h.cut hinner
  rw [Nat.zero_add] at hback
  obtain ⟨opening, rest, rfl, rfl, rfl, -⟩ := numbered_eq_cons (Cut.of_append h.cut).1 hback.symm
  exact ⟨before, opening, rest, rfl, rfl, rfl⟩

/-- A fence that is read off the lines ends within its reach. -/
private theorem read_le_reach {opening : Text} (h : f.Reach (before ++ opening :: rest) far beyond)
    (hread : f = (m.read c (.ofCut before.length opening)
      (numbered (before.length + 1) rest ++ beyond)).1) :
    (m.read c (.ofCut before.length opening) (numbered (before.length + 1) rest ++ beyond)).2 ≤
      (numbered (before.length + 1) rest).length := by
  by_cases hfar : far = []
  · rw [h.nothing hfar, List.append_nil]
    exact m.read_le c _ _
  · have hrest : ∀ l ∈ rest, IsFed l := fun l hl =>
      h.fed hfar l (List.mem_append_right before (List.mem_cons_of_mem opening hl))
    have hstop := h.stop hfar
    rw [hread, m.stop_read, Line.number_ofCut, List.length_append, List.length_cons] at hstop
    rw [length_numbered _ hrest]
    omega

/-- The place of a fence that is read off the lines. -/
private theorem exists_place
    (h : f.Reach (before ++ (List.replicate indent ' ' ++ mark) :: rest) far beyond)
    (hhead : mark.head? = some '`' ∨ mark.head? = some '~')
    (hindent : (Line.ofCut before.length (List.replicate indent ' ' ++ mark)).indent = indent)
    (hm : FenceMark.ofLine? c (.ofCut before.length (List.replicate indent ' ' ++ mark)) = some m)
    (hread : f = (m.read c (.ofCut before.length (List.replicate indent ' ' ++ mark))
      (numbered (before.length + 1) rest ++ beyond)).1) :
    ∃ content behind, f.Place ((before ++ (List.replicate indent ' ' ++ mark) :: rest) ++ far)
      before indent mark content behind := by
  have hmark := FenceMark.of_ofLine? hm
  obtain ⟨hmarker, hlength, -⟩ := FenceMark.of_ofText? hmark
  have hrest := (Cut.of_cons (Cut.of_append h.cut).1).1
  obtain ⟨content, behind, closed, rfl, hungapped, hne, hclosing, hlines⟩ :=
    FenceMark.read_numbered hrest m c _ (h.read_le_reach hread)
  rw [hlines] at hread
  have hassoc : before ++ (List.replicate indent ' ' ++ mark) :: (content ++ behind) =
      (before ++ (List.replicate indent ' ' ++ mark) :: content) ++ behind := by
    rw [List.append_assoc, List.cons_append]
  have hcut := h.cut
  rw [hassoc] at hcut
  refine ⟨content, behind ++ far, ?lines, hhead, ?opens, ?first, ?text, hungapped, ?stop, ?plain,
    Cut.of_append_left hcut, ?fed⟩
  case lines => rw [List.append_assoc, List.cons_append, List.append_assoc]
  case opens =>
    rw [hmark]
    rfl
  case first => rw [hread, Line.number_ofCut]
  case text =>
    rw [hread, hindent]
    rfl
  case stop =>
    rw [hread]
    dsimp only
    rw [Line.number_ofCut]
    cases closed with
    | false => exact .inl rfl
    | true =>
      -- the line that closes the fence is the first one behind its content
      right
      obtain ⟨closing, rest, rfl, hfence⟩ :=
        exists_closing hmarker hlength (Cut.of_append hrest).1 (hne rfl) hclosing
      refine ⟨?_, closing, rest ++ far, rfl, hfence⟩
      rw [if_pos rfl, Int.natCast_add, ← Int.add_assoc]
      rfl
  case plain => exact fun l hl => h.plain l (hassoc ▸ List.mem_append_left behind hl)
  case fed =>
    -- whether lines stand behind the content within the reach or beyond it, its lines are ended
    intro hbehind l hl
    by_cases hfar : far = []
    · rw [hfar, List.append_nil] at hbehind
      exact (Cut.of_append hcut).2 hbehind l hl
    · exact h.fed hfar l (hassoc ▸ List.mem_append_left behind hl)

end Fence.Reach

/-- **A fence with a bare opening line has its place** among the lines of text, if they are plain up
to its end. -/
theorem Fence.exists_place {t : Text} (hplain : ∀ l ∈ (Text.lines t).take f.stop.toNat, IsPlain l)
    (horigin : Origin (lines t) f) (hbare : IsBare ((Text.lines t).getD f.first.toNat [])) :
    ∃ before indent mark content behind,
      f.Place (Text.lines t) before indent mark content behind := by
  have hreach := Fence.reach hplain
  rw [lines_take hplain] at horigin
  rw [← List.take_append_drop f.stop.toNat (Text.lines t)] at hbare ⊢
  generalize linesFrom _ ((Text.lines t).drop f.stop.toNat).flatten = beyond at *
  generalize (Text.lines t).take f.stop.toNat = near at *
  generalize (Text.lines t).drop f.stop.toNat = far at *
  rcases horigin with ⟨c, m, front, l, back, hlines, -, hm, hf⟩ | ⟨l, hl, hopens, hfirst, hspan⟩
  -- the fence is read off its opening line, which is within the reach
  · have hnumber : f.first = l.number := hf ▸ rfl
    have hspan := hf ▸ m.first_lt_stop c l back
    obtain ⟨before, opening, rest, rfl, rfl, rfl⟩ := hreach.exists_opening hlines (hnumber ▸ hspan)
    have hopening : ((before ++ opening :: rest) ++ far).getD before.length [] = opening := by
      rw [List.append_assoc]
      exact Replace.getD_before before opening (rest ++ far)
    rw [hnumber, Line.number_ofCut, Int.toNat_natCast, hopening] at hbare
    obtain ⟨indent, d, u, rfl, hd, hline⟩ := hbare.exists_spaces
    have hhead := hd.imp (congrArg some) (congrArg some)
    obtain ⟨content, behind, hplace⟩ := hreach.exists_place hhead (hline before.length).1 hm hf
    exact ⟨before, indent, d :: u, content, behind, hplace⟩
  -- a bare line opens no container
  · rcases List.mem_append.1 hl with hl | hl
    · obtain ⟨i, line, hi, -, rfl⟩ := mem_numbered hl
      rw [Nat.zero_add] at hopens hfirst
      rw [hfirst, Line.number_ofCut, Int.toNat_natCast, List.getD_eq_getElem?_getD,
        List.getElem?_append_left (List.getElem?_eq_some_iff.1 hi).1, hi, Option.getD_some] at hbare
      obtain ⟨indent, d, u, rfl, hd, hline⟩ := hbare.exists_spaces
      obtain ⟨-, v, hbody, -⟩ := hline i
      refine absurd hopens (not_opensContainer ?_)
      rw [hbody]
      exact hd.imp (congrArg some) (congrArg some)
    · -- beyond the end of the fence no line is its opening line
      have := hreach.number l hl
      omega

namespace Fence.Place

variable {before content : List Text} {indent : Nat} {mark : Text}

theorem exists_mark (h : f.Place ls before indent mark content behind) :
    ∃ e u, mark = e :: u ∧ (e = '`' ∨ e = '~') := by
  cases mark with
  | nil => rcases h.mark_head with hmark | hmark <;> cases hmark
  | cons e u => exact ⟨e, u, rfl, h.mark_head.imp Option.some.inj Option.some.inj⟩

theorem mark_ne_space (h : f.Place ls before indent mark content behind) :
    mark.head? ≠ some ' ' := by
  rcases h.mark_head with hmark | hmark <;> rw [hmark] <;> decide

theorem ungapped_opening (h : f.Place ls before indent mark content behind) :
    (List.replicate indent ' ' ++ mark).all isGap = false := by
  obtain ⟨e, u, rfl, he⟩ := h.exists_mark
  rw [List.all_append, List.all_cons, Bool.and_eq_false_iff]
  right
  rcases he with rfl | rfl <;> rfl

/-- The opening line is as wide as its spaces are many. -/
theorem indent_opening (h : f.Place ls before indent mark content behind) (k : Nat) :
    (Line.ofCut k (List.replicate indent ' ' ++ mark)).indent = indent := by
  obtain ⟨e, u, rfl, he⟩ := h.exists_mark
  refine (Line.ofCut_spaces k indent ?_ ?_).1
  · rcases he with rfl | rfl <;> decide
  · rcases he with rfl | rfl <;> decide

theorem cut_content (h : f.Place ls before indent mark content behind) : Cut content :=
  (Cut.of_cons (Cut.of_append h.cut).1).1

/-- The lines of a fence's text are the lines of its content, less the indentation. -/
theorem lines_text (h : f.Place ls before indent mark content behind) :
    Text.lines f.content = content.map (outdentText indent) := by
  rw [h.text, (cut_outdentText indent h.cut_content h.ungapped).lines_flatten]

theorem length_lines_text (h : f.Place ls before indent mark content behind) :
    (Text.lines f.content).length = content.length := by
  rw [h.lines_text, List.length_map]

/-- The span of a fence lies among the lines. -/
theorem stop_le (h : f.Place ls before indent mark content behind) :
    ∃ stop : Nat, f.stop = stop ∧ before.length < stop ∧ stop ≤ ls.length := by
  rw [h.lines, List.length_append, List.length_cons, List.length_append]
  rcases h.stop with hstop | ⟨hstop, closing, rest, rfl, -⟩
  · exact ⟨before.length + 1 + content.length, by omega, by omega, by omega⟩
  · exact ⟨before.length + 1 + content.length + 1, by omega, by omega, by
      rw [List.length_cons]
      omega⟩

end Fence.Place

/-! ### Blocks -/

namespace Document

/-- The opening line of a block. -/
def openingOf (d : Document) (b : Block) : Text := (Text.lines d.body).getD b.first.toNat []

/-- The last line of a block. -/
def lastOf (d : Document) (b : Block) : Text := (Text.lines d.body).getD (b.stop.toNat - 1) []

/-- The indentation of a block: how many spaces lead its opening line. -/
def indentOf (d : Document) (b : Block) : Nat := ((d.openingOf b).takeWhile (· = ' ')).length

/-- The lines of the document that hold the text of a block. -/
def contentOf (d : Document) (b : Block) : List Text :=
  ((Text.lines d.body).drop (b.first.toNat + 1)).take (Text.lines b.text).length

/-- **Markdown and write-back agree on a block**: they cut the body into the same lines up to the
end of the block, no container starts at the opening line, and a last line that looks like a closing
fence is one, so that it is not among the lines of the block's text. -/
structure Agrees (d : Document) (b : Block) : Prop where
  plain : ∀ l ∈ (Text.lines d.body).take b.stop.toNat, IsPlain l
  bare : IsBare (d.openingOf b)
  closing : Replace.isClosingFence (d.lastOf b) = true → b.first + 1 < b.stop →
    b.stop = b.first + 1 + (Text.lines b.text).length + 1

variable {d : Document} {raw name : Text} {path : Path} {bs : Noted (List Block)} {b : Block}

theorem of_parse_eq_ok (h : Document.parse raw path name = .ok d) :
    ∃ dialect front, Dialect.ofName? name = some dialect ∧ raw = front ++ d.body ∧ d.raw = raw ∧
      d.path = path ∧ splitFrontmatter raw = .ok (d.frontmatter, d.body) ∧
      d.fences = Markdown.fences dialect d.body := by
  unfold Document.parse at h
  split at h
  · cases h
  · next frontmatter body hsplit =>
    split at h
    · cases h
    · next dialect hname =>
      cases h
      obtain ⟨front, hfront⟩ := body_suffix hsplit
      exact ⟨dialect, front, hname, hfront.symm, rfl, rfl, hsplit, rfl⟩

theorem of_blocks_eq_ok (h : d.blocks = .ok bs) :
    ∃ defaults, d.frontmatter.headerArgs = .ok defaults ∧
      bs.value = d.fences.map fun f => (f.toBlock d.path defaults).value := by
  unfold Document.blocks at h
  split at h
  · cases h
  · next defaults hdefaults =>
    cases h
    exact ⟨defaults, hdefaults, blocksOfFences_value _ _ _⟩

/-- The fence of a block has an origin among the lines of the body. -/
theorem origin_of_mem (hparse : Document.parse raw path name = .ok d) (hf : f ∈ d.fences) :
    Origin (lines d.body) f := by
  obtain ⟨dialect, -, -, -, -, -, -, hfences⟩ := of_parse_eq_ok hparse
  rw [hfences, Markdown.fences] at hf
  split at hf
  · exact origin_fencesWithin _ _ _ f hf
  · exact absurd hf List.not_mem_nil

theorem openingOf_eq {before content behind : List Text} {n : Nat} {mark : Text}
    (hplace : f.Place (Text.lines d.body) before n mark content behind)
    (hfirst : b.first = f.first) :
    d.openingOf b = List.replicate n ' ' ++ mark := by
  rw [openingOf, hfirst, hplace.first, Int.toNat_natCast, hplace.lines, Replace.getD_before]

/-- **The place of a block** on which Markdown and write-back agree. -/
theorem Agrees.exists_place (hparse : Document.parse raw path name = .ok d) (hf : f ∈ d.fences)
    (hfirst : b.first = f.first) (hstop : b.stop = f.stop) (htext : b.text = f.content)
    (h : d.Agrees b) :
    ∃ before mark behind,
      f.Place (Text.lines d.body) before (d.indentOf b) mark (d.contentOf b) behind ∧
      Replace.closingAt (Text.lines d.body) before.length b.stop.toNat =
        before.length + 1 + (d.contentOf b).length := by
  have hplain := h.plain
  have hbare := h.bare
  rw [hstop] at hplain
  rw [openingOf, hfirst] at hbare
  obtain ⟨before, indent, mark, content, behind, hplace⟩ :=
    Fence.exists_place hplain (origin_of_mem hparse hf) hbare
  have hopening := openingOf_eq hplace hfirst
  have hindent : d.indentOf b = indent := by
    rw [indentOf, hopening, Replace.takeWhile_spaces _ hplace.mark_ne_space, List.length_replicate]
  have hlength := hplace.length_lines_text
  have hcontent : d.contentOf b = content := by
    rw [contentOf, htext, hfirst, hplace.first, Int.toNat_natCast, hlength, hplace.lines,
      ← List.drop_drop, List.drop_left, List.drop_succ_cons, List.drop_zero, List.take_left]
  refine ⟨before, mark, behind, hindent ▸ hcontent ▸ hplace, ?_⟩
  rw [hcontent, hstop]
  rcases hplace.stop with hend | ⟨hend, closing, rest, hbehind, hclosing⟩
  -- an open fence: what looks like a closing fence would have to be one
  · have htoNat : f.stop.toNat = before.length + 1 + content.length := by omega
    rw [htoNat]
    refine Replace.closingAt_open fun hlt => Bool.eq_false_iff.2 fun hlast => ?_
    have hclosed := h.closing (by rwa [lastOf, hstop, htoNat])
      (by rw [hfirst, hstop, hplace.first, hend]; omega)
    rw [hstop, hfirst, hend, hplace.first, htext, hlength] at hclosed
    omega
  -- a closed fence: its last line looks like what it is
  · have htoNat : f.stop.toNat = before.length + content.length + 2 := by omega
    rw [htoNat, hplace.lines, hbehind]
    exact Replace.closingAt_closed hclosing before _ content rest

/-- **What is written** to a block: the new lines stand in the place of its content. -/
theorem replaceBlock_eq_ok {before content behind : List Text} {front mark : Text} {n : Nat}
    (hraw : d.raw = front ++ d.body) (hfirst : b.first = f.first) (hstop : b.stop = f.stop)
    (hplace : f.Place (Text.lines d.body) before n mark content behind)
    (hclosing : Replace.closingAt (Text.lines d.body) before.length b.stop.toNat =
      before.length + 1 + content.length) (new : Text) :
    d.replaceBlock b new = .ok (front ++
      (before ++ Replace.openingLine (List.replicate n ' ' ++ mark) new ::
        (Replace.newLines (List.replicate n ' ' ++ mark) new ++ behind)).flatten) := by
  obtain ⟨stop, hnat, hlt, hle⟩ := hplace.stop_le
  rw [hstop, hnat, Int.toNat_natCast] at hclosing
  rw [replaceBlock, hraw, hfirst, hstop, hplace.first, hnat,
    replaceLines_eq_ok front d.body b.identity hlt hle]
  rw [hplace.lines] at hclosing ⊢
  rw [Replace.spliceLines_append hclosing]

end Document

end LiterateEdit
