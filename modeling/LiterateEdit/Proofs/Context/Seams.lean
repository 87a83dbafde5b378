import LiterateEdit.Proofs.Context.Row
import LiterateEdit.Proofs.Context.Strip
import LiterateEdit.Proofs.Script.Run

/-!
# What protection alone keeps out of the context

Without narrowing, only the protected spans keep edits out of the context. They do so where they
cover it, but a span is open at both ends: text may be inserted right before it, and right behind it
because it is rear-nonsticky. At the edges of the region that is wanted, and the markers take such
text into the region. Elsewhere it stays outside: before the first block of the context, between two
blocks of one side, and behind the last one. Those are the **outer seams**; what is typed there is
taken away with the context.

That is all that can happen, and `Desk.Guarded` says so. On each side the segments of the context
stand intact and in order, with foreign text at outer seams only; an edit that is not refused
changes at most one of the two sides and the region, and it is the region if all positions lie
there.

The invariant `Buffer.Guards` follows the spans of the context through all edits. They are a row
(`Row`), every accepted edit stays away from each of them, and the markers of the region move with
the ends of the spans that they touch.
-/

namespace LiterateEdit

namespace Buffer

/-- **The invariant.** The spans `cb` cover the segments before the region and end where it starts,
the spans `ca` cover those behind it and start where it ends; all of them are context. -/
structure Guards (p : Partition) (cb ca : List Span) (lo hi : Int) (b : Buffer) : Prop where
  locked : b.unlocked = false
  view : b.view = none
  marks : b.Marks lo hi
  spans : (cb ++ ca).Sublist b.spans
  props : ∀ s ∈ cb ++ ca, s.props = contextProps
  row : Row b.text (cb ++ ca)
  before : cb.map b.text.under = p.segmentsBefore
  behind : ca.map b.text.under = p.segmentsAfter
  lo_eq : lo = rowEnd 0 cb
  hi_eq : hi = rowStart b.size ca
  le : lo ≤ hi

namespace Guards

variable {p : Partition} {cb ca : List Span} {lo hi i j : Int} {b : Buffer} {t : Text} {s : Span}

theorem row_before (h : b.Guards p cb ca lo hi) : Row b.text cb :=
  ⟨fun s hs => h.row.inside s (List.mem_append_left ca hs),
    (List.pairwise_append.1 h.row.ordered).1⟩

theorem row_behind (h : b.Guards p cb ca lo hi) : Row b.text ca :=
  ⟨fun s hs => h.row.inside s (List.mem_append_right cb hs),
    (List.pairwise_append.1 h.row.ordered).2.1⟩

theorem bounds (h : b.Guards p cb ca lo hi) : 0 ≤ lo ∧ lo ≤ hi ∧ hi ≤ b.size := by
  refine ⟨?_, h.le, ?_⟩
  · rw [h.lo_eq]
    cases hcb : cb with
    | nil => exact Int.le_refl 0
    | cons s rest =>
      have hmem : s ∈ cb := hcb ▸ List.mem_cons_self
      have hle := h.row_before.stop_le_rowEnd (i := 0) hmem
      have hin := h.row_before.inside s hmem
      rw [hcb] at hle
      omega
  · rw [h.hi_eq]
    cases hca : ca with
    | nil => exact Int.le_refl _
    | cons s rest =>
      have hin := h.row_behind.inside s (hca ▸ List.mem_cons_self)
      change s.start ≤ b.text.length
      omega

/-- An accepted edit stays away from the spans of the context, unless it does nothing at all. -/
theorem away (h : b.Guards p cb ca lo hi) (hdel : i ≠ j → b.MayDelete i j)
    (hins : t ≠ [] → (b.cut i j).MayInsert i) (hsome : i ≠ j ∨ t ≠ []) :
    ∀ s ∈ cb ++ ca, s.stop ≤ i ∨ j ≤ s.start := by
  intro s hs
  have hread : s.props.readOnly = true := by rw [h.props s hs, contextProps]
  exact away_of_may h.locked hdel hins hsome (h.spans.mem hs) hread

/-- **Where an edit away from the context lies**: in the region, or wholly before its start, or
wholly behind its end. -/
theorem cases_away (h : b.Guards p cb ca lo hi) (haway : ∀ s ∈ cb ++ ca, s.stop ≤ i ∨ j ≤ s.start)
    (h₀ : 0 ≤ i) (hj : j ≤ b.size) : (lo ≤ i ∧ j ≤ hi) ∨ j < lo ∨ hi < i := by
  -- the last span before the region ends at its start, and the edit is on one side of it
  have hfirst : lo ≤ i ∨ j < lo := by
    rcases rowEnd_map (id : Span → Span) 0 cb with rfl | ⟨s, hs, hend, -⟩
    · rw [h.lo_eq]
      exact .inl h₀
    · have hin := h.row_before.inside s hs
      have hside := haway s (List.mem_append_left ca hs)
      rw [h.lo_eq, hend]
      omega
  -- the first span behind the region starts at its end
  have hlast : j ≤ hi ∨ hi < i := by
    rw [h.hi_eq]
    cases hca : ca with
    | nil => exact .inl hj
    | cons s rest =>
      have hs : s ∈ ca := hca ▸ List.mem_cons_self
      have hin := h.row_behind.inside s hs
      have hside := haway s (List.mem_append_right cb hs)
      rw [rowStart]
      omega
  omega

/-- The start of the region moves with the last span before it. -/
theorem lo_put (h : b.Guards p cb ca lo hi) (haway : ∀ s ∈ cb ++ ca, s.stop ≤ i ∨ j ≤ s.start)
    (h₀ : 0 ≤ i) (hij : i ≤ j) :
    afterPut i j t.length false lo = rowEnd 0 (cb.map (Span.put i j t.length)) := by
  rcases rowEnd_map (Span.put i j t.length) 0 cb with rfl | ⟨s, hs, hend, hmap⟩
  · rw [h.lo_eq]
    exact afterPut_of_le h₀ hij
  · obtain ⟨-, hlt, -⟩ := h.row_before.inside s hs
    rw [hmap, h.lo_eq, hend]
    rcases Span.put_away hlt (haway s (List.mem_append_left ca hs)) hij with
      ⟨hle, hput⟩ | ⟨hle, hput⟩
    · rw [hput, afterPut_of_le hle hij]
    · rw [hput, afterPut_of_gt (by omega), Span.shift]
      simp only
      omega

/-- The end of the region moves with the first span behind it. -/
theorem hi_put (h : b.Guards p cb ca lo hi) (haway : ∀ s ∈ cb ++ ca, s.stop ≤ i ∨ j ≤ s.start)
    (h₀ : 0 ≤ i) (hij : i ≤ j) (hj : j ≤ b.size) :
    afterPut i j t.length true hi
      = rowStart (b.put i j t).size (ca.map (Span.put i j t.length)) := by
  have hhi := h.hi_eq
  cases ca with
  | nil =>
    rw [hhi]
    exact (afterPut_of_ge hj).trans (put_size h₀ hij hj).symm
  | cons s rest =>
    obtain ⟨-, hlt, -⟩ := h.row_behind.inside s List.mem_cons_self
    rw [hhi, List.map_cons, rowStart, rowStart]
    rcases Span.put_away hlt (haway s (List.mem_append_right cb List.mem_cons_self)) hij with
      ⟨hle, hput⟩ | ⟨hle, hput⟩
    · rw [hput, afterPut_of_lt (by omega) hij]
    · rw [hput, afterPut_of_ge hle, Span.shift]
      simp only
      omega

/-- **The step of the invariant**: an edit away from the context keeps it. -/
theorem put (h : b.Guards p cb ca lo hi) (haway : ∀ s ∈ cb ++ ca, s.stop ≤ i ∨ j ≤ s.start)
    (h₀ : 0 ≤ i) (hij : i ≤ j) (hj : j ≤ b.size) :
    (b.put i j t).Guards p (cb.map (Span.put i j t.length)) (ca.map (Span.put i j t.length))
      (afterPut i j t.length false lo) (afterPut i j t.length true hi) := by
  have htext := put_text (t := t) hij hj
  constructor
  case locked => exact put_unlocked.trans h.locked
  case view => rw [put_view, h.view, Option.map_none]
  case marks => exact h.marks.put
  case spans =>
    rw [← List.map_append]
    exact put_spans_sublist h.spans hij (fun s hs => (h.row.inside s hs).2.1) haway
  case props =>
    intro s' hs'
    rw [← List.map_append] at hs'
    obtain ⟨s, hs, rfl⟩ := List.mem_map.1 hs'
    exact Span.put_props.trans (h.props s hs)
  case row =>
    rw [← List.map_append, htext]
    exact h.row.edit haway h₀ hij hj
  case before =>
    rw [htext, ← h.before]
    exact h.row_before.texts_edit (fun s hs => haway s (List.mem_append_left ca hs)) h₀ hij hj
  case behind =>
    rw [htext, ← h.behind]
    exact h.row_behind.texts_edit (fun s hs => haway s (List.mem_append_right cb hs)) h₀ hij hj
  case lo_eq => exact h.lo_put haway h₀ hij
  case hi_eq => exact h.hi_put haway h₀ hij hj
  case le => exact afterPut_mono h.le hij (Int.natCast_nonneg _)

/-- **What an edit away from the context changes**: the region, or one of its sides. -/
theorem put_slices (h : b.Guards p cb ca lo hi)
    (haway : ∀ s ∈ cb ++ ca, s.stop ≤ i ∨ j ≤ s.start) (h₀ : 0 ≤ i) (hij : i ≤ j) (hj : j ≤ b.size)
    {lo' hi' : Int} (hlo : afterPut i j t.length false lo = lo')
    (hhi : afterPut i j t.length true hi = hi') :
    ((b.put i j t).slice 0 lo' = b.slice 0 lo ∧
        (b.put i j t).slice hi' (b.put i j t).size = b.slice hi b.size) ∨
      ((b.put i j t).slice lo' hi' = b.slice lo hi ∧
        (b.put i j t).slice hi' (b.put i j t).size = b.slice hi b.size ∧ j < lo) ∨
      ((b.put i j t).slice 0 lo' = b.slice 0 lo ∧
        (b.put i j t).slice lo' hi' = b.slice lo hi ∧ hi < i) := by
  obtain ⟨hlo₀, hle, hsize⟩ := h.bounds
  subst hlo hhi
  have hall := put_size (t := t) h₀ hij hj
  -- a slice before the edit is read at the same place, one behind it further on
  have hleft : ∀ x y, 0 ≤ x → x ≤ y → y ≤ i → (b.put i j t).slice x y = b.slice x y :=
    fun x y hx hxy hy => slice_put_before hx hxy hy hij hj
  have hright : ∀ x y, j ≤ x → x ≤ y → y ≤ b.size →
      (b.put i j t).slice (x - (j - i) + t.length) (y - (j - i) + t.length) = b.slice x y :=
    fun x y => slice_put_behind h₀ hij
  rw [hall]
  rcases h.cases_away haway h₀ hj with ⟨hi₁, hj₁⟩ | hj₁ | hi₁
  · -- in the region: its start stays, and its end moves with what is behind it
    refine .inl ⟨?_, ?_⟩
    · rw [afterPut_of_le hi₁ hij]
      exact hleft 0 lo (Int.le_refl 0) hlo₀ hi₁
    · rw [afterPut_of_ge hj₁]
      exact hright hi b.size hj₁ hsize (Int.le_refl _)
  · -- before the region: all of it moves
    refine .inr (.inl ⟨?_, ?_, hj₁⟩)
    · rw [afterPut_of_gt hj₁, afterPut_of_gt (by omega)]
      exact hright lo hi (by omega) hle hsize
    · rw [afterPut_of_ge (by omega)]
      exact hright hi b.size (by omega) hsize (Int.le_refl _)
  · -- behind the region: nothing of it moves
    refine .inr (.inr ⟨?_, ?_, hi₁⟩)
    · rw [afterPut_of_lt (by omega) hij]
      exact hleft 0 lo (Int.le_refl 0) hlo₀ (by omega)
    · rw [afterPut_of_lt (by omega) hij, afterPut_of_lt hi₁ hij]
      exact hleft lo hi hlo₀ hle (by omega)

/-- New spans do not matter. -/
theorem addSpans (h : b.Guards p cb ca lo hi) (ss : List Span) :
    (b.addSpans ss).Guards p cb ca lo hi :=
  { h with
    marks := h.marks.congr fun _ _ => rfl
    spans := h.spans.trans (List.sublist_append_left b.spans ss) }

theorem region? (h : b.Guards p cb ca lo hi) :
    (Engine.spliced 0 1).region? b = some (lo, hi) := by
  obtain ⟨hlo, hle, hhi⟩ := h.bounds
  exact h.marks.region? hlo hle hhi

/-- The text before the region is woven from the segments and what stands before each. -/
theorem weave (h : b.Guards p cb ca lo hi) :
    ∃ gaps : List Text, gaps.length = p.before.length ∧
      b.slice 0 lo = (List.zipWith (· ++ ·) gaps p.segmentsBefore).flatten := by
  obtain ⟨gaps, hlen, hslice⟩ := h.row_before.weave (Int.le_refl 0)
    fun s hs => (h.row_before.inside s hs).1
  rw [h.before, ← h.lo_eq] at hslice
  refine ⟨gaps, ?_, hslice⟩
  rw [hlen, ← List.length_map b.text.under, h.before, Partition.segmentsBefore, List.length_map]

/-- The text behind the region is woven from the segments and what stands behind each. -/
theorem weave_behind (h : b.Guards p cb ca lo hi) :
    ∃ gaps : List Text, gaps.length = p.after.length ∧
      b.slice hi b.size = (List.zipWith (· ++ ·) p.segmentsAfter gaps).flatten := by
  obtain ⟨gaps, hlen, hslice⟩ := h.row_behind.weave_behind (Int.le_refl b.size)
    fun s hs => (h.row_behind.inside s hs).2.2
  rw [h.behind, ← h.hi_eq] at hslice
  refine ⟨gaps, ?_, hslice⟩
  rw [hlen, ← List.length_map b.text.under, h.behind, Partition.segmentsAfter, List.length_map]

/-- **Splicing sets up the invariant.** -/
theorem embed (p : Partition) (t : Text) :
    (p.embed false (ofText t)).Guards p (contextSpans 0 p.segmentsBefore)
      (contextSpans (p.textBefore.length + t.length) p.segmentsAfter)
      p.textBefore.length (p.textBefore.length + t.length) := by
  obtain ⟨hbefore, hbehind⟩ := p.embed_tiles false (ofText t)
  have hsize := p.embed_size false (ofText t)
  have hnonneg := size_nonneg (ofText t)
  have hrow := hbefore.row (Int.le_refl 0) (by change _ ≤ (p.embed false (ofText t)).size; omega)
  have hrow' := hbehind.row (Int.natCast_nonneg _) (Int.le_refl _)
  constructor
  case locked => rfl
  case view => rfl
  case marks => exact p.embed_marks false _
  case spans => exact List.Sublist.refl _
  case props =>
    intro s hs
    rcases List.mem_append.1 hs with hs | hs
    · exact hbefore.props s hs
    · exact hbehind.props s hs
  case row =>
    refine ⟨fun s hs => ?_, List.pairwise_append.2 ⟨hrow.ordered, hrow'.ordered, ?_⟩⟩
    · rcases List.mem_append.1 hs with hs | hs
      · exact hrow.inside s hs
      · exact hrow'.inside s hs
    · -- the tilings are on two sides of the region
      intro s hs s' hs'
      have hstop := (hbefore.bounds.2 s hs).2.2
      have hstart := (hbehind.bounds.2 s' hs').1
      omega
  case before => exact hbefore.texts
  case behind => exact hbehind.texts
  case lo_eq => exact hbefore.rowEnd.symm
  case hi_eq => exact hbehind.rowStart.symm
  case le => omega

end Guards

end Buffer

namespace Desk

variable {p : Partition} {d : Desk} {s : Step}

/-- The text before the region, the text in it, and the text behind it, if there is a region. -/
def parts (d : Desk) : Option (Text × Text × Text) :=
  (d.engine.region? d.buffer).map fun r =>
    (d.buffer.slice 0 r.1, d.buffer.slice r.1 r.2, d.buffer.slice r.2 d.buffer.size)

/-- The desk is spliced and its buffer guards the context. -/
structure Keeps (p : Partition) (d : Desk) : Prop where
  engine : d.engine = .spliced 0 1
  guards : ∃ cb ca lo hi, d.buffer.Guards p cb ca lo hi

/-- What an edit that is not refused may do to the parts: change what is in the region, or, if not
all its positions lie there, change one of the sides. -/
def Changes (d : Desk) (s : Step) (parts parts' : Text × Text × Text) : Prop :=
  (parts'.1 = parts.1 ∧ parts'.2.2 = parts.2.2) ∨
    ((parts'.1 = parts.1 ∨ parts'.2.2 = parts.2.2) ∧ parts'.2.1 = parts.2.1 ∧
      ∃ r ∈ s.refs, d.offset? r = none)

namespace Keeps

theorem region? (h : Keeps p d) : ∃ cb ca lo hi, d.buffer.Guards p cb ca lo hi ∧
    d.engine.region? d.buffer = some (lo, hi) := by
  obtain ⟨cb, ca, lo, hi, hg⟩ := h.guards
  exact ⟨cb, ca, lo, hi, hg, by rw [h.engine, hg.region?]⟩

/-- An accepted edit keeps the context if its buffer guards it; the parts are then read there. -/
theorem of_accepts {cb ca : List Span} {i j lo hi : Int} {t : Text} {ss : List Span}
    {v : StepResult} (h : Keeps p d) (ha : d.Accepts s i j t ss v)
    (hg : (d.buffer.put i j t).Guards p cb ca lo hi) :
    Keeps p (d.take s).desk ∧ (d.take s).desk.parts = some
      ((d.buffer.put i j t).slice 0 lo, (d.buffer.put i j t).slice lo hi,
        (d.buffer.put i j t).slice hi (d.buffer.put i j t).size) := by
  rw [ha.take_eq]
  refine ⟨⟨h.engine, cb, ca, lo, hi, hg.addSpans ss⟩, ?_⟩
  rw [parts, h.engine, (hg.addSpans ss).region?, Option.map_some]
  rfl

/-- **The step.** An edit is refused and leaves the desk as it was, or it keeps the context and
changes the region or one of its sides. -/
theorem take (h : Keeps p d) (hs : s.isEdit = true) :
    (∃ e, d.take s = ⟨.error e, d, []⟩) ∨
      (Keeps p (d.take s).desk ∧ ∃ parts parts', d.parts = some parts ∧
        (d.take s).desk.parts = some parts' ∧ d.Changes s parts parts') := by
  rcases d.take_edit hs with he | ⟨i, j, t, ss, v, ha⟩
  · exact .inl he
  right
  obtain ⟨cb, ca, lo, hi, hg, hregion⟩ := h.region?
  have hparts : d.parts = some (d.buffer.slice 0 lo, d.buffer.slice lo hi,
      d.buffer.slice hi d.buffer.size) := by rw [parts, hregion, Option.map_some]
  -- without a view an edit may be anywhere in the text
  have h₀ : 0 ≤ i := by
    have hlow := ha.low_le
    rwa [Buffer.low, hg.view] at hlow
  have hj : j ≤ d.buffer.size := by
    have hhigh := ha.le_high
    rwa [Buffer.high, hg.view] at hhigh
  by_cases hsome : i ≠ j ∨ t ≠ []
  · have haway := hg.away ha.mayDelete ha.mayInsert hsome
    obtain ⟨hkeeps, hparts'⟩ := h.of_accepts ha (hg.put haway h₀ ha.le hj)
    refine ⟨hkeeps, _, _, hparts, hparts', ?_⟩
    rcases hg.put_slices haway h₀ ha.le hj rfl rfl with ⟨hb, hw⟩ | ⟨hm, hw, hlt⟩ | ⟨hb, hm, hlt⟩
    · exact .inl ⟨hb, hw⟩
    · refine .inr ⟨.inr hw, hm, ha.exists_outside hregion fun hin => ?_⟩
      exact absurd hlt (Int.not_lt.2 (Int.le_trans hin.1 ha.le))
    · refine .inr ⟨.inl hb, hm, ha.exists_outside hregion fun hin => ?_⟩
      exact absurd hlt (Int.not_lt.2 (Int.le_trans ha.le hin.2))
  · -- nothing is taken out and nothing is put in
    obtain ⟨hij, ht⟩ := not_or.1 hsome
    obtain rfl : i = j := not_not.1 hij
    obtain rfl : t = [] := not_not.1 ht
    have hput : d.buffer.put i i [] = d.buffer := by rw [Buffer.put_nil, Buffer.cut_self]
    obtain ⟨hkeeps, hparts'⟩ := h.of_accepts ha (by rw [hput]; exact hg)
    refine ⟨hkeeps, _, _, hparts, hparts', .inl ?_⟩
    rw [hput]
    exact ⟨rfl, rfl⟩

theorem preserves (p : Partition) : Preserves (Keeps p) fun s => s.isEdit = true where
  take d s hs h := by
    rcases h.take hs with ⟨e, he⟩ | ⟨hkeeps, -⟩
    · rw [he]
      exact h
    · exact hkeeps
  unlocked _ _ hs := absurd hs Bool.false_ne_true
  atomic _ _ _ hs := absurd hs Bool.false_ne_true

end Keeps

/-- **What protection guarantees.** On each side of the region stand the segments of the context,
intact and in order: those before it with foreign text at most before each of them, those behind it
with foreign text at most behind each. Taking the context away leaves the region. An edit is
refused and leaves the desk as it was, or it changes the region, or, if not all its positions lie
there, one of the sides. -/
structure Guarded (p : Partition) (d : Desk) : Prop where
  parts : ∃ u m w, d.parts = some (u, m, w) ∧
    (∃ gaps : List Text, gaps.length = p.before.length ∧
      u = (List.zipWith (· ++ ·) gaps p.segmentsBefore).flatten) ∧
    (∃ gaps : List Text, gaps.length = p.after.length ∧
      w = (List.zipWith (· ++ ·) p.segmentsAfter gaps).flatten) ∧
    d.engine.editable d.buffer = m ∧ d.UnsplicesTo m
  edit : ∀ s : Step, s.isEdit = true →
    (∃ e, d.take s = ⟨.error e, d, []⟩) ∨
      ∃ parts parts', d.parts = some parts ∧ (d.take s).desk.parts = some parts' ∧
        d.Changes s parts parts'

theorem Keeps.guarded (h : Keeps p d) : Guarded p d := by
  obtain ⟨cb, ca, lo, hi, hg, hregion⟩ := h.region?
  constructor
  case parts =>
    refine ⟨_, _, _, by rw [Desk.parts, hregion, Option.map_some], hg.weave, hg.weave_behind, ?_,
      unsplicesTo hregion⟩
    exact Engine.editable_eq hregion
  case edit =>
    intro s hs
    exact (h.take hs).imp_right And.right

theorem spliced_keeps (hp : p.isEmpty = false) (t : Text) : Keeps p (spliced p t false) := by
  rw [spliced_eq hp]
  exact ⟨rfl, _, _, _, _, Buffer.Guards.embed p t⟩

/-- **Protection does not confine edits to the region**: text typed at the very start of the buffer
stands before the context. -/
theorem spliced_insert_outside :
    ¬ ∀ (p : Partition) (t : Text) (steps : List Step) (s : Step), p.isEmpty = false →
      (∀ s ∈ steps, s.isEdit = true) → s.isEdit = true →
      let d := ((spliced p t false).runAll false steps).1
      (∃ e, d.take s = ⟨.error e, d, []⟩) ∨
        ∃ m, (d.take s).desk.parts = some (p.textBefore, m, p.textAfter) := by
  intro hall
  rcases hall (.between (Text.lit "a=0") (Text.lit "b=0")) (Text.lit "x") []
    (.insert (.at 0) (Text.lit "!") none) rfl (fun s hs => absurd hs List.not_mem_nil) rfl with
    ⟨e, he⟩ | ⟨m, hm⟩
  · -- it is not refused
    have hok : true = false := congrArg (fun r => r.outcome.isOk) he
    cases hok
  · -- and the text before the region is not what was injected
    have hbefore : some (Text.lit "!a=0\n") = some (Text.lit "a=0\n") :=
      congrArg (Option.map Prod.fst) hm
    exact absurd hbefore (by decide)

/-- **What protection alone keeps out.** Splicing without narrowing lays the context around the
text, and from then on every state of a run of edits is guarded. -/
theorem unnarrowed_run_guarded (hp : p.isEmpty = false) (t : Text) (stops : Bool)
    {steps : List Step} (hs : ∀ s ∈ steps, s.isEdit = true) :
    (spliced p t false).parts = some (p.textBefore, t, p.textAfter) ∧
      Guarded p (spliced p t false) ∧
      Through (Guarded p) ((spliced p t false).runAll stops steps).1
        ((spliced p t false).runAll stops steps).2.1 := by
  have hstart := spliced_keeps hp t
  obtain ⟨hlast, hrecords⟩ :=
    (Keeps.preserves p).run_and_runAll.2 _ stops steps hs hstart
  refine ⟨?_, hstart.guarded, hlast.guarded, fun r hr => (hrecords r hr).guarded⟩
  obtain ⟨hbefore, hregion, hbehind⟩ := p.embed_slices false (.ofText t)
  have hparts : (Desk.mk (p.embed false (.ofText t)) (.spliced 0 1) []).parts = some (_, _, _) :=
    congrArg (Option.map _) (Buffer.Guards.embed p t).region?
  rw [spliced_eq hp, hparts]
  exact congrArg some (Prod.ext hbefore (Prod.ext hregion hbehind))

/-- Text is typed at both ends of the buffer and at the end of the region; one edit is refused. -/
theorem unnarrowed_run_guarded_ends :
    let p := Partition.between (Text.lit "a=0") (Text.lit "b=0")
    let steps : List Step := [.insert (.at 0) (Text.lit "!") none, .delete (.at 0) (.at 2),
      .insert .regionStop (Text.lit "y") none, .insert (.at 11) (Text.lit "?") none]
    let d := ((spliced p (Text.lit "x") false).runAll false steps).1
    (p.isEmpty = false ∧ ∀ s ∈ steps, s.isEdit = true) ∧
      d.buffer.text = Text.lit "!a=0\nxy\nb=0?" ∧ Guarded p d := by
  intro p steps d
  have hp : p.isEmpty = false := rfl
  have hs : ∀ s ∈ steps, s.isEdit = true := List.all_eq_true.1 rfl
  have htext : d.buffer.text = Text.lit "!a=0\nxy\nb=0?" := by decide +kernel
  obtain ⟨-, -, hlast, -⟩ := unnarrowed_run_guarded hp (Text.lit "x") false hs
  exact ⟨⟨hp, hs⟩, htext, hlast⟩

end Desk

end LiterateEdit
