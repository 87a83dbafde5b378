import LiterateEdit.Proofs.Context.Layout
import LiterateEdit.Proofs.Context.Strip
import LiterateEdit.Proofs.Script.Run
import Mathlib.Data.List.Forall2

/-!
# Editing in context refines editing alone

Whatever is done to a text inside its context could have been done to the text alone. The relation
between the two is exact: if `c` is the buffer of the text alone, the spliced buffer is
`Partition.embed p narrow c`, point, markers, spans and view included.

* `Partition.embed_put`: an edit of the embedded buffer, with its positions moved behind the context
  before, is the embedding of the edit. This is the simulation at the level of buffers; it rests on
  the first marker staying and the second one advancing, and on the spans of context lying outside
  the region, where the edit moves them as a whole.
* `Partition.embed_mayInsert`, `Partition.embed_mayDelete`: no span forbids an edit in the region,
  its edges included, because the spans before it are rear-nonsticky.
* `Desk.rebase?` reads a step in the region as the same step alone, with its positions counted from
  the start of the region. `Embeds.take` is the step of the simulation, `Embeds.runAll` the run.
-/

namespace LiterateEdit

/-! ### Buffers -/

/-- A buffer without spans and without a view, with the protection on. -/
structure Buffer.Plain (c : Buffer) : Prop where
  spans : c.spans = []
  view : c.view = none
  locked : c.unlocked = false

namespace Buffer.Plain

variable {c : Buffer} {x y : Int}

theorem ofText (t : Text) : (Buffer.ofText t).Plain := ⟨rfl, rfl, rfl⟩

theorem put (hc : c.Plain) (x y : Int) (t : Text) : (c.put x y t).Plain := by
  refine ⟨?_, ?_, put_unlocked.trans hc.locked⟩
  · have hnil : (c.cut x y).spans = [] := by
      unfold cut
      split
      · exact hc.spans
      · simp only [deleteText, hc.spans, List.map_nil, List.filter_nil]
    simp only [Buffer.put, insertText, hnil, List.map_nil]
  · rw [put_view, hc.view, Option.map_none]

theorem low (hc : c.Plain) : c.low = 0 := by rw [Buffer.low, hc.view]

theorem high (hc : c.Plain) : c.high = c.size := by rw [Buffer.high, hc.view]

theorem mayInsert (hc : c.Plain) (x : Int) : c.MayInsert x := by
  refine .inr fun s hs => ?_
  rw [hc.spans] at hs
  cases hs

theorem mayDelete (hc : c.Plain) (x y : Int) : c.MayDelete x y := by
  refine .inr fun s hs => ?_
  rw [hc.spans] at hs
  cases hs

end Buffer.Plain

theorem afterDelete_add (k i j p : Int) :
    afterDelete (k + i) (k + j) (k + p) = k + afterDelete i j p := by
  unfold afterDelete
  split <;> split <;> omega

namespace Partition

open Buffer

variable {p : Partition} {narrow : Bool} {c : Buffer} {x y : Int} {t : Text}

/-- The view of the embedded buffer, or all of it, holds the region. -/
theorem embed_low_le (p : Partition) (narrow : Bool) (c : Buffer) :
    (p.embed narrow c).low ≤ p.textBefore.length := by
  cases narrow with
  | false => exact Int.natCast_nonneg _
  | true => exact Int.le_refl _

theorem le_embed_high (p : Partition) (narrow : Bool) (c : Buffer) :
    p.textBefore.length + c.size ≤ (p.embed narrow c).high := by
  cases narrow with
  | false =>
    have h : (p.embed false c).high = (p.embed false c).size := rfl
    rw [h, embed_size]
    omega
  | true => exact Int.le_refl _

/-- The spans of an embedded buffer lie before or behind the region. -/
theorem mem_embed_spans {s : Span} (hs : s ∈ (p.embed narrow c).spans) :
    s.props = contextProps ∧ 0 ≤ s.start ∧ s.start < s.stop ∧ s.stop ≤ (p.embed narrow c).size ∧
      (s.stop ≤ p.textBefore.length ∨ p.textBefore.length + c.size ≤ s.start) := by
  have hc := size_nonneg c
  rw [embed_size]
  rcases List.mem_append.1 hs with hs | hs
  · obtain ⟨h₀, hlt, hstop, hprops⟩ := mem_contextSpans p.segmentsBefore_ne_nil hs
    have h : s.stop ≤ p.textBefore.length := by rwa [Int.zero_add] at hstop
    exact ⟨hprops, h₀, hlt, by omega, .inl h⟩
  · obtain ⟨h₀, hlt, hstop, hprops⟩ := mem_contextSpans p.segmentsAfter_ne_nil hs
    exact ⟨hprops, by omega, hlt, hstop, .inr h₀⟩

/-- Nothing forbids to insert in the region or at its edges. -/
theorem embed_mayInsert (hx : 0 ≤ x) (hxc : x ≤ c.size) :
    (p.embed narrow c).MayInsert (p.textBefore.length + x) := by
  refine .inr fun s hs => ?_
  obtain ⟨hprops, -, hlt, -, hside⟩ := mem_embed_spans hs
  rw [forbidsInsert_context hprops]
  omega

/-- Nothing forbids to delete in the region. -/
theorem embed_mayDelete (hx : 0 ≤ x) (hy : y ≤ c.size) :
    (p.embed narrow c).MayDelete (p.textBefore.length + x) (p.textBefore.length + y) := by
  refine .inr fun s hs => ?_
  obtain ⟨hprops, -, -, -, hside⟩ := mem_embed_spans hs
  rw [forbidsDelete_context hprops]
  omega

/-- **An edit of the embedded buffer** is the embedding of the edit. -/
theorem embed_put (hx : 0 ≤ x) (hxy : x ≤ y) (hy : y ≤ c.size) :
    (p.embed narrow c).put (p.textBefore.length + x) (p.textBefore.length + y) t
      = p.embed narrow (c.put x y t) := by
  have hsize := put_size (t := t) hx hxy hy
  have hlen : (p.embed narrow c).size = p.textBefore.length + c.size + p.textAfter.length :=
    embed_size p narrow c
  have hle : (p.textBefore.length : Int) + x ≤ p.textBefore.length + y := by omega
  -- the first marker stays, the second one stays at the end of the text
  have hstart : afterPut (p.textBefore.length + x) (p.textBefore.length + y) t.length false
      p.textBefore.length = p.textBefore.length := afterPut_of_le (by omega) hle
  have hstop : afterPut (p.textBefore.length + x) (p.textBefore.length + y) t.length true
      (p.textBefore.length + c.size) = p.textBefore.length + (c.put x y t).size := by
    rw [afterPut_of_ge (by omega), hsize]
    omega
  apply Buffer.ext
  case text =>
    rw [put_text hle (by omega)]
    change (p.textBefore ++ c.text ++ p.textAfter).edit _ _ t
      = p.textBefore ++ (c.put x y t).text ++ p.textAfter
    rw [put_text hxy hy, Text.edit_append _ _ hx hxy hy]
  case point =>
    change _ = p.textBefore.length + (c.put x y t).point
    rw [put_point, put_point]
    change (if _ ≤ afterDelete _ _ (p.textBefore.length + c.point)
      then afterDelete _ _ (p.textBefore.length + c.point) + _
      else afterDelete _ _ (p.textBefore.length + c.point)) = _
    -- the point is counted from the start of the region, too
    rw [afterDelete_add]
    split <;> split <;> omega
  case markers =>
    rw [put_markers]
    simp only [embed, List.map_cons, List.map_nil, Marker.put, Option.map_some, hstart, hstop]
  case spans =>
    have hspans : ∀ s ∈ (p.embed narrow c).spans, s.start < s.stop ∧
        (s.stop ≤ p.textBefore.length + x ∨ p.textBefore.length + y ≤ s.start) := by
      intro s hs
      obtain ⟨-, -, hlt, -, hside⟩ := mem_embed_spans hs
      exact ⟨hlt, by omega⟩
    have hbefore : (0 : Int) + p.segmentsBefore.flatten.length ≤ p.textBefore.length + x := by
      change (0 : Int) + p.textBefore.length ≤ _
      omega
    have hshift : (p.textBefore.length : Int) + c.size + (t.length
        - (p.textBefore.length + y - (p.textBefore.length + x)))
        = p.textBefore.length + (c.put x y t).size := by omega
    -- context before the region stays, context behind it moves as a whole
    rw [put_spans hle (fun s hs => (hspans s hs).1) (fun s hs => (hspans s hs).2)]
    change (contextSpans 0 p.segmentsBefore ++ contextSpans _ p.segmentsAfter).map _
      = contextSpans 0 p.segmentsBefore ++ contextSpans _ p.segmentsAfter
    rw [List.map_append, contextSpans_put_of_le p.segmentsBefore_ne_nil hbefore hle,
      contextSpans_put_of_ge p.segmentsAfter_ne_nil (by omega), hshift]
  case view =>
    rw [put_view]
    cases narrow with
    | false => rfl
    | true =>
      change some (afterPut _ _ _ false p.textBefore.length, afterPut _ _ _ true _) = _
      rw [hstart, hstop]
      rfl
  case unlocked =>
    change _ = (c.put x y t).unlocked
    rw [put_unlocked, put_unlocked]
    rfl
  case file =>
    change _ = (c.put x y t).file
    rw [put_file, put_file]
    rfl

theorem embed_cut (hx : 0 ≤ x) (hxy : x ≤ y) (hy : y ≤ c.size) :
    (p.embed narrow c).cut (p.textBefore.length + x) (p.textBefore.length + y)
      = p.embed narrow (c.cut x y) := by
  rw [← put_nil, ← put_nil, embed_put hx hxy hy]

/-- A stretch of the region is a stretch of the text. -/
theorem embed_slice (hx : 0 ≤ x) (hxy : x ≤ y) (hy : y ≤ c.size) :
    (p.embed narrow c).slice (p.textBefore.length + x) (p.textBefore.length + y) = c.slice x y := by
  change (p.textBefore ++ c.text ++ p.textAfter).slice _ _ = c.text.slice x y
  exact Text.slice_append_middle _ _ hx hxy hy

end Partition

/-! ### The operations in context and alone -/

namespace Buffer.Plain

variable {c : Buffer} {x y : Int} {t : Text}

theorem insert (hc : c.Plain) (hx : 0 ≤ x) (hxc : x ≤ c.size) :
    c.insert (.at x) t none = .ok (c.put x x t, none) := by
  refine insert_eq_ok_iff.2 ⟨x, rfl, ?_, hc.mayInsert x, ?_⟩
  · rw [hc.low, hc.high]
    exact ⟨hx, hxc⟩
  · simp [newSpan]

theorem delete (hc : c.Plain) (hx : 0 ≤ min x y) (hy : max x y ≤ c.size) :
    c.delete (.at x) (.at y) = .ok (c.cut (min x y) (max x y), c.slice (min x y) (max x y)) := by
  refine delete_eq_ok_iff.2 ⟨x, y, rfl, rfl, ?_, fun _ => hc.mayDelete _ _, rfl⟩
  rw [hc.low, hc.high]
  exact ⟨hx, hy⟩

theorem replaceRegion (hc : c.Plain) (hx : 0 ≤ min x y) (hy : y ≤ c.size) :
    c.replaceRegion (.at x) (.at y) t = .ok (c.put (min x y) y t) := by
  refine replaceRegion_eq_ok_iff.2 ⟨x, y, rfl, rfl, ?_, fun _ => hc.mayDelete _ _, ?_, rfl⟩
  · rw [hc.low, hc.high]
    exact ⟨hx, hy⟩
  · rw [← put_nil]
    exact (hc.put _ _ _).mayInsert _

end Buffer.Plain

namespace Partition

open Buffer

variable {p : Partition} {narrow : Bool} {c : Buffer} {pos pos' : Pos} {x y : Int} {t : Text}

theorem embed_insert (hpos : (p.embed narrow c).locate pos = .ok (p.textBefore.length + x))
    (hx : 0 ≤ x) (hxc : x ≤ c.size) :
    (p.embed narrow c).insert pos t none = .ok (p.embed narrow (c.put x x t), none) := by
  have hlow := embed_low_le p narrow c
  have hhigh := le_embed_high p narrow c
  refine insert_eq_ok_iff.2 ⟨_, hpos, ⟨by omega, by omega⟩, embed_mayInsert hx hxc, ?_⟩
  rw [embed_put hx (Int.le_refl x) hxc]
  simp [newSpan]

theorem embed_delete (hpos : (p.embed narrow c).locate pos = .ok (p.textBefore.length + x))
    (hpos' : (p.embed narrow c).locate pos' = .ok (p.textBefore.length + y))
    (hx : 0 ≤ min x y) (hy : max x y ≤ c.size) :
    (p.embed narrow c).delete pos pos'
      = .ok (p.embed narrow (c.cut (min x y) (max x y)), c.slice (min x y) (max x y)) := by
  have hlow := embed_low_le p narrow c
  have hhigh := le_embed_high p narrow c
  have hmin : min ((p.textBefore.length : Int) + x) (p.textBefore.length + y)
      = p.textBefore.length + min x y := by omega
  have hmax : max ((p.textBefore.length : Int) + x) (p.textBefore.length + y)
      = p.textBefore.length + max x y := by omega
  refine delete_eq_ok_iff.2 ⟨_, _, hpos, hpos', ⟨by omega, by omega⟩, ?_, ?_⟩
  · rw [hmin, hmax]
    exact fun _ => embed_mayDelete hx hy
  · rw [hmin, hmax, embed_cut hx (by omega) hy, embed_slice hx (by omega) hy]

theorem embed_replaceRegion (hpos : (p.embed narrow c).locate pos = .ok (p.textBefore.length + x))
    (hpos' : (p.embed narrow c).locate pos' = .ok (p.textBefore.length + y))
    (hx : 0 ≤ min x y) (hy : y ≤ c.size) :
    (p.embed narrow c).replaceRegion pos pos' t = .ok (p.embed narrow (c.put (min x y) y t)) := by
  have hlow := embed_low_le p narrow c
  have hhigh := le_embed_high p narrow c
  have hmin : min ((p.textBefore.length : Int) + x) (p.textBefore.length + y)
      = p.textBefore.length + min x y := by omega
  have hle : min x y ≤ y := by omega
  refine replaceRegion_eq_ok_iff.2 ⟨_, _, hpos, hpos', ⟨by omega, by omega⟩, ?_, ?_, ?_⟩
  · rw [hmin]
    exact fun _ => embed_mayDelete hx hy
  · -- the place of the insertion is still in the region when the stretch is gone
    have hsize := cut_size hx hle hy
    rw [hmin, embed_cut hx hle hy]
    exact embed_mayInsert hx (by omega)
  · rw [hmin, embed_put hx hle hy]

end Partition

/-! ### Scripts -/

namespace Desk

/-- An edit in the region as an edit of the text of the region alone. There is none if a position
lies outside the region or the edit makes a span. -/
def rebase? (d : Desk) : Step → Option Step
  | .insert p t none => do return .insert (.at (← d.offset? p)) t none
  | .delete p q => do return .delete (.at (← d.offset? p)) (.at (← d.offset? q))
  | .replaceRegion p q t => do
    return .replaceRegion (.at (← d.offset? p)) (.at (← d.offset? q)) t
  | _ => none

/-- Which steps are read as edits of the region, and as what. -/
theorem rebase?_eq_some {d : Desk} {s s' : Step} (h : d.rebase? s = some s') :
    (∃ r x t, s = .insert r t none ∧ s' = .insert (.at x) t none ∧ d.offset? r = some x) ∨
      (∃ r r' x y, s = .delete r r' ∧ s' = .delete (.at x) (.at y) ∧
        d.offset? r = some x ∧ d.offset? r' = some y) ∨
      ∃ r r' x y t, s = .replaceRegion r r' t ∧ s' = .replaceRegion (.at x) (.at y) t ∧
        d.offset? r = some x ∧ d.offset? r' = some y := by
  cases s with
  | insert r t props =>
    cases props with
    | some props => cases h
    | none =>
      obtain ⟨x, hr, h⟩ := Option.bind_eq_some_iff.1 h
      cases h
      exact .inl ⟨r, x, t, rfl, rfl, hr⟩
  | delete r r' =>
    obtain ⟨x, hr, h⟩ := Option.bind_eq_some_iff.1 h
    obtain ⟨y, hr', h⟩ := Option.bind_eq_some_iff.1 h
    cases h
    exact .inr (.inl ⟨r, r', x, y, rfl, rfl, hr, hr'⟩)
  | replaceRegion r r' t =>
    obtain ⟨x, hr, h⟩ := Option.bind_eq_some_iff.1 h
    obtain ⟨y, hr', h⟩ := Option.bind_eq_some_iff.1 h
    cases h
    exact .inr (.inr ⟨r, r', x, y, t, rfl, rfl, hr, hr'⟩)
  | _ => cases h

/-- Edits in the region as edits of its text alone, each one read in the state that it meets. -/
def rebaseAll? (d : Desk) : List Step → Option (List Step)
  | [] => some []
  | s :: rest => do
    let s' ← d.rebase? s
    let rest' ← (d.take s).desk.rebaseAll? rest
    return s' :: rest'

/-- **What a host sees of a desk** that shows the text of another one in context: the context around
that text, the markers at its edges, the text as what is editable, and nothing but the text when the
context is taken away. -/
structure Shows (p : Partition) (d alone : Desk) : Prop where
  text : d.buffer.text = p.textBefore ++ alone.buffer.text ++ p.textAfter
  region : d.engine.region? d.buffer
    = some ((p.textBefore.length : Int), p.textBefore.length + alone.buffer.size)
  editable : d.engine.editable d.buffer = alone.buffer.text
  unsplices : d.UnsplicesTo alone.buffer.text
  spans : (d.take (.unsplice none)).desk.buffer.spans = []

/-- **The simulation.** One desk holds the buffer of the other one in its context. -/
structure Embeds (p : Partition) (narrow : Bool) (d alone : Desk) : Prop where
  buffer : d.buffer = p.embed narrow alone.buffer
  engine : d.engine = .spliced 0 1
  plain : alone.buffer.Plain

namespace Embeds

variable {p : Partition} {narrow : Bool} {d alone : Desk} {r : Ref} {s s' : Step} {x : Int}

theorem shows (h : Embeds p narrow d alone) : Shows p d alone := by
  have hregion : d.engine.region? d.buffer
      = some ((p.textBefore.length : Int), p.textBefore.length + alone.buffer.size) := by
    rw [h.buffer, h.engine, p.embed_region? narrow]
  have hslice : d.buffer.slice p.textBefore.length (p.textBefore.length + alone.buffer.size)
      = alone.buffer.text := by
    rw [h.buffer]
    exact (p.embed_slices narrow alone.buffer).2.1
  refine ⟨by rw [h.buffer]; rfl, hregion, ?_, ?_, ?_⟩
  · rw [Engine.editable_eq hregion, hslice]
  · have hun := unsplicesTo hregion
    rwa [hslice] at hun
  · refine unsplice_spans hregion (fun s hs => ?_) fun s hs => ?_
    · rw [h.buffer] at hs ⊢
      obtain ⟨-, h₀, hlt, hstop, -⟩ := Partition.mem_embed_spans hs
      exact ⟨h₀, hlt, hstop⟩
    · rw [h.buffer] at hs
      exact (Partition.mem_embed_spans hs).2.2.2.2

/-- A position in the region, as the buffer finds it. -/
theorem locate (h : Embeds p narrow d alone) (hr : d.offset? r = some x) :
    ∃ q, d.pos r = .ok q ∧
      (p.embed narrow alone.buffer).locate q = .ok (p.textBefore.length + x) ∧
      0 ≤ x ∧ x ≤ alone.buffer.size := by
  obtain ⟨hplace, hx, hle⟩ := (offset?_eq_some_iff h.shows.region).1 hr
  obtain ⟨q, hq, hloc⟩ := bind_eq_ok.1 hplace
  rw [h.buffer] at hloc
  exact ⟨q, hq, hloc, hx, by omega⟩

/-- What both desks have to do in a step of the simulation. -/
theorem edited {c : Buffer} {f f' : Except EditError (Buffer × StepResult)} {v : StepResult}
    (h : Embeds p narrow d alone) (hc : c.Plain) (hf : f = .ok (p.embed narrow c, v))
    (hf' : f' = .ok (c, v)) :
    ((d.edited f).outcome = .ok v ∧ (alone.edited f').outcome = .ok v) ∧
      Embeds p narrow (d.edited f).desk (alone.edited f').desk := by
  subst hf hf'
  exact ⟨⟨rfl, rfl⟩, rfl, h.engine, hc⟩

/-- **The step of the simulation.** An edit in the region succeeds with the result that it has
alone. -/
theorem take (h : Embeds p narrow d alone) (hs : d.rebase? s = some s') :
    ∃ v, ((d.take s).outcome = .ok v ∧ (alone.take s').outcome = .ok v) ∧
      Embeds p narrow (d.take s).desk (alone.take s').desk := by
  rcases rebase?_eq_some hs with ⟨r, x, t, rfl, rfl, hr⟩ | ⟨r, r', x, y, rfl, rfl, hr, hr'⟩ |
    ⟨r, r', x, y, t, rfl, rfl, hr, hr'⟩
  · -- an insertion
    obtain ⟨q, hq, hloc, hx, hxc⟩ := h.locate hr
    have hins := Partition.embed_insert (t := t) hloc hx hxc
    rw [← h.buffer] at hins
    refine ⟨.nothing, h.edited (h.plain.put x x t) ?_ ?_⟩
    · exact bind_eq_ok.2 ⟨q, hq, bind_eq_ok.2 ⟨_, hins, rfl⟩⟩
    · exact bind_eq_ok.2 ⟨.at x, rfl, bind_eq_ok.2 ⟨_, h.plain.insert hx hxc, rfl⟩⟩
  · -- a deletion, whose positions may come in either order
    obtain ⟨q, hq, hloc, hx, hxc⟩ := h.locate hr
    obtain ⟨q', hq', hloc', hy, hyc⟩ := h.locate hr'
    have hmin : 0 ≤ min x y := by omega
    have hmax : max x y ≤ alone.buffer.size := by omega
    have hplain : (alone.buffer.cut (min x y) (max x y)).Plain := by
      rw [← Buffer.put_nil]
      exact h.plain.put _ _ _
    have hdel := Partition.embed_delete hloc hloc' hmin hmax
    rw [← h.buffer] at hdel
    refine ⟨.text (alone.buffer.slice (min x y) (max x y)), h.edited hplain ?_ ?_⟩
    · exact bind_eq_ok.2 ⟨q, hq, bind_eq_ok.2 ⟨q', hq', bind_eq_ok.2 ⟨_, hdel, rfl⟩⟩⟩
    · exact bind_eq_ok.2 ⟨.at x, rfl, bind_eq_ok.2 ⟨.at y, rfl,
        bind_eq_ok.2 ⟨_, h.plain.delete hmin hmax, rfl⟩⟩⟩
  · -- a replacement, which deletes nothing if its positions descend
    obtain ⟨q, hq, hloc, hx, hxc⟩ := h.locate hr
    obtain ⟨q', hq', hloc', hy, hyc⟩ := h.locate hr'
    have hmin : 0 ≤ min x y := by omega
    have hrep := Partition.embed_replaceRegion (t := t) hloc hloc' hmin hyc
    rw [← h.buffer] at hrep
    refine ⟨.nothing, h.edited (h.plain.put (min x y) y t) ?_ ?_⟩
    · exact bind_eq_ok.2 ⟨q, hq, bind_eq_ok.2 ⟨q', hq', bind_eq_ok.2 ⟨_, hrep, rfl⟩⟩⟩
    · exact bind_eq_ok.2 ⟨.at x, rfl, bind_eq_ok.2 ⟨.at y, rfl,
        bind_eq_ok.2 ⟨_, h.plain.replaceRegion hmin hyc, rfl⟩⟩⟩

theorem isEdit_of_rebase? (hs : d.rebase? s = some s') : s.isEdit = true ∧ s'.isEdit = true := by
  rcases rebase?_eq_some hs with ⟨r, x, t, rfl, rfl, -⟩ | ⟨r, r', x, y, rfl, rfl, -⟩ |
    ⟨r, r', x, y, t, rfl, rfl, -⟩
  · exact ⟨rfl, rfl⟩
  · exact ⟨rfl, rfl⟩
  · exact ⟨rfl, rfl⟩

/-- What the records of two runs have in common, one by one. -/
def Agree (p : Partition) (narrow : Bool) (r r' : StepRecord) : Prop :=
  (∃ v, r.outcome = .ok v ∧ r'.outcome = .ok v) ∧ Embeds p narrow r.desk r'.desk

/-- **The run of the simulation.** Every step succeeds on both desks. -/
theorem runAll (h : Embeds p narrow d alone) (stops : Bool) {steps steps' : List Step}
    (hs : d.rebaseAll? steps = some steps') :
    List.Forall₂ (Agree p narrow) (d.runAll stops steps).2.1 (alone.runAll stops steps').2.1 ∧
      (d.runAll stops steps).2.1.length = steps.length ∧
      Embeds p narrow (d.runAll stops steps).1 (alone.runAll stops steps').1 := by
  induction steps generalizing d alone steps' with
  | nil =>
    cases hs
    exact ⟨.nil, rfl, h⟩
  | cons s rest ih =>
    obtain ⟨s', hs', hs⟩ := Option.bind_eq_some_iff.1 hs
    obtain ⟨rest', hrest, hs⟩ := Option.bind_eq_some_iff.1 hs
    cases hs
    obtain ⟨v, ⟨hv, hv'⟩, hnext⟩ := h.take hs'
    obtain ⟨hedit, hedit'⟩ := isEdit_of_rebase? hs'
    obtain ⟨hrecords, hlength, hlast⟩ := ih hnext hrest
    rw [runAll_of_isEdit stops rest hedit hv, runAll_of_isEdit stops rest' hedit' hv']
    refine ⟨.cons ⟨⟨v, hv, hv'⟩, hnext⟩ hrecords, ?_, hlast⟩
    rw [List.length_cons, List.length_cons, hlength]

end Embeds

/-- **Editing in context refines editing alone.** Take any edits whose positions lie between the
markers of the region when they are made. None of them fails, each has the result that it has on a
desk with nothing but the text, and all along the desk shows in context what the other one holds. -/
theorem spliced_refines_fresh {p : Partition} (hp : p.isEmpty = false) (t : Text)
    (narrow stops : Bool) {steps steps' : List Step}
    (hs : (spliced p t narrow).rebaseAll? steps = some steps') :
    Shows p (spliced p t narrow) (fresh t) ∧
      List.Forall₂
        (fun r r' => (∃ v, r.outcome = .ok v ∧ r'.outcome = .ok v) ∧ Shows p r.desk r'.desk)
        ((spliced p t narrow).runAll stops steps).2.1 ((fresh t).runAll stops steps').2.1 ∧
      ((spliced p t narrow).runAll stops steps).2.1.length = steps.length ∧
      Shows p ((spliced p t narrow).runAll stops steps).1 ((fresh t).runAll stops steps').1 := by
  -- splicing sets up the simulation
  have hstart : Embeds p narrow (spliced p t narrow) (fresh t) := by
    rw [spliced_eq hp]
    exact ⟨rfl, rfl, Buffer.Plain.ofText t⟩
  obtain ⟨hrecords, hlength, hlast⟩ := hstart.runAll stops hs
  exact ⟨hstart.shows, List.Forall₂.imp (fun r r' hr => ⟨hr.1, hr.2.shows⟩) hrecords, hlength,
    hlast.shows⟩

/-- Text is typed at the end of the region, the region is emptied, and it is filled again. -/
theorem spliced_refines_fresh_emptied :
    let p := Partition.between (Text.lit "a=0") (Text.lit "b=0")
    let d := spliced p (Text.lit "x") true
    let steps : List Step := [.insert .regionStop (Text.lit "y") none, .delete (.at 4) .regionStop,
      .replaceRegion .regionStart .regionStop (Text.lit "z")]
    let steps' : List Step := [.insert (.at 1) (Text.lit "y") none, .delete (.at 0) (.at 2),
      .replaceRegion (.at 0) (.at 0) (Text.lit "z")]
    (p.isEmpty = false ∧ d.rebaseAll? steps = some steps') ∧
      (d.runAll false steps).1.buffer.text = Text.lit "a=0\nz\nb=0" ∧
      Shows p (d.runAll false steps).1 ((fresh (Text.lit "x")).runAll false steps').1 := by
  intro p d steps steps'
  have hp : p.isEmpty = false := rfl
  have hs : d.rebaseAll? steps = some steps' := rfl
  have htext : (d.runAll false steps).1.buffer.text = Text.lit "a=0\nz\nb=0" := by decide +kernel
  obtain ⟨-, -, -, hshows⟩ := spliced_refines_fresh hp (Text.lit "x") true false hs
  exact ⟨⟨hp, hs⟩, htext, hshows⟩

end Desk

end LiterateEdit
