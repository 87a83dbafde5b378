import LiterateEdit.Script
import LiterateEdit.Proofs.Buffer.Accepted

/-!
# The layout that splicing makes

Splicing context into a buffer that holds nothing but a text puts the segments of the blocks before
it in front of the text and those of the blocks behind it at its end, each under a span of its own,
and sets the two markers of the editable region around the text. `Partition.embed` writes that
buffer down as a function of the buffer that is embedded, and `splice_ofText` says that splicing
makes it.

The two markers of the region are followed through edits by `Buffer.Marks`.

Both sides are filled by a row of insertions, each at the place where the last one ended
(`insertBefore_eq`, `insertAfter_eq`). Such a row is one insertion of all the texts together
(`insertText_insertText`): what was at the place of the first insertion and does not advance stays
before all of them, and the span of a segment ends where the next insertion takes place, so that it
does not grow.
-/

namespace LiterateEdit

/-! ### Segments -/

namespace Partition

variable (p : Partition)

/-- The texts put in for the blocks before. -/
def segmentsBefore : List Text := p.before.map Block.segmentBefore

/-- The texts put in for the blocks behind. -/
def segmentsAfter : List Text := p.after.map Block.segmentAfter

/-- All that is put in before the region. -/
def textBefore : Text := p.segmentsBefore.flatten

/-- All that is put in behind the region. -/
def textAfter : Text := p.segmentsAfter.flatten

theorem segmentsBefore_ne_nil : ∀ t ∈ p.segmentsBefore, t ≠ [] := by
  intro t ht
  obtain ⟨b, -, rfl⟩ := List.mem_map.1 ht
  simp [Block.segmentBefore]

theorem segmentsAfter_ne_nil : ∀ t ∈ p.segmentsAfter, t ≠ [] := by
  intro t ht
  obtain ⟨b, -, rfl⟩ := List.mem_map.1 ht
  simp [Block.segmentAfter]

end Partition

/-- A block with nothing but an identity and a text. -/
def Block.bare (identity t : Text) : Block := ⟨identity, none, none, [], t, none, 0, 0⟩

/-- One block on either side. -/
def Partition.between (t u : Text) : Partition :=
  ⟨[.bare (Text.lit "before") t], [.bare (Text.lit "behind") u]⟩

/-- The spans of context texts that stand one behind another from a position on. -/
def contextSpans (i : Int) : List Text → List Span
  | [] => []
  | t :: rest => ⟨i, i + t.length, contextProps⟩ :: contextSpans (i + t.length) rest

section ContextSpans

variable {i j k n : Int} {ts : List Text} {s : Span}

/-- The spans of context lie where the texts do, and none is empty. -/
theorem mem_contextSpans (hts : ∀ t ∈ ts, t ≠ []) (h : s ∈ contextSpans i ts) :
    i ≤ s.start ∧ s.start < s.stop ∧ s.stop ≤ i + ts.flatten.length ∧ s.props = contextProps := by
  induction ts generalizing i with
  | nil => cases h
  | cons t rest ih =>
    have hpos : 0 < t.length := List.length_pos_iff.2 (hts t List.mem_cons_self)
    rw [List.flatten_cons, List.length_append]
    rcases List.mem_cons.1 h with rfl | h
    · refine ⟨Int.le_refl i, ?_, ?_, rfl⟩ <;> simp only <;> omega
    · obtain ⟨h₁, h₂, h₃, h₄⟩ := ih (fun u hu => hts u (List.mem_cons_of_mem t hu)) h
      exact ⟨by omega, h₂, by omega, h₄⟩

theorem contextSpans_shift (i k : Int) (ts : List Text) :
    (contextSpans i ts).map (Span.shift k) = contextSpans (i + k) ts := by
  induction ts generalizing i with
  | nil => rfl
  | cons t rest ih =>
    rw [contextSpans, contextSpans, List.map_cons, ih, Span.shift]
    have h : i + t.length + k = i + k + t.length := by omega
    simp only [h]

/-- Context forbids to insert inside it, but not at its start, and not at its end because it is
rear-nonsticky. -/
theorem forbidsInsert_context (h : s.props = contextProps) :
    s.forbidsInsert i = false ↔ i ≤ s.start ∨ s.stop ≤ i := by
  rw [Span.forbidsInsert, h]
  by_cases hi : i ≤ s.start
  · simp [contextProps, hi, Int.not_lt.2 hi]
  · simp [contextProps, hi, Int.not_le.1 hi]

/-- Context forbids to delete anything of it. -/
theorem forbidsDelete_context (h : s.props = contextProps) :
    s.forbidsDelete i j = false ↔ j ≤ s.start ∨ s.stop ≤ i := by
  rw [Span.forbidsDelete, h]
  by_cases hj : j ≤ s.start
  · simp [contextProps, hj, Int.not_lt.2 hj]
  · simp [contextProps, hj, Int.not_le.1 hj]

/-- An edit behind context leaves its spans. -/
theorem contextSpans_put_of_le (hts : ∀ t ∈ ts, t ≠ []) (h : i + ts.flatten.length ≤ j)
    (hjk : j ≤ k) : (contextSpans i ts).map (Span.put j k n) = contextSpans i ts := by
  refine (List.map_congr_left fun s hs => ?_).trans (List.map_id _)
  obtain ⟨-, hlt, hstop, -⟩ := mem_contextSpans hts hs
  exact Span.put_of_stop_le hlt (by omega) hjk

/-- An edit before context moves its spans. -/
theorem contextSpans_put_of_ge (hts : ∀ t ∈ ts, t ≠ []) (h : k ≤ i) :
    (contextSpans i ts).map (Span.put j k n) = contextSpans (i + (n - (k - j))) ts := by
  rw [← contextSpans_shift]
  refine List.map_congr_left fun s hs => ?_
  obtain ⟨hstart, hlt, -, -⟩ := mem_contextSpans hts hs
  exact Span.put_of_le_start (by omega) (by omega)

end ContextSpans

/-! ### Rows of insertions -/

/-- A position that two insertions in a row move goes where one insertion of both moves it. -/
theorem afterInsert_afterInsert {i n n' : Int} (hn : 0 ≤ n) (advances : Bool) (p : Int) :
    afterInsert (i + n) n' advances (afterInsert i n advances p)
      = afterInsert i (n + n') advances p := by
  by_cases h : i < p ∨ p = i ∧ advances = true
  · have h' : i + n < p + n ∨ p + n = i + n ∧ advances = true :=
      h.imp (by omega) fun h => ⟨by omega, h.2⟩
    rw [afterInsert, afterInsert, afterInsert, if_pos h, if_pos h', if_pos h]
    omega
  · -- a position that the first insertion does not move is before the second one, too
    have h' : ¬(i + n < p ∨ p = i + n ∧ advances = true) := by
      rintro (hlt | ⟨heq, ha⟩)
      · exact h (.inl (by omega))
      · by_cases hp : p = i
        · exact h (.inr ⟨hp, ha⟩)
        · exact h (.inl (by omega))
    rw [afterInsert, afterInsert, afterInsert, if_neg h, if_neg h', if_neg h]

theorem Marker.inserted_inserted {i n n' : Int} (hn : 0 ≤ n) (m : Marker) :
    (m.inserted i n).inserted (i + n) n' = m.inserted i (n + n') := by
  have hpos : afterInsert (i + n) n' m.advances ∘ afterInsert i n m.advances
      = afterInsert i (n + n') m.advances :=
    funext fun p => afterInsert_afterInsert hn m.advances p
  simp only [inserted, Option.map_map, hpos]

theorem Span.inserted_inserted {i n n' : Int} (hn : 0 ≤ n) (s : Span) :
    (s.inserted i n).inserted (i + n) n' = s.inserted i (n + n') := by
  by_cases hstart : i ≤ s.start
  · -- both insertions take place before the span
    have hfirst : s.inserted i n = ⟨s.start + n, s.stop + n, s.props⟩ := if_pos hstart
    rw [hfirst, inserted, if_pos (by simp only; omega), inserted, if_pos hstart]
    simp only [Int.add_assoc]
  · by_cases hstop : i < s.stop
    · -- both take place inside it
      have hfirst : s.inserted i n = ⟨s.start, s.stop + n, s.props⟩ := by
        rw [inserted, if_neg hstart, if_pos hstop]
      rw [hfirst, inserted, if_neg (by simp only; omega), if_pos (by simp only; omega), inserted,
        if_neg hstart, if_pos hstop]
      simp only [Int.add_assoc]
    · have hfirst : s.inserted i n = s := by rw [inserted, if_neg hstart, if_neg hstop]
      rw [hfirst, inserted, if_neg (by omega), if_neg (by omega), inserted, if_neg hstart,
        if_neg hstop]

namespace Buffer

variable {b : Buffer} {i : Int} {t u : Text} {ss : List Span}

theorem insertText_size (h₀ : 0 ≤ i) (hi : i ≤ b.size) :
    (b.insertText i t).size = b.size + t.length := by
  rw [← put_self, put_size h₀ (Int.le_refl i) hi]
  omega

theorem insertText_addSpans (b : Buffer) (ss : List Span) (i : Int) (t : Text) :
    (b.addSpans ss).insertText i t
      = (b.insertText i t).addSpans (ss.map (Span.inserted i t.length)) := by
  simp only [insertText, addSpans, List.map_append]
  rfl

theorem addSpans_addSpans (b : Buffer) (ss ss' : List Span) :
    (b.addSpans ss).addSpans ss' = b.addSpans (ss ++ ss') := by
  simp only [addSpans, List.append_assoc]

/-- **Two insertions in a row** are one insertion of both texts. -/
theorem insertText_insertText (h₀ : 0 ≤ i) (hi : i ≤ b.size) :
    (b.insertText i t).insertText (i + t.length) u = b.insertText i (t ++ u) := by
  have hlen : (b.text.take i.toNat ++ t).length = (i + t.length).toNat := by
    rw [List.length_append, List.length_take]
    simp only [size] at hi
    omega
  have hall : (((t ++ u).length : Nat) : Int) = t.length + u.length := by
    rw [List.length_append, Int.natCast_add]
  have hnonneg : (0 : Int) ≤ t.length := Int.natCast_nonneg _
  apply Buffer.ext
  case text =>
    change (b.text.take i.toNat ++ t ++ b.text.drop i.toNat).take (i + t.length).toNat ++ u ++
      (b.text.take i.toNat ++ t ++ b.text.drop i.toNat).drop (i + t.length).toNat
      = b.text.take i.toNat ++ (t ++ u) ++ b.text.drop i.toNat
    rw [← hlen, List.take_left, List.drop_left, List.append_assoc _ t u]
  case point =>
    simp only [insertText, hall]
    split <;> split <;> omega
  case markers =>
    simp only [insertText, List.map_map, hall]
    exact List.map_congr_left fun m _ => Marker.inserted_inserted hnonneg m
  case spans =>
    simp only [insertText, List.map_map, hall]
    exact List.map_congr_left fun s _ => Span.inserted_inserted hnonneg s
  case view =>
    simp only [insertText, Option.map_map, hall]
    refine Option.map_congr fun v _ => ?_
    exact Prod.ext (afterInsert_afterInsert hnonneg _ _) (afterInsert_afterInsert hnonneg _ _)
  case unlocked => rfl
  case file => rfl

/-- One insertion of a context text at a place in the view while the buffer is unlocked. -/
theorem insert_context {p : Pos} (hu : b.unlocked = true) (hp : b.locate p = .ok i)
    (hlow : b.low ≤ i) (hhigh : i ≤ b.high) (ht : t ≠ []) :
    b.insert p t (some contextProps)
      = .ok ((b.insertText i t).addSpans [⟨i, i + t.length, contextProps⟩],
          some ⟨i, i + t.length, contextProps⟩) := by
  refine insert_eq_ok_iff.2 ⟨i, hp, ⟨hlow, hhigh⟩, .inl hu, ?_⟩
  rw [newSpan, if_neg ht, put_self]
  rfl

/-- An insertion in the view leaves its start. -/
theorem insertText_low (hlow : b.low ≤ i) : (b.insertText i t).low = b.low := by
  rw [← put_self, put_low hlow (Int.le_refl i)]

/-- An insertion in the view moves its end. -/
theorem insertText_high (h₀ : 0 ≤ i) (hhigh : i ≤ b.high) :
    (b.insertText i t).high = b.high + t.length := by
  rw [← put_self, put_high h₀ (Int.le_refl i) hhigh, Int.sub_self, Int.sub_zero]

theorem insertText_low_le (hlow : b.low ≤ i) : (b.insertText i t).low ≤ i + t.length := by
  rw [insertText_low hlow]
  omega

theorem le_insertText_high (h₀ : 0 ≤ i) (hhigh : i ≤ b.high) :
    i + t.length ≤ (b.insertText i t).high := by
  rw [insertText_high h₀ hhigh]
  omega

end Buffer

namespace Engine

open Buffer

variable {b : Buffer} {i : Int}

/-- A row of spans with the one before it: the later insertions leave that one as it is. -/
private theorem row_step {t : Text} {ts : List Text} (h₀ : 0 ≤ i) (hi : i ≤ b.size) (ht : t ≠ []) :
    (((b.insertText i t).addSpans [⟨i, i + t.length, contextProps⟩]).insertText (i + t.length)
        ts.flatten).addSpans (contextSpans (i + t.length) ts)
      = (b.insertText i (t :: ts).flatten).addSpans (contextSpans i (t :: ts)) := by
  have hpos : 0 < t.length := List.length_pos_iff.2 ht
  have hspan : Span.inserted (i + t.length) ts.flatten.length ⟨i, i + t.length, contextProps⟩
      = ⟨i, i + t.length, contextProps⟩ := by
    rw [Span.inserted, if_neg (by simp only; omega), if_neg (by simp only; omega)]
  rw [insertText_addSpans, insertText_insertText h₀ hi, addSpans_addSpans, List.map_singleton,
    hspan]
  rfl

/-- **The blocks behind** are put in as one text under a row of spans. -/
theorem insertAfter_eq (n : Nat) (hu : b.unlocked = true) (hlow : b.low ≤ i) (hhigh : i ≤ b.high)
    (h₀ : 0 ≤ i) (hi : i ≤ b.size) (blocks : List Block) :
    insertAfter none i n b blocks
      = (.ok (), (b.insertText i (blocks.map Block.segmentAfter).flatten).addSpans
          (contextSpans i (blocks.map Block.segmentAfter))) := by
  induction blocks generalizing b i n with
  | nil =>
    rw [insertAfter, List.map_nil, List.flatten_nil, insertText_nil, contextSpans, addSpans_nil]
  | cons block rest ih =>
    have hne : block.segmentAfter ≠ [] := by simp [Block.segmentAfter]
    rw [insertAfter, if_neg nofun, insert_context hu rfl hlow hhigh hne]
    simp only
    have hsize := insertText_size (t := block.segmentAfter) h₀ hi
    have hu' : ((b.insertText i block.segmentAfter).addSpans
        [⟨i, i + block.segmentAfter.length, contextProps⟩]).unlocked = true := hu
    rw [ih (n + 1) hu' (insertText_low_le hlow) (le_insertText_high h₀ hhigh) (by omega)
      (by change _ ≤ (b.insertText i block.segmentAfter).size; omega), List.map_cons,
      row_step h₀ hi hne]

/-- **The blocks before** are put in as one text under a row of spans, at a marker that advances
along the row. -/
theorem insertBefore_eq (n : Nat) {m : MarkerId} (hm : b.markers[m]? = some ⟨some i, true⟩)
    (hu : b.unlocked = true) (hlow : b.low ≤ i) (hhigh : i ≤ b.high) (h₀ : 0 ≤ i) (hi : i ≤ b.size)
    (blocks : List Block) :
    insertBefore none m n b blocks
      = (.ok (n + blocks.length),
          (b.insertText i (blocks.map Block.segmentBefore).flatten).addSpans
            (contextSpans i (blocks.map Block.segmentBefore))) := by
  induction blocks generalizing b i n with
  | nil =>
    rw [insertBefore, List.map_nil, List.flatten_nil, insertText_nil, contextSpans, addSpans_nil]
    rfl
  | cons block rest ih =>
    have hne : block.segmentBefore ≠ [] := by simp [Block.segmentBefore]
    have hloc : b.locate (.marker m) = .ok i := locate_marker (by simp only [markerPosition, hm])
    rw [insertBefore, if_neg nofun, insert_context hu hloc hlow hhigh hne]
    simp only
    have hsize := insertText_size (t := block.segmentBefore) h₀ hi
    -- the marker is now behind the text just put in, where the rest of the row goes
    have hm' : ((b.insertText i block.segmentBefore).addSpans
        [⟨i, i + block.segmentBefore.length, contextProps⟩]).markers[m]?
        = some ⟨some (i + block.segmentBefore.length), true⟩ := by
      simp [addSpans, insertText, hm, Marker.inserted, afterInsert]
    have hu' : ((b.insertText i block.segmentBefore).addSpans
        [⟨i, i + block.segmentBefore.length, contextProps⟩]).unlocked = true := hu
    rw [ih (n + 1) hm' hu' (insertText_low_le hlow) (le_insertText_high h₀ hhigh) (by omega)
      (by change _ ≤ (b.insertText i block.segmentBefore).size; omega), List.map_cons,
      row_step h₀ hi hne, List.length_cons]
    simp only [Prod.mk.injEq, Except.ok.injEq, and_true]
    omega

end Engine

/-! ### The region -/

namespace Engine

variable {e : Engine} {b : Buffer} {m m' : MarkerId} {lo hi : Int}

theorem region?_eq_some_iff :
    (Engine.spliced m m').region? b = some (lo, hi) ↔
      b.markerPosition m = some lo ∧ b.markerPosition m' = some hi ∧
        0 ≤ lo ∧ lo ≤ hi ∧ hi ≤ b.size := by
  simp only [region?]
  split
  · next x y hx hy =>
    rw [hx, hy]
    split
    · next hle =>
      constructor
      · intro heq
        cases heq
        exact ⟨rfl, rfl, hle⟩
      · rintro ⟨heq, heq', -⟩
        cases heq
        cases heq'
        rfl
    · next hle =>
      constructor
      · intro heq
        cases heq
      · rintro ⟨heq, heq', h⟩
        cases heq
        cases heq'
        exact absurd h hle
  · next hnone =>
    -- one of the markers has no place
    constructor
    · intro heq
      cases heq
    · rintro ⟨hx, hy, -⟩
      exact absurd hy (hnone lo hi hx)

theorem editable_eq (h : e.region? b = some (lo, hi)) : e.editable b = b.slice lo hi := by
  rw [editable, h]

end Engine

namespace Buffer

/-- The markers that splicing makes are at two positions: the first one stays, the second one
advances. -/
structure Marks (b : Buffer) (lo hi : Int) : Prop where
  start : b.markers[0]? = some ⟨some lo, false⟩
  stop : b.markers[1]? = some ⟨some hi, true⟩

namespace Marks

variable {b b' : Buffer} {lo hi i j : Int} {t : Text}

theorem region? (h : b.Marks lo hi) (h₀ : 0 ≤ lo) (hle : lo ≤ hi) (hsize : hi ≤ b.size) :
    (Engine.spliced 0 1).region? b = some (lo, hi) := by
  rw [Engine.region?_eq_some_iff]
  refine ⟨?_, ?_, h₀, hle, hsize⟩
  · simp only [markerPosition, h.start]
  · simp only [markerPosition, h.stop]

/-- **An edit moves the markers**: text put in at either of them ends up between them. -/
theorem put (h : b.Marks lo hi) :
    (b.put i j t).Marks (afterPut i j t.length false lo) (afterPut i j t.length true hi) :=
  ⟨markers_put_getElem? h.start, markers_put_getElem? h.stop⟩

theorem congr (h : b.Marks lo hi) (hmarkers : ∀ k < 2, b'.markers[k]? = b.markers[k]?) :
    b'.Marks lo hi :=
  ⟨(hmarkers 0 (by omega)).trans h.start, (hmarkers 1 (by omega)).trans h.stop⟩

end Marks

end Buffer

/-! ### The spliced buffer -/

/-- **The buffer `c` in its context.** The texts of the context stand around the text of `c` under
their spans, the first marker stays at the start of that text and the second one advances at its
end, and if the buffer is narrowed, the view is what lies between them. -/
def Partition.embed (p : Partition) (narrow : Bool) (c : Buffer) : Buffer where
  text := p.textBefore ++ c.text ++ p.textAfter
  point := p.textBefore.length + c.point
  markers := [⟨some p.textBefore.length, false⟩, ⟨some (p.textBefore.length + c.size), true⟩]
  spans := contextSpans 0 p.segmentsBefore ++
    contextSpans (p.textBefore.length + c.size) p.segmentsAfter
  view := if narrow then some (p.textBefore.length, p.textBefore.length + c.size) else none
  unlocked := c.unlocked
  file := c.file

theorem Partition.embed_size (p : Partition) (narrow : Bool) (c : Buffer) :
    (p.embed narrow c).size = p.textBefore.length + c.size + p.textAfter.length := by
  simp only [Buffer.size, embed, List.length_append]
  omega

/-- The text of the embedded buffer and the context around it. -/
theorem Partition.embed_slices (p : Partition) (narrow : Bool) (c : Buffer) :
    (p.embed narrow c).slice 0 p.textBefore.length = p.textBefore ∧
      (p.embed narrow c).slice p.textBefore.length (p.textBefore.length + c.size) = c.text ∧
      (p.embed narrow c).slice (p.textBefore.length + c.size) (p.embed narrow c).size
        = p.textAfter := by
  have htext : (p.embed narrow c).text = p.textBefore ++ c.text ++ p.textAfter := rfl
  rw [embed_size]
  simp only [Buffer.slice, htext, Buffer.size]
  exact ⟨Text.slice_append_before _ _ _, Text.slice_append _ _ _, Text.slice_append_behind _ _ _⟩

theorem Partition.embed_marks (p : Partition) (narrow : Bool) (c : Buffer) :
    (p.embed narrow c).Marks p.textBefore.length (p.textBefore.length + c.size) := ⟨rfl, rfl⟩

theorem Partition.embed_region? (p : Partition) (narrow : Bool) (c : Buffer) :
    (Engine.spliced 0 1).region? (p.embed narrow c)
      = some ((p.textBefore.length : Int), p.textBefore.length + c.size) := by
  have hc := Buffer.size_nonneg c
  have hsize := p.embed_size narrow c
  exact (p.embed_marks narrow c).region? (by omega) (by omega) (by omega)

namespace Engine

open Buffer

variable {p : Partition} {t : Text} {narrow : Bool}

/-- The buffer with both markers at the edges of the text. -/
private def opened (t : Text) : Buffer :=
  ⟨t, 0, [⟨some 0, true⟩, ⟨some t.length, true⟩], [], none, true, none⟩

/-- The buffer with the blocks before put in. -/
private def front (p : Partition) (t : Text) (advances : Bool) : Buffer where
  text := p.textBefore ++ t
  point := p.textBefore.length
  markers := [⟨some p.textBefore.length, advances⟩,
    ⟨some (p.textBefore.length + t.length), advances⟩]
  spans := contextSpans 0 p.segmentsBefore
  unlocked := true

/-- The buffer with all blocks put in. -/
private def filled (p : Partition) (t : Text) (point : Int) (advances : Bool) : Buffer where
  text := p.textBefore ++ t ++ p.textAfter
  point := point
  markers := [⟨some p.textBefore.length, false⟩, ⟨some (p.textBefore.length + t.length), advances⟩]
  spans := contextSpans 0 p.segmentsBefore ++
    contextSpans (p.textBefore.length + t.length) p.segmentsAfter
  unlocked := true

private theorem make_markers (t : Text) :
    ({ ofText t with unlocked := true } : Buffer).makeMarker (.at 0) true
        = .ok (⟨t, 0, [⟨some 0, true⟩], [], none, true, none⟩, 0) ∧
      (⟨t, 0, [⟨some 0, true⟩], [], none, true, none⟩ : Buffer).makeMarker (.at t.length) true
        = .ok (opened t, 1) := by
  constructor
  · simp [makeMarker, size, ofText, bind, Except.bind, pure, Except.pure]
  · simp [makeMarker, size, opened, bind, Except.bind, pure, Except.pure]

/-- Both markers advance over the blocks before, also when there is no text between them. -/
private theorem opened_insert (p : Partition) (t : Text) :
    ((opened t).insertText 0 p.textBefore).addSpans (contextSpans 0 p.segmentsBefore)
      = front p t true := by
  have hstart : afterInsert 0 p.textBefore.length true 0 = p.textBefore.length := by
    rw [afterInsert_of_ge (Int.le_refl 0), Int.zero_add]
  have hstop : afterInsert 0 p.textBefore.length true t.length
      = p.textBefore.length + t.length := by
    rw [afterInsert_of_ge (Int.natCast_nonneg _), Int.add_comm]
  simp [opened, front, insertText, addSpans, Marker.inserted, hstart, hstop]

/-- Neither marker moves when the blocks behind are put in. -/
private theorem front_insert (p : Partition) (t : Text) :
    ∃ point, ((front p t false).insertText (p.textBefore.length + t.length) p.textAfter).addSpans
        (contextSpans (p.textBefore.length + t.length) p.segmentsAfter)
      = filled p t point false := by
  have hlen : ((p.textBefore.length : Int) + t.length).toNat = (p.textBefore ++ t).length := by
    rw [List.length_append]
    omega
  -- the spans before end at the region at the latest, so that they stay as they are
  have hspans : (contextSpans 0 p.segmentsBefore).map
      (Span.inserted (p.textBefore.length + t.length) p.textAfter.length)
      = contextSpans 0 p.segmentsBefore := by
    have h := contextSpans_put_of_le (i := 0) (j := p.textBefore.length + t.length)
      (n := p.textAfter.length) p.segmentsBefore_ne_nil
      (by change 0 + (p.textBefore.length : Int) ≤ _; omega) (Int.le_refl _)
    rwa [funext (Span.put_self _ _)] at h
  have hstart : afterInsert (p.textBefore.length + t.length) p.textAfter.length false
      p.textBefore.length = p.textBefore.length := afterInsert_of_le (by omega)
  have hstop : afterInsert (p.textBefore.length + t.length) p.textAfter.length false
      (p.textBefore.length + t.length) = p.textBefore.length + t.length :=
    afterInsert_of_le (Int.le_refl _)
  refine ⟨((front p t false).insertText (p.textBefore.length + t.length) p.textAfter).point, ?_⟩
  simp only [insertText, addSpans, front, filled, hlen, hspans, List.take_length, List.drop_length,
    List.append_nil, List.map_cons, List.map_nil, Marker.inserted, Option.map_some, hstart, hstop,
    Option.map_none]

/-- Narrowing to the region, if asked for, and going to its start. -/
private theorem filled_finish (p : Partition) (t : Text) (narrow : Bool) (point : Int) :
    ∃ b, (if narrow then (filled p t point true).narrow (.marker 0) (.marker 1)
        else (.ok (), filled p t point true)) = (.ok (), b) ∧
      b.goto (.marker 0) = .ok { p.embed narrow (ofText t) with unlocked := true } := by
  have hsize : (filled p t point true).size
      = p.textBefore.length + t.length + p.textAfter.length := by
    simp [size, filled, Int.add_assoc]
  have hstart : (filled p t point true).locate (.marker 0) = .ok p.textBefore.length := rfl
  have hstop : (filled p t point true).locate (.marker 1)
      = .ok (p.textBefore.length + t.length) := rfl
  cases narrow with
  | false =>
    have hclamp : (filled p t point true).clamp p.textBefore.length = p.textBefore.length := by
      change min (max _ 0) (filled p t point true).size = _
      omega
    refine ⟨filled p t point true, rfl, ?_⟩
    rw [goto_eq hstart, hclamp]
    simp [filled, Partition.embed, size, ofText]
  | true =>
    refine ⟨_, narrow_eq hstart hstop (by omega) (by omega) (by omega), ?_⟩
    rw [goto_eq (i := p.textBefore.length) rfl]
    have hclamp : min (max (p.textBefore.length : Int) p.textBefore.length)
        (p.textBefore.length + t.length) = p.textBefore.length := by omega
    simp only [filled, Partition.embed, size, ofText, clamp, low, high, hclamp, if_true,
      Int.add_zero]

/-- **Splicing a fresh buffer** embeds it. -/
theorem splice_ofText (hp : p.isEmpty = false) (t : Text) (narrow : Bool) :
    ∃ notices, Engine.unspliced.splice (.ofText t) (some p) narrow none
      = ⟨.ok true, p.embed narrow (.ofText t), .spliced 0 1, notices⟩ := by
  -- the blocks before go in at the start marker while both markers advance
  have hbefore := insertBefore_eq (b := opened t) (i := 0) 1 (m := 0) rfl rfl (Int.le_refl 0)
    (Int.natCast_nonneg _) (Int.le_refl 0) (Int.natCast_nonneg _) p.before
  rw [show (p.before.map Block.segmentBefore).flatten = p.textBefore from rfl,
    show p.before.map Block.segmentBefore = p.segmentsBefore from rfl, opened_insert] at hbefore
  -- those behind go in from the end marker on while both markers stay
  have hsize : (front p t false).size = p.textBefore.length + t.length := by
    simp [size, front]
  have hafter := insertAfter_eq (b := front p t false) (i := p.textBefore.length + t.length)
    (1 + p.before.length) rfl (by change (0 : Int) ≤ _; omega)
    (by rw [← hsize]; exact Int.le_refl _) (by omega) (by omega) p.after
  obtain ⟨point, hfilled⟩ := front_insert p t
  rw [show (p.after.map Block.segmentAfter).flatten = p.textAfter from rfl,
    show p.after.map Block.segmentAfter = p.segmentsAfter from rfl, hfilled] at hafter
  obtain ⟨b, hnarrow, hgoto⟩ := filled_finish p t narrow point
  -- step by step, with the markers switched in between
  have hrun : spliceText none p narrow { ofText t with unlocked := true }
      = (.ok (0, 1), { p.embed narrow (ofText t) with unlocked := true }) := by
    unfold spliceText
    rw [show (Buffer.low { ofText t with unlocked := true }) = 0 from rfl, (make_markers t).1]
    simp only
    rw [show (Buffer.high ⟨t, 0, [⟨some 0, true⟩], [], none, true, none⟩) = t.length from rfl,
      (make_markers t).2]
    simp only [hbefore]
    rw [show ((front p t true).setAdvances 0 false).setAdvances 1 false = front p t false from rfl,
      show (front p t false).locate (.marker 1) = .ok (p.textBefore.length + t.length) from rfl]
    simp only [hafter]
    rw [show (filled p t point false).setAdvances 1 true = filled p t point true from rfl]
    simp only [hnarrow, hgoto]
  unfold splice
  simp only [hp, Bool.false_eq_true, if_false, atomically, withUnlocked, hrun]
  exact ⟨_, rfl⟩

end Engine

/-! ### The desk of a session -/

namespace Desk

/-- A desk with a text and nothing else. -/
def fresh (t : Text) : Desk := ⟨.ofText t, .unspliced, []⟩

/-- The desk with context spliced around a text. -/
def spliced (p : Partition) (t : Text) (narrow : Bool) : Desk :=
  ((fresh t).take (.splice (some p) narrow none)).desk

theorem spliced_eq {p : Partition} (hp : p.isEmpty = false) (t : Text) (narrow : Bool) :
    spliced p t narrow = ⟨p.embed narrow (.ofText t), .spliced 0 1, []⟩ := by
  obtain ⟨notices, hsplice⟩ := Engine.splice_ofText hp t narrow
  unfold spliced
  simp only [fresh, take, respliced, hsplice]

end Desk

end LiterateEdit
