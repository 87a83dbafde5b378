import LiterateEdit.Proofs.Context.Layout

/-!
# Rows of spans

A row is a list of spans that lie in a text one behind another, with or without text between them.
An edit that stays away from every span of a row moves each of them as a whole, so that the row is
still a row and every span still covers the same text (`Row.edit`, `Text.under_edit`).

A text up to the end of a row is woven from the texts under the spans and what stands before each of
them (`Row.weave`); from the start of a row on, from the texts under the spans and what stands
behind each of them (`Row.weave_behind`). A tiling is a row of context with nothing in between
(`Tiles`); splicing makes two of them, one on each side of the region (`Partition.embed_tiles`).
-/

namespace LiterateEdit

/-- The text that a span covers. -/
def Text.under (t : Text) (s : Span) : Text := t.slice s.start s.stop

/-- The spans lie in the text, none is empty, and each one ends before the next one starts. -/
structure Row (t : Text) (ss : List Span) : Prop where
  inside : ∀ s ∈ ss, 0 ≤ s.start ∧ s.start < s.stop ∧ s.stop ≤ t.length
  ordered : ss.Pairwise fun s s' => s.stop ≤ s'.start

/-- Where a row ends; `i` if there is none. -/
def rowEnd (i : Int) : List Span → Int
  | [] => i
  | s :: rest => rowEnd s.stop rest

/-- Where a row starts; `k` if there is none. -/
def rowStart (k : Int) : List Span → Int
  | [] => k
  | s :: _ => s.start

variable {t u : Text} {s : Span} {ss : List Span} {i j k n : Int}

/-- A row that is not empty ends where one of its spans does, also when its spans are moved. -/
theorem rowEnd_map (f : Span → Span) (i : Int) (ss : List Span) :
    ss = [] ∨ ∃ s ∈ ss, rowEnd i ss = s.stop ∧ rowEnd i (ss.map f) = (f s).stop := by
  induction ss generalizing i with
  | nil => exact .inl rfl
  | cons s rest ih =>
    right
    cases rest with
    | nil => exact ⟨s, List.mem_cons_self, rfl, rfl⟩
    | cons s' rest =>
      obtain ⟨s₁, hs₁, hend, -⟩ := (ih s.stop).resolve_left (List.cons_ne_nil s' rest)
      obtain ⟨s₂, hs₂, hend', hmap⟩ := (ih (f s).stop).resolve_left (List.cons_ne_nil s' rest)
      exact ⟨s₂, List.mem_cons_of_mem s hs₂, hend', hmap⟩

/-! ### Edits away from a row -/

/-- A span away from an edit stays or moves as a whole. -/
theorem Span.put_away (hs : s.start < s.stop) (h : s.stop ≤ i ∨ j ≤ s.start) (hij : i ≤ j) :
    (s.stop ≤ i ∧ s.put i j n = s) ∨ (j ≤ s.start ∧ s.put i j n = s.shift (n - (j - i))) := by
  rcases h with h | h
  · exact .inl ⟨h, Span.put_of_stop_le hs h hij⟩
  · exact .inr ⟨h, Span.put_of_le_start (by omega) h⟩

/-- **A span away from an edit** covers the same text behind it. -/
theorem Text.under_edit (hs : 0 ≤ s.start ∧ s.start < s.stop ∧ s.stop ≤ t.length)
    (haway : s.stop ≤ i ∨ j ≤ s.start) (h₀ : 0 ≤ i) (hij : i ≤ j) (hj : j ≤ t.length) :
    (t.edit i j u).under (s.put i j u.length) = t.under s := by
  obtain ⟨hstart, hlt, hstop⟩ := hs
  rcases Span.put_away (n := u.length) hlt haway hij with ⟨h, hput⟩ | ⟨h, hput⟩
  · rw [hput, under, under]
    exact slice_edit_before hstart (by omega) h hij hj
  · have hshift : ∀ x : Int, x + (u.length - (j - i)) = x - (j - i) + u.length := by omega
    rw [hput, under, under, Span.shift]
    simp only [hshift]
    exact slice_edit_behind h₀ hij h (by omega) hstop

namespace Row

theorem tail (h : Row t (s :: ss)) : Row t ss :=
  ⟨fun s' hs' => h.inside s' (List.mem_cons_of_mem s hs'), (List.pairwise_cons.1 h.ordered).2⟩

/-- **An edit away from a row** leaves a row. -/
theorem edit (h : Row t ss) (haway : ∀ s ∈ ss, s.stop ≤ i ∨ j ≤ s.start) (h₀ : 0 ≤ i) (hij : i ≤ j)
    (hj : j ≤ t.length) : Row (t.edit i j u) (ss.map (Span.put i j u.length)) := by
  have hlen := Text.length_edit (u := u) h₀ hij hj
  constructor
  · intro s' hs'
    obtain ⟨s, hs, rfl⟩ := List.mem_map.1 hs'
    obtain ⟨hstart, hlt, hstop⟩ := h.inside s hs
    -- what moves stays in the text because the text grows by as much
    rcases Span.put_away (n := u.length) hlt (haway s hs) hij with ⟨hle, hput⟩ | ⟨hle, hput⟩
    · rw [hput]
      omega
    · rw [hput, Span.shift]
      simp only
      omega
  · rw [List.pairwise_map]
    refine h.ordered.imp_of_mem fun {s s'} hs hs' hle => ?_
    obtain ⟨-, hlt, -⟩ := h.inside s hs
    obtain ⟨-, hlt', -⟩ := h.inside s' hs'
    rcases Span.put_away (n := u.length) hlt (haway s hs) hij with ⟨h₁, hput⟩ | ⟨h₁, hput⟩
    · rcases Span.put_away (n := u.length) hlt' (haway s' hs') hij with ⟨h₂, hput'⟩ | ⟨h₂, hput'⟩
      · rwa [hput, hput']
      · rw [hput, hput', Span.shift]
        simp only
        omega
    · rcases Span.put_away (n := u.length) hlt' (haway s' hs') hij with ⟨h₂, hput'⟩ | ⟨h₂, hput'⟩
      · -- a span that moves cannot stand before one that stays
        omega
      · rw [hput, hput', Span.shift, Span.shift]
        simp only
        omega

theorem texts_edit (h : Row t ss) (haway : ∀ s ∈ ss, s.stop ≤ i ∨ j ≤ s.start) (h₀ : 0 ≤ i)
    (hij : i ≤ j) (hj : j ≤ t.length) :
    (ss.map (Span.put i j u.length)).map (t.edit i j u).under = ss.map t.under := by
  rw [List.map_map]
  exact List.map_congr_left fun s hs => Text.under_edit (h.inside s hs) (haway s hs) h₀ hij hj

/-- No span of a row ends behind the row. -/
theorem stop_le_rowEnd (h : Row t ss) (hs : s ∈ ss) : s.stop ≤ rowEnd i ss := by
  induction ss generalizing i s with
  | nil => cases hs
  | cons s₀ rest ih =>
    rcases List.mem_cons.1 hs with rfl | hs'
    · cases rest with
      | nil => exact Int.le_refl _
      | cons s₁ rest =>
        have hord := (List.pairwise_cons.1 h.ordered).1 s₁ List.mem_cons_self
        have hlt := (h.inside s₁ (List.mem_cons_of_mem s List.mem_cons_self)).2.1
        have hle := ih (i := s.stop) h.tail List.mem_cons_self
        rw [rowEnd]
        omega
    · exact ih h.tail hs'

theorem rowEnd_le_length (h : Row t ss) (hi : i ≤ t.length) : rowEnd i ss ≤ t.length := by
  induction ss generalizing i with
  | nil => exact hi
  | cons s rest ih => exact ih h.tail (h.inside s List.mem_cons_self).2.2

/-! ### Woven texts -/

/-- **The text up to the end of a row** is woven from the texts under the spans, each with what
stands before it. -/
theorem weave (h : Row t ss) (h₀ : 0 ≤ i) (hi : ∀ s ∈ ss, i ≤ s.start) :
    ∃ gaps : List Text, gaps.length = ss.length ∧
      t.slice i (rowEnd i ss) = (List.zipWith (· ++ ·) gaps (ss.map t.under)).flatten := by
  induction ss generalizing i with
  | nil => exact ⟨[], rfl, Text.slice_self t i⟩
  | cons s rest ih =>
    obtain ⟨-, hlt, hstop⟩ := h.inside s List.mem_cons_self
    have hstart := hi s List.mem_cons_self
    have hend : s.stop ≤ rowEnd i (s :: rest) := h.stop_le_rowEnd List.mem_cons_self
    have hsize : rowEnd i (s :: rest) ≤ t.length := h.rowEnd_le_length (by omega)
    -- the gap before the first span, the text under it, and what is woven behind it
    obtain ⟨gaps, hlen, hrest⟩ := ih h.tail (by omega) (List.pairwise_cons.1 h.ordered).1
    refine ⟨t.slice i s.start :: gaps, by rw [List.length_cons, hlen, List.length_cons], ?_⟩
    rw [List.map_cons, List.zipWith_cons_cons, List.flatten_cons, ← hrest, Text.under,
      Text.slice_concat h₀ hstart (by omega) hstop]
    exact (Text.slice_concat h₀ (by omega) hend hsize).symm

/-- **The text from the start of a row on** is woven from the texts under the spans, each with what
stands behind it. -/
theorem weave_behind (h : Row t ss) (hk : k ≤ t.length) (hstop : ∀ s ∈ ss, s.stop ≤ k) :
    ∃ gaps : List Text, gaps.length = ss.length ∧
      t.slice (rowStart k ss) k = (List.zipWith (· ++ ·) (ss.map t.under) gaps).flatten := by
  induction ss with
  | nil => exact ⟨[], rfl, Text.slice_self t k⟩
  | cons s rest ih =>
    obtain ⟨hstart, hlt, -⟩ := h.inside s List.mem_cons_self
    have hnext : s.stop ≤ rowStart k rest ∧ rowStart k rest ≤ k := by
      cases rest with
      | nil => exact ⟨hstop s List.mem_cons_self, Int.le_refl k⟩
      | cons s' rest =>
        have hord := (List.pairwise_cons.1 h.ordered).1 s' List.mem_cons_self
        have hmem : s' ∈ s :: s' :: rest := List.mem_cons_of_mem s List.mem_cons_self
        have hlt' := (h.inside s' hmem).2.1
        have hk' := hstop s' hmem
        exact ⟨hord, by rw [rowStart]; omega⟩
    -- the text under the first span, the gap behind it, and what is woven from the next one on
    obtain ⟨gaps, hlen, hrest⟩ := ih h.tail fun s' hs' => hstop s' (List.mem_cons_of_mem s hs')
    refine ⟨t.slice s.stop (rowStart k rest) :: gaps,
      by rw [List.length_cons, hlen, List.length_cons], ?_⟩
    rw [List.map_cons, List.zipWith_cons_cons, List.flatten_cons, ← hrest, Text.under, rowStart,
      Text.slice_concat hstart (by omega) hnext.1 (by omega)]
    exact (Text.slice_concat hstart (by omega) hnext.2 hk).symm

end Row

/-! ### Tilings -/

/-- The spans are context, the texts stand under them, and they cover the stretch of `t` from one
position to another without a gap. -/
inductive Tiles (t : Text) : Int → List Span → List Text → Int → Prop
  | nil (i : Int) : Tiles t i [] [] i
  | cons {s : Span} {ss : List Span} {us : List Text} {k : Int} (hlt : s.start < s.stop)
      (hprops : s.props = contextProps) (hrest : Tiles t s.stop ss us k) :
      Tiles t s.start (s :: ss) (t.under s :: us) k

namespace Tiles

variable {us : List Text}

theorem texts (h : Tiles t i ss us k) : ss.map t.under = us := by
  induction h with
  | nil i => rfl
  | cons _ _ _ ih => rw [List.map_cons, ih]

theorem props (h : Tiles t i ss us k) : ∀ s ∈ ss, s.props = contextProps := by
  induction h with
  | nil i => exact fun s hs => absurd hs List.not_mem_nil
  | cons _ hprops _ ih => exact List.forall_mem_cons.2 ⟨hprops, ih⟩

theorem rowEnd (h : Tiles t i ss us k) : rowEnd i ss = k := by
  induction h with
  | nil i => rfl
  | cons _ _ _ ih => exact ih

theorem rowStart (h : Tiles t i ss us k) : rowStart k ss = i := by
  cases h <;> rfl

theorem bounds (h : Tiles t i ss us k) :
    i ≤ k ∧ ∀ s ∈ ss, i ≤ s.start ∧ s.start < s.stop ∧ s.stop ≤ k := by
  induction h with
  | nil i => exact ⟨Int.le_refl i, fun s hs => absurd hs List.not_mem_nil⟩
  | cons hlt _ _ ih =>
    obtain ⟨hle, hall⟩ := ih
    refine ⟨by omega, List.forall_mem_cons.2 ⟨⟨Int.le_refl _, hlt, hle⟩, fun s' hs' => ?_⟩⟩
    have hs'' := hall s' hs'
    omega

/-- A tiling of a stretch of the text is a row. -/
theorem row (h : Tiles t i ss us k) (h₀ : 0 ≤ i) (hk : k ≤ t.length) : Row t ss := by
  refine ⟨fun s hs => ?_, ?_⟩
  · have hin := h.bounds.2 s hs
    omega
  · induction h with
    | nil i => exact .nil
    | cons hlt _ hrest ih =>
      exact List.pairwise_cons.2 ⟨fun s' hs' => (hrest.bounds.2 s' hs').1, ih (by omega) hk⟩

end Tiles

/-- **Context that stands in a text** is tiled by its spans. -/
theorem contextSpans_tiles {ts : List Text} (u v : Text) (hts : ∀ t ∈ ts, t ≠ []) :
    Tiles (u ++ ts.flatten ++ v) u.length (contextSpans u.length ts) ts
      (u.length + ts.flatten.length) := by
  induction ts generalizing u with
  | nil =>
    rw [List.flatten_nil, List.length_nil, Int.natCast_zero, Int.add_zero]
    exact .nil _
  | cons t rest ih =>
    have hrest := ih (u ++ t) fun u hu => hts u (List.mem_cons_of_mem t hu)
    have hpos : 0 < t.length := List.length_pos_iff.2 (hts t List.mem_cons_self)
    have hall : u ++ t ++ rest.flatten ++ v = u ++ (t :: rest).flatten ++ v := by
      rw [List.flatten_cons, List.append_assoc u t]
    have hstop : ((u ++ t).length : Int) = u.length + t.length := by
      rw [List.length_append]
      omega
    have hend : (u.length : Int) + t.length + rest.flatten.length
        = u.length + (t :: rest).flatten.length := by
      rw [List.flatten_cons, List.length_append]
      omega
    -- the first text stands right behind `u`, the others behind `u ++ t`
    have hfirst : (u ++ (t :: rest).flatten ++ v).under
        ⟨u.length, u.length + t.length, contextProps⟩ = t := by
      rw [← hall, List.append_assoc (u ++ t)]
      exact Text.slice_append _ _ _
    rw [hall, hstop, hend] at hrest
    have htiles := Tiles.cons (s := ⟨u.length, u.length + t.length, contextProps⟩)
      (by simp only; omega) rfl hrest
    rwa [hfirst] at htiles

/-- The context of an embedded buffer is tiled by its spans. -/
theorem Partition.embed_tiles (p : Partition) (narrow : Bool) (c : Buffer) :
    Tiles (p.embed narrow c).text 0 (contextSpans 0 p.segmentsBefore) p.segmentsBefore
        p.textBefore.length ∧
      Tiles (p.embed narrow c).text (p.textBefore.length + c.size)
        (contextSpans (p.textBefore.length + c.size) p.segmentsAfter) p.segmentsAfter
        (p.embed narrow c).size := by
  have hbefore := contextSpans_tiles [] (c.text ++ p.textAfter) p.segmentsBefore_ne_nil
  have hbehind := contextSpans_tiles (p.textBefore ++ c.text) [] p.segmentsAfter_ne_nil
  have hlen : ((p.textBefore ++ c.text).length : Int) = p.textBefore.length + c.size := by
    rw [List.length_append]
    rfl
  rw [List.nil_append, ← List.append_assoc, List.length_nil, Int.natCast_zero, Int.zero_add]
    at hbefore
  rw [List.append_nil, hlen] at hbehind
  rw [embed_size]
  exact ⟨hbefore, hbehind⟩

end LiterateEdit
