import LiterateEdit.Proofs.Context.Layout
import LiterateEdit.Proofs.Script.Run

/-!
# Taking the context away

Unsplicing looks at nothing but the two markers of the region. While they are in order it succeeds,
whatever else the buffer went through: the protection is lifted and the view given up for it
(`unsplice_eq`). What is left is the text between the markers (`stripped_text`), without a view, and
without spans if none of them reached into the region (`stripped_spans`).

`Desk.offset?` reads a position of a script in the region, and `Desk.UnsplicesTo` says what the last
step of a session leaves of a desk.
-/

namespace LiterateEdit

namespace Engine

open Buffer

variable {e : Engine} {b : Buffer} {m m' : MarkerId} {lo hi : Int}

/-- The buffer without what lies outside the region, before the markers are given up. -/
def stripped (b : Buffer) (lo hi : Int) : Buffer :=
  { (b.widen.cut hi b.size).cut 0 lo with point := 0 }

/-- **The edits cannot fail while the markers are in order**: what lies behind the region is cut
off, and then what lies before it. -/
theorem unspliceText_ok (h : (Engine.spliced m m').region? b = some (lo, hi)) :
    unspliceText none m m' { b with unlocked := true }
      = (.ok (), { stripped b lo hi with unlocked := true }) := by
  obtain ⟨hm, hm', h₀, hle, hsize⟩ := region?_eq_some_iff.1 h
  let b₁ : Buffer := ({ b with unlocked := true } : Buffer).widen
  -- the tail goes first
  have htail : b₁.delete (.marker m') (.at b₁.size)
      = .ok (b₁.cut hi b.size, b₁.slice hi b.size) := by
    refine delete_eq_ok_iff.2 ⟨hi, b.size, locate_marker hm', rfl, ?_⟩
    have hmin : min hi b.size = hi := by omega
    have hmax : max hi b.size = b.size := by omega
    rw [hmin, hmax]
    refine ⟨⟨?_, ?_⟩, fun _ => .inl rfl, rfl⟩
    · change 0 ≤ hi
      omega
    · exact Int.le_refl b.size
  -- and leaves the start of the region where it is
  have hstart : (b₁.cut hi b.size).markerPosition m = some lo := by
    have hcut := markerPosition_cut (b := b₁) (i := hi) (j := b.size) hm
    rwa [afterDelete_of_le hle hsize] at hcut
  have hview : (b₁.cut hi b.size).view = none := cut_view_none rfl
  have hlen : (b₁.cut hi b.size).size = b.size - (b.size - hi) :=
    cut_size (by omega) hsize (Int.le_refl b.size)
  have hhead : (b₁.cut hi b.size).delete (.at 0) (.marker m)
      = .ok ((b₁.cut hi b.size).cut 0 lo, (b₁.cut hi b.size).slice 0 lo) := by
    refine delete_eq_ok_iff.2 ⟨0, lo, rfl, locate_marker hstart, ?_⟩
    have hmin : min 0 lo = 0 := by omega
    have hmax : max 0 lo = lo := by omega
    rw [hmin, hmax]
    refine ⟨⟨?_, ?_⟩, fun _ => .inl cut_unlocked, rfl⟩
    · simp only [low, hview, Int.le_refl]
    · simp only [high, hview]
      omega
  have hgoto : ((b₁.cut hi b.size).cut 0 lo).goto (.at 0)
      = .ok { (b₁.cut hi b.size).cut 0 lo with point := 0 } := by
    have hclamp : ((b₁.cut hi b.size).cut 0 lo).clamp 0 = 0 := by
      have hview' : ((b₁.cut hi b.size).cut 0 lo).view = none := cut_view_none hview
      have hpos := size_nonneg ((b₁.cut hi b.size).cut 0 lo)
      simp only [clamp, low, high, hview']
      omega
    rw [goto_eq (locate_at _ 0), hclamp]
  -- a cut does not look at the protection
  have hflag : ({ (b₁.cut hi b.size).cut 0 lo with point := 0 } : Buffer)
      = { stripped b lo hi with unlocked := true } := by
    have hcut : ∀ (c : Buffer) (i j : Int), ({ c with unlocked := true } : Buffer).cut i j
        = { c.cut i j with unlocked := true } := by
      intro c i j
      unfold cut
      split <;> rfl
    rw [show b₁ = { b.widen with unlocked := true } from rfl, hcut, hcut, stripped]
  unfold unspliceText deleteStep
  simp only [reduceCtorEq, if_false]
  rw [show ({ b with unlocked := true } : Buffer).widen = b₁ from rfl, htail]
  simp only [hhead, hgoto, hflag]

theorem stripped_unlocked (b : Buffer) (lo hi : Int) :
    (stripped b lo hi).unlocked = b.unlocked := by
  change ((b.widen.cut hi b.size).cut 0 lo).unlocked = b.unlocked
  rw [cut_unlocked, cut_unlocked]
  rfl

/-- **Unsplicing cannot fail while the markers are in order**: only the region is left, and the
markers are given up. -/
theorem unsplice_eq (h : (Engine.spliced m m').region? b = some (lo, hi)) :
    ∃ notices, (Engine.spliced m m').unsplice b none
      = ⟨.ok true, ((stripped b lo hi).deleteMarker m).deleteMarker m', .unspliced, notices⟩ := by
  -- the protection is as before in the end
  have hflag : ({ stripped b lo hi with unlocked := b.unlocked } : Buffer) = stripped b lo hi := by
    rw [← stripped_unlocked b lo hi]
  unfold unsplice
  simp only [h, atomically, withUnlocked, unspliceText_ok h, hflag]
  exact ⟨_, rfl⟩

/-- Nothing but the region is left. -/
theorem stripped_text (h₀ : 0 ≤ lo) (hle : lo ≤ hi) (hsize : hi ≤ b.size) :
    (stripped b lo hi).text = b.slice lo hi := by
  have hlen : (b.widen.cut hi b.size).size = hi := by
    rw [cut_size (b := b.widen) (by omega) hsize (Int.le_refl b.size)]
    change b.size - (b.size - hi) = hi
    omega
  change ((b.widen.cut hi b.size).cut 0 lo).text = b.text.slice lo hi
  rw [cut_text h₀ (by omega), cut_text (b := b.widen) hsize (Int.le_refl b.size),
    Text.slice_eq h₀ hle hsize, Text.edit, Text.edit, List.append_nil, List.append_nil,
    Int.toNat_zero, List.take_zero, List.nil_append]
  -- the first cut goes up to the end of the text
  have hdrop : b.widen.text.drop b.size.toNat = [] :=
    List.drop_eq_nil_of_le (by change b.text.length ≤ b.size.toNat; simp [size])
  rw [hdrop, List.append_nil, List.drop_take]
  rfl

theorem mem_cut_spans {i j : Int} {s : Span} (hne : ∀ s ∈ b.spans, s.start < s.stop)
    (h : s ∈ (b.cut i j).spans) : s.start < s.stop ∧ ∃ s' ∈ b.spans, s = s'.deleted i j := by
  unfold cut at h
  split at h
  · next heq =>
    subst heq
    exact ⟨hne s h, s, h, (Span.deleted_self i s).symm⟩
  · obtain ⟨hs, hlt⟩ := List.mem_filter.1 h
    obtain ⟨s', hs', rfl⟩ := List.mem_map.1 hs
    exact ⟨of_decide_eq_true hlt, s', hs', rfl⟩

/-- No span is left if none reached into the region. -/
theorem stripped_spans (hne : ∀ s ∈ b.spans, 0 ≤ s.start ∧ s.start < s.stop ∧ s.stop ≤ b.size)
    (hout : ∀ s ∈ b.spans, s.stop ≤ lo ∨ hi ≤ s.start) (hle : lo ≤ hi) (hsize : hi ≤ b.size) :
    (stripped b lo hi).spans = [] := by
  refine List.eq_nil_iff_forall_not_mem.2 fun s hs => ?_
  have hne₁ : ∀ s ∈ (b.widen.cut hi b.size).spans, s.start < s.stop := fun s hs =>
    (mem_cut_spans (b := b.widen) (fun s hs => (hne s hs).2.1) hs).1
  obtain ⟨hlt, s₁, hs₁, rfl⟩ := mem_cut_spans hne₁ hs
  obtain ⟨hlt₁, s₂, hs₂, rfl⟩ :=
    mem_cut_spans (b := b.widen) (fun s hs => (hne s hs).2.1) hs₁
  obtain ⟨h₀, hlt₂, hstop⟩ := hne s₂ hs₂
  simp only [Span.deleted] at hlt hlt₁
  rcases hout s₂ hs₂ with hside | hside
  · -- a span before the region is emptied by the second cut
    rw [afterDelete_of_le (p := s₂.start) (by omega) hsize, afterDelete_of_le (by omega) hsize,
      afterDelete_of_mem (by omega) (by omega), afterDelete_of_mem (by omega) hside] at hlt
    omega
  · -- and one behind it by the first
    rw [afterDelete_of_mem hside (by omega), afterDelete_of_mem (by omega) hstop] at hlt₁
    omega

theorem stripped_file (b : Buffer) (lo hi : Int) : (stripped b lo hi).file = b.file := by
  change ((b.widen.cut hi b.size).cut 0 lo).file = b.file
  rw [← put_nil, put_file, ← put_nil, put_file]
  rfl

theorem stripped_view (b : Buffer) (lo hi : Int) : (stripped b lo hi).view = none :=
  cut_view_none (cut_view_none rfl)

end Engine

/-! ### The region of a desk -/

namespace Desk

variable {d : Desk} {lo hi x : Int} {r : Ref}

/-- How many characters behind the start of the region a position is, if it lies in the region. -/
def offset? (d : Desk) (r : Ref) : Option Int :=
  match d.engine.region? d.buffer, d.place r with
  | some (lo, hi), .ok n => if lo ≤ n ∧ n ≤ hi then some (n - lo) else none
  | _, _ => none

theorem offset?_eq_some_iff (h : d.engine.region? d.buffer = some (lo, hi)) :
    d.offset? r = some x ↔ d.place r = .ok (lo + x) ∧ 0 ≤ x ∧ lo + x ≤ hi := by
  rw [offset?, h]
  cases hplace : d.place r with
  | error e =>
    constructor
    · intro hx
      cases hx
    · rintro ⟨hx, -⟩
      cases hx
  | ok n =>
    simp only [Option.ite_none_right_eq_some, Option.some.injEq, Except.ok.injEq]
    omega

/-- An accepted edit outside the region names a position outside. -/
theorem Accepts.exists_outside {s : Step} {i j : Int} {t : Text} {ss : List Span} {v : StepResult}
    (ha : d.Accepts s i j t ss v) (h : d.engine.region? d.buffer = some (lo, hi))
    (hout : ¬(lo ≤ i ∧ j ≤ hi)) : ∃ r ∈ s.refs, d.offset? r = none := by
  by_contra hall
  refine hout (ha.within lo hi fun r hr => ?_)
  obtain ⟨x, hx⟩ := Option.ne_none_iff_exists'.1 fun hnone => hall ⟨r, hr, hnone⟩
  obtain ⟨hplace, hx₀, hxhi⟩ := (offset?_eq_some_iff h).1 hx
  exact ⟨lo + x, hplace, by omega, hxhi⟩

/-! ### The last step of a session -/

/-- Unsplicing the desk succeeds and leaves a text, without a view. -/
structure UnsplicesTo (d : Desk) (t : Text) : Prop where
  outcome : (d.take (.unsplice none)).outcome = .ok (.truth true)
  engine : (d.take (.unsplice none)).desk.engine = .unspliced
  text : (d.take (.unsplice none)).desk.buffer.text = t
  view : (d.take (.unsplice none)).desk.buffer.view = none

theorem region?_bounds (h : d.engine.region? d.buffer = some (lo, hi)) :
    0 ≤ lo ∧ lo ≤ hi ∧ hi ≤ d.buffer.size := by
  obtain ⟨buffer, engine, markers⟩ := d
  cases engine with
  | unspliced => cases h
  | spliced m m' => exact (Engine.region?_eq_some_iff.1 h).2.2

theorem take_unsplice (h : d.engine.region? d.buffer = some (lo, hi)) :
    ∃ m m' notices, d.take (.unsplice none)
      = ⟨.ok (.truth true),
          { d with
            buffer := ((Engine.stripped d.buffer lo hi).deleteMarker m).deleteMarker m'
            engine := .unspliced }, notices⟩ := by
  obtain ⟨buffer, engine, markers⟩ := d
  cases engine with
  | unspliced => cases h
  | spliced m m' =>
    obtain ⟨notices, hun⟩ := Engine.unsplice_eq h
    refine ⟨m, m', notices, ?_⟩
    simp only [take, respliced, hun]
    rfl

/-- **A desk with a region can be unspliced**, and the region is what is left. -/
theorem unsplicesTo (h : d.engine.region? d.buffer = some (lo, hi)) :
    d.UnsplicesTo (d.buffer.slice lo hi) := by
  obtain ⟨m, m', notices, htake⟩ := take_unsplice h
  obtain ⟨h₀, hle, hsize⟩ := region?_bounds h
  constructor
  · rw [htake]
  · rw [htake]
  · rw [htake]
    exact Engine.stripped_text h₀ hle hsize
  · rw [htake]
    exact Engine.stripped_view d.buffer lo hi

/-- No span is left on the desk if none reached into the region. -/
theorem unsplice_spans (h : d.engine.region? d.buffer = some (lo, hi))
    (hne : ∀ s ∈ d.buffer.spans, 0 ≤ s.start ∧ s.start < s.stop ∧ s.stop ≤ d.buffer.size)
    (hout : ∀ s ∈ d.buffer.spans, s.stop ≤ lo ∨ hi ≤ s.start) :
    (d.take (.unsplice none)).desk.buffer.spans = [] := by
  obtain ⟨m, m', notices, htake⟩ := take_unsplice h
  obtain ⟨-, hle, hsize⟩ := region?_bounds h
  rw [htake]
  exact Engine.stripped_spans hne hout hle hsize

end Desk

end LiterateEdit
