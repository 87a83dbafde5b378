import LiterateEdit.Proofs.Document.Replace
import LiterateEdit.Proofs.Text.IsLines

/-!
# The last write wins

Writing a text to a span of lines and then another one to the span that it has become is the same as
writing the other one at once. The lines around the span are a frame (`Frame`), and what write-back
makes of a document in a frame does not depend on the lines in it (`Frame.Holds.replaceBlock`).
Hence it is enough that the written document is in the same frame again (`Frame.Holds.written`).

What there is to show is that the new lines are cut again as they were written, whatever breaks and
fences are in them. They are lines of a text to begin with, and their indentation puts spaces before
some of them, which brings no two halves of a break together (`Replace.isLines_indented`). They end
in a line feed, as does the opening line, so that the seams of the frame are cut as well
(`Frame.lines_written`).
-/

namespace LiterateEdit

open Text

namespace Replace

variable {ls : List Text} {n : Nat}

/-! ### Indented lines -/

/-- Indented lines begin with a line feed only if they did before. -/
theorem head?_indented
    (h : (ls.map (indentLine (List.replicate n ' '))).flatten.head? = some '\n') :
    ls.flatten.head? = some '\n' := by
  induction ls with
  | nil => exact h
  | cons l ls ih =>
    obtain ⟨k, hline⟩ := exists_indentLine n l
    rw [List.map_cons, List.flatten_cons, hline] at h
    cases k with
    | zero =>
      cases l with
      | nil => exact ih h
      | cons c l => exact h
    | succ k => exact absurd (Option.some.inj h) (by decide)

/-- **Indented lines are lines**: no carriage return comes to stand before a line feed. -/
theorem isLines_indented (h : IsLines ls) (n : Nat) :
    IsLines (ls.map (indentLine (List.replicate n ' '))) := by
  induction h with
  | nil => exact .nil
  | @last l hne hl =>
    obtain ⟨k, hline⟩ := exists_indentLine n l
    rw [List.map_cons, List.map_nil, hline]
    exact .last (List.append_ne_nil_of_right_ne_nil _ hne) (unbroken_spaces k hl)
  | @cons u brk ls hu hbrk hnext hls ih =>
    -- the spaces become a part of the line, and the break stays what it was
    obtain ⟨k, hline⟩ := exists_indentLine n (u ++ brk)
    rw [List.map_cons, hline, ← List.append_assoc]
    exact .cons (unbroken_spaces k hu) hbrk (fun hcr hfeed => hnext hcr (head?_indented hfeed)) ih

/-- **What is written for a new text** are lines, under any opening line. -/
theorem isLines_newLines (opening new : Text) : IsLines (newLines opening new) := by
  have hspaces : opening.takeWhile (· = ' ')
      = List.replicate (opening.takeWhile (· = ' ')).length ' ' := by
    refine List.eq_replicate_iff.2 ⟨rfl, fun c hc => ?_⟩
    exact of_decide_eq_true (List.all_eq_true.1 List.all_takeWhile c hc)
  unfold newLines
  rw [hspaces]
  exact isLines_indented (isLines_lines _) _

end Replace

/-! ### Frames -/

/-- **What a write-back leaves alone**: the lines around the content of a span, which break at line
feeds only. -/
structure Frame where
  /-- What stands before the body. -/
  front : Text
  /-- The lines before the opening line. -/
  before : List Text
  opening : Text
  closing : Text
  /-- The lines behind the closing line. -/
  behind : List Text
  fed : ∀ l ∈ before ++ [opening], IsFed l
  cut : Cut (closing :: behind)
  closes : Replace.isClosingFence closing = true

namespace Frame

variable {F : Frame} {d d₁ : Document} {b b₁ : Block} {content : List Text}

/-- The lines of a body with some lines in the frame. -/
def lines (F : Frame) (content : List Text) : List Text :=
  F.before ++ F.opening :: (content ++ F.closing :: F.behind)

/-- The lines that are written for a text in the frame. -/
def newLines (F : Frame) (t : Text) : List Text := Replace.newLines F.opening t

/-- The body that is written for a text in the frame. -/
def body (F : Frame) (t : Text) : Text := (F.lines (F.newLines t)).flatten

/-- **The span of a block in its document is in the frame**, with some lines in it. -/
structure Holds (F : Frame) (d : Document) (b : Block) (content : List Text) : Prop where
  raw : d.raw = F.front ++ d.body
  lines : Text.lines d.body = F.lines content
  first : b.first = F.before.length
  stop : b.stop = F.before.length + 2 + content.length

/-- **A write-back does not depend on what is in the frame.** -/
theorem Holds.replaceBlock (h : F.Holds d b content) (t : Text) :
    d.replaceBlock b t = .ok (F.front ++ F.body t) := by
  have hopening : IsFed F.opening :=
    F.fed _ (List.mem_append_right _ (List.mem_singleton.2 rfl))
  have hstop : b.stop = ((F.before.length + content.length + 2 : Nat) : Int) := by
    rw [h.stop]
    omega
  have hle : F.before.length + content.length + 2 ≤ (Text.lines d.body).length := by
    rw [h.lines, Frame.lines]
    simp only [List.length_append, List.length_cons]
    omega
  unfold Document.replaceBlock
  rw [h.raw, h.first, hstop, replaceLines_eq_ok F.front d.body b.identity (by omega) hle, h.lines,
    Frame.lines, Replace.spliceLines_append (Replace.closingAt_closed F.closes _ _ _ _),
    Replace.openingLine_eq (.inr hopening)]
  rfl

/-- **The new body is cut as it was written.** -/
theorem lines_body (F : Frame) (t : Text) : Text.lines (F.body t) = F.lines (F.newLines t) := by
  -- from the inside to the outside: each seam is behind a line feed
  have hnew : IsLines (F.newLines t) := Replace.isLines_newLines F.opening t
  have hinside : IsLines (F.newLines t ++ F.closing :: F.behind) :=
    hnew.append (Replace.getLast?_newLines F.opening t) F.cut.isLines
  have hall : IsLines ((F.before ++ [F.opening]) ++ (F.newLines t ++ F.closing :: F.behind)) :=
    .append_fed F.fed hinside
  rw [List.append_assoc] at hall
  exact hall.lines_flatten

/-- **The written document is in the frame again.** -/
theorem Holds.written (t : Text) (hraw : d₁.raw = F.front ++ F.body t) (hbody : d₁.body = F.body t)
    (hfirst : b₁.first = F.before.length)
    (hstop : b₁.stop = F.before.length + 2 + (Text.lines (Replace.withFeed t)).length) :
    F.Holds d₁ b₁ (F.newLines t) where
  raw := by rw [hraw, hbody]
  lines := by rw [hbody, F.lines_body t]
  first := hfirst
  stop := by rw [hstop, newLines, Replace.newLines, List.length_map]

/-! ### The frame of a span -/

/-- The lines up to the opening line. -/
theorem Holds.take_eq (h : F.Holds d b content) :
    (Text.lines d.body).take (b.first.toNat + 1) = F.before ++ [F.opening] := by
  have hall : F.lines content
      = (F.before ++ [F.opening]) ++ (content ++ F.closing :: F.behind) := by
    rw [Frame.lines, List.append_assoc]
    rfl
  rw [h.lines, h.first, hall]
  exact List.take_left' (by simp)

/-- The lines from the closing line on. -/
theorem Holds.drop_eq (h : F.Holds d b content) :
    (Text.lines d.body).drop (b.stop - 1).toNat = F.closing :: F.behind := by
  have hall : F.lines content
      = (F.before ++ F.opening :: content) ++ F.closing :: F.behind := by
    rw [Frame.lines, List.append_assoc, List.cons_append]
  rw [h.lines, h.stop, hall]
  refine List.drop_left' ?_
  rw [List.length_append, List.length_cons]
  omega

theorem Holds.opening_eq (h : F.Holds d b content) :
    (Text.lines d.body).getD b.first.toNat [] = F.opening := by
  rw [h.lines, h.first, Frame.lines]
  exact Replace.getD_before F.before F.opening _

/-- **Every closed span is in a frame**, if the body breaks at line feeds only. -/
theorem exists_holds {front : Text} (hraw : d.raw = front ++ d.body)
    (hfeeds : ∀ c ∈ d.body, isLineBreak c = true → c = '\n') (hfirst : 0 ≤ b.first)
    (hspan : b.first < b.stop - 1) (hstop : b.stop ≤ (Text.lines d.body).length)
    (hclosing : Replace.isClosingFence ((Text.lines d.body).getD (b.stop - 1).toNat []) = true) :
    ∃ (F : Frame) (content : List Text), F.front = front ∧ F.Holds d b content := by
  have hcut : Cut (Text.lines d.body) := cut_lines hfeeds
  have hbefore : b.first.toNat < (b.stop - 1).toNat := by omega
  have hbehind : (b.stop - 1).toNat ≤ (Text.lines d.body).length := by omega
  obtain ⟨before, content, rest, hlines, hlength, hlength'⟩ := Replace.exists_split hbefore hbehind
  generalize (Text.lines d.body).getD b.first.toNat [] = opening at hlines
  have hall : Text.lines d.body = (before ++ opening :: content) ++ rest := by
    rw [hlines, List.append_assoc, List.cons_append]
  have hsize : (before ++ opening :: content).length = (b.stop - 1).toNat := by
    rw [List.length_append, List.length_cons]
    omega
  cases rest with
  | nil =>
    -- the closing line is one of the body
    rw [List.append_nil] at hall
    rw [hall, hsize] at hstop
    omega
  | cons closing behind =>
    rw [hall, ← hsize, Replace.getD_before] at hclosing
    have hfront : Text.lines d.body = (before ++ [opening]) ++ (content ++ closing :: behind) := by
      rw [hlines, List.append_assoc]
      rfl
    have hfed : ∀ l ∈ before ++ [opening], IsFed l :=
      (Cut.of_append (hfront ▸ hcut)).2 (by simp)
    have hcut' : Cut (closing :: behind) := (Cut.of_append (hall ▸ hcut)).1
    exact ⟨⟨front, before, opening, closing, behind, hfed, hcut', hclosing⟩, content, rfl,
      hraw, hlines, by rw [hlength]; omega, by rw [hlength]; omega⟩

end Frame

/-! ### The last write -/

/-- **The last write wins.** Let a body behind any front matter break at line feeds only, and let a
span of its lines end in a closing fence. Writing `t₁` to the span succeeds. The front matter is
kept, and so are the lines up to the opening line and those from the closing line on; in between are
the lines of `t₁` under the indentation of the opening line, and the new body is cut into exactly
these lines. To write `t₂` then, in any document with this text, to the span that now holds the
lines of `t₁` is to write `t₂` in the first place. -/
theorem replaceBlock_last_wins {d : Document} {b : Block} {front : Text}
    (hraw : d.raw = front ++ d.body) (hfeeds : ∀ c ∈ d.body, isLineBreak c = true → c = '\n')
    (hfirst : 0 ≤ b.first) (hspan : b.first < b.stop - 1)
    (hstop : b.stop ≤ (Text.lines d.body).length)
    (hclosing : Replace.isClosingFence ((Text.lines d.body).getD (b.stop - 1).toNat []) = true)
    (t₁ t₂ : Text) :
    ∃ body₁, d.replaceBlock b t₁ = .ok (front ++ body₁) ∧
      Text.lines body₁ = (Text.lines d.body).take (b.first.toNat + 1) ++
        Replace.newLines ((Text.lines d.body).getD b.first.toNat []) t₁ ++
          (Text.lines d.body).drop (b.stop - 1).toNat ∧
      ∀ (d₁ : Document) (b₁ : Block), d₁.raw = front ++ body₁ → d₁.body = body₁ →
        b₁.first = b.first →
        b₁.stop = b.first + 2 + (Text.lines (Replace.withFeed t₁)).length →
        d₁.replaceBlock b₁ t₂ = d.replaceBlock b t₂ := by
  obtain ⟨F, content, rfl, h⟩ := Frame.exists_holds hraw hfeeds hfirst hspan hstop hclosing
  refine ⟨F.body t₁, h.replaceBlock t₁, ?_, ?_⟩
  · rw [F.lines_body t₁, h.take_eq, h.opening_eq, h.drop_eq, List.append_assoc, List.append_assoc]
    rfl
  · intro d₁ b₁ hraw₁ hbody₁ hfirst₁ hstop₁
    -- the frame has not changed, and what was in it does not matter
    have hagain : F.Holds d₁ b₁ (F.newLines t₁) :=
      .written t₁ hraw₁ hbody₁ (hfirst₁.trans h.first) (by rw [hstop₁, h.first])
    calc d₁.replaceBlock b₁ t₂
        = .ok (F.front ++ F.body t₂) := hagain.replaceBlock t₂
      _ = d.replaceBlock b t₂ := (h.replaceBlock t₂).symm

/-- The fence of a list item behind front matter, in a body that does not end in a line feed. The
first text has breaks of three kinds, a blank line and a line that looks like a fence. -/
theorem replaceBlock_last_wins_item :
    let front := lit "---\ntags: x\n---\n"
    let body := lit "- a\n\n  ```py\n  old\n  ```\nend"
    let body₁ := lit "- a\n\n  ```py\n  x\r  y\x0b\n\n  ```\n  z\n  ```\nend"
    let document (body : Text) : Document :=
      ⟨Path.ofText (lit "doc.md"), front ++ body, body, [], []⟩
    let block (stop : Int) : Block := ⟨lit "1", none, none, [], lit "old\n", none, 2, stop⟩
    let t₁ := lit "x\ry\x0b\n\n```\nz"
    let t₂ := lit "new"
    ((∀ c ∈ body, isLineBreak c = true → c = '\n') ∧
        Replace.isClosingFence ((Text.lines body).getD 4 []) = true) ∧
      (document body).replaceBlock (block 5) t₁ = .ok (front ++ body₁) ∧
      (Text.lines (Replace.withFeed t₁)).length = 6 ∧
      (document body₁).replaceBlock (block 10) t₂ = (document body).replaceBlock (block 5) t₂ ∧
      (document body).replaceBlock (block 5) t₂
        = .ok (front ++ lit "- a\n\n  ```py\n  new\n  ```\nend") := by
  intro front body body₁ document block t₁ t₂
  have hplain : IsPlain body := by decide +kernel
  have hfeeds : ∀ c ∈ body, isLineBreak c = true → c = '\n' := fun c hc => (hplain c hc).2
  have hclosing : Replace.isClosingFence ((Text.lines body).getD 4 []) = true := by decide +kernel
  have hwritten : (document body).replaceBlock (block 5) t₁ = .ok (front ++ body₁) := by
    decide +kernel
  have hcount : (Text.lines (Replace.withFeed t₁)).length = 6 := by decide +kernel
  obtain ⟨body', hok, -, hlast⟩ := replaceBlock_last_wins (d := document body) (b := block 5) rfl
    hfeeds (by decide) (by decide) (by decide +kernel) hclosing t₁ t₂
  obtain rfl : body' = body₁ :=
    List.append_cancel_left (Except.ok.inj (hok.symm.trans hwritten))
  refine ⟨⟨hfeeds, hclosing⟩, hwritten, hcount, ?_, by decide +kernel⟩
  exact hlast (document body₁) (block 10) rfl rfl rfl (by rw [hcount]; rfl)

end LiterateEdit
