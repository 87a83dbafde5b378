import LiterateEdit.Proofs.Markdown.Inherit
import LiterateEdit.Proofs.Markdown.Outdent

/-!
# The extent of a fence

A fence is told by the numbers of its lines. Whatever containers it stands in, they are numbers of
lines of the document: the first is that of a line which holds a mark, behind whatever markers, and
the fence ends no later than some line of the document (`StandsIn`). This is inherited from the
lines of a container to those around it, as long as they are numbered one after another
(`inherited_standsIn`). And a fence takes as many lines as its content has, its opening line and at
most one line more (`Measured`), since each line of the content is one line of its text, whatever is
taken off it (`inherited_measured`).

Whoever writes to the document counts lines of its text. If these are broken by line feeds only, as
far as the fence reaches, the fence lies among them, and the line where it starts holds the mark
(`StandsIn.exists_opening`).
-/

namespace LiterateEdit.Markdown

open LiterateEdit.Text

variable {c : Context} {m : FenceMark} {l : Line} {ls ls' rest : List Line} {f : Fence} {t : Text}

/-- Does a text hold a character that marks a fence? -/
def HoldsMark (t : Text) : Prop := ∃ e ∈ t, e = '`' ∨ e = '~'

/-- The lines are numbered one after another. -/
def Increasing (ls : List Line) : Prop := (ls.map Line.number).Pairwise (· < ·)

/-- **A fence stands in lines** if its opening line is one of them and it ends no later than another
one. -/
structure StandsIn (ls : List Line) (f : Fence) : Prop where
  opening : ∃ l ∈ ls, f.first = l.number ∧ HoldsMark l.chars
  nonempty : f.first < f.stop
  last : ∃ l ∈ ls, f.stop ≤ l.number + 1

/-! ### All fences stand in lines -/

theorem Increasing.of_suffix (hsuffix : ls' <:+ ls) (h : Increasing ls) : Increasing ls' :=
  h.sublist (hsuffix.map Line.number).sublist

theorem Increasing.of_prefix (hnumbers : ls'.map Line.number <+: ls.map Line.number)
    (h : Increasing ls) : Increasing ls' :=
  h.sublist hnumbers.sublist

/-- What stands in lines stands in those that they are left of. -/
theorem StandsIn.of_leftOf (hleft : ∀ q ∈ ls', ∃ l ∈ ls, q.LeftOf l) (h : StandsIn ls' f) :
    StandsIn ls f := by
  obtain ⟨⟨q, hq, hfirst, e, he, hmark⟩, hspan, ⟨q', hq', hlast⟩⟩ := h
  obtain ⟨l, hl, hnumber, hchars⟩ := hleft q hq
  obtain ⟨l', hl', hnumber', -⟩ := hleft q' hq'
  exact ⟨⟨l, hl, hnumber ▸ hfirst, e, hchars e he, hmark⟩, hspan, ⟨l', hl', hnumber' ▸ hlast⟩⟩

/-- As many lines further on the numbers are at least as much greater. -/
private theorem exists_le_number (h : Increasing (l :: rest)) {n : Nat} (hn : n ≤ rest.length) :
    ∃ k ∈ l :: rest, l.number + n ≤ k.number := by
  induction rest generalizing l n with
  | nil =>
    obtain rfl := Nat.le_zero.1 hn
    exact ⟨l, List.mem_cons_self, Nat.le_refl _⟩
  | cons next rest ih =>
    cases n with
    | zero => exact ⟨l, List.mem_cons_self, Nat.le_refl _⟩
    | succ n =>
      obtain ⟨hbehind, hrest⟩ := List.pairwise_cons.1 h
      obtain ⟨k, hk, hle⟩ := ih hrest (Nat.le_of_succ_le_succ hn)
      have hlt : l.number < next.number := hbehind _ List.mem_cons_self
      exact ⟨k, List.mem_cons_of_mem l hk, by omega⟩

/-- A fence that is read off lines stands in them. -/
private theorem standsIn_read (h : Increasing (l :: rest)) (hm : FenceMark.ofLine? c l = some m) :
    StandsIn (l :: rest) (m.read c l rest).1 := by
  obtain ⟨hmarker, -, hhead⟩ := FenceMark.of_ofText? (FenceMark.of_ofLine? hm)
  refine ⟨⟨l, List.mem_cons_self, rfl, m.marker, ?_, hmarker⟩, ?_, ?_⟩
  · exact List.mem_of_mem_drop (List.mem_of_mem_head? hhead)
  · rw [m.stop_read]
    change (l.number : Int) < _
    omega
  · obtain ⟨k, hk, hle⟩ := exists_le_number h (m.read_le c l rest)
    refine ⟨k, hk, ?_⟩
    rw [m.stop_read]
    omega

/-- Fences in a container stand in the lines around it. -/
theorem inherited_standsIn : Inherited fun ls f => Increasing ls → StandsIn ls f where
  suffix hsuffix h hls :=
    (h (hls.of_suffix hsuffix)).of_leftOf fun q hq => ⟨q, hsuffix.mem hq, q.leftOf_refl⟩
  read _ hm hls := standsIn_read hls hm
  quote hquote h hls :=
    (h (hls.of_prefix (map_quotation _ (fun _ => rfl) (fun _ => rfl) _ _ _))).of_leftOf fun _ hq =>
      exists_leftOf_of_mem_quotation hquote hq
  item {m l rest f} _ h hls := by
    refine (h (hls.of_prefix List.prefix_rfl)).of_leftOf (List.forall_mem_cons.2 ⟨?_, ?_⟩)
    · exact ⟨l, List.mem_cons_self, m.leftOf_item l⟩
    · exact fun q hq => ⟨q, List.mem_cons_of_mem l hq, q.leftOf_refl⟩

/-- **All fences of a document stand in its lines.** -/
theorem standsIn_fences {dialect : Dialect} (hf : f ∈ fences dialect t) : StandsIn (lines t) f := by
  unfold fences at hf
  split at hf
  · exact inherited_standsIn.finds_fencesWithin _ _ _ f hf (pairwise_linesFrom 0 t)
  · exact absurd hf List.not_mem_nil

/-! ### All fences are as long as their content -/

/-- A line as it is read: without line feed, and with no gap at the start of its content. -/
structure Line.IsRead (l : Line) : Prop where
  unbroken : '\n' ∉ l.chars
  led : ∀ d, l.body.head? = some d → isGap d = false

/-- Lines as they are read: only the last one may lack its line feed. -/
structure AreRead (ls : List Line) : Prop where
  each : ∀ l ∈ ls, l.IsRead
  fed : ls.Pairwise fun l _ => l.terminated = true

/-- **A fence is measured by its content**: it takes its opening line, the lines of the content, and
at most one line that closes it. -/
def Measured (f : Fence) : Prop :=
  f.stop = f.first + 1 + (feedLines f.content).length ∨
    f.stop = f.first + 1 + (feedLines f.content).length + 1

private theorem head?_lead (s w : Nat) {d : Char} (h : (t.drop (lead s w t).1).head? = some d) :
    isGap d = false := by
  induction t generalizing w with
  | nil => cases h
  | cons e t ih =>
    rw [lead] at h
    split at h
    · exact ih _ h
    · next he =>
      obtain rfl := Option.some.inj h
      exact Bool.eq_false_iff.2 he

theorem Line.isRead_ofText (k : Nat) (b : Bool) (ht : '\n' ∉ t) : (Line.ofText k b t).IsRead :=
  ⟨ht, fun _ => head?_lead 0 0⟩

theorem Line.IsRead.unquoted (h : l.IsRead) : l.unquoted.IsRead :=
  ⟨fun hmem => h.unbroken (l.leftOf_unquoted.2 _ hmem), fun _ => head?_lead _ 0⟩

theorem Line.IsRead.continued (h : l.IsRead) : l.continued.IsRead := ⟨h.unbroken, h.led⟩

theorem Line.IsRead.item (h : l.IsRead) (m : ListMark) : (m.item l).1.IsRead := by
  refine ⟨h.unbroken, fun d hd => ?_⟩
  change (l.chars.drop (l.shift + m.length + _)).head? = some d at hd
  rw [← List.drop_drop, ← List.drop_drop] at hd
  exact head?_lead _ 0 hd

/-- A line of the content is a line of its text, and ended by a line feed if it was. -/
private theorem outdented_of_holds (h : l.IsRead) (hholds : m.holds c l = true) (n : Nat) :
    (l.terminated = true → IsFeedLine (l.outdented n)) ∧
      (IsFeedLine (l.outdented n) ∨ l.outdented n ≠ [] ∧ '\n' ∉ l.outdented n) := by
  obtain ⟨added, rest, hdrop, hrest, hbody⟩ :=
    Line.exists_dropColumns_suffix l.column n l.shift 0 l.chars
  have hunbroken : '\n' ∉ List.replicate added ' ' ++ rest := by
    rw [List.mem_append]
    rintro (hmem | hmem)
    · exact absurd (List.eq_of_mem_replicate hmem) (by decide)
    · exact h.unbroken (hrest.mem hmem)
  rw [Line.outdented, hdrop]
  cases hfed : l.terminated with
  | true => exact ⟨fun _ => ⟨_, hunbroken, rfl⟩, .inl ⟨_, hunbroken, rfl⟩⟩
  | false =>
    refine ⟨fun hfed => (Bool.false_ne_true hfed).elim, .inr ?_⟩
    rw [if_neg Bool.false_ne_true, List.append_nil]
    refine ⟨fun hnil => ?_, hunbroken⟩
    -- a line without line feed is content only if it is not empty, and what it holds is kept
    have hempty : l.body = [] :=
      List.suffix_nil.1 ((List.append_eq_nil_iff.1 hnil).2 ▸ hbody h.led)
    rw [FenceMark.holds, Line.isEmpty, hempty, hfed] at hholds
    cases hholds

private theorem measured_read (h : AreRead (l :: rest)) : Measured (m.read c l rest).1 := by
  obtain ⟨content, behind, rfl, hholds, -, hbehind⟩ := m.exists_content c rest
  have hline (k : Line) (hk : k ∈ content) := outdented_of_holds
    (h.each k (List.mem_cons_of_mem l (List.mem_append_left behind hk))) (hholds k hk)
    l.indent.toNat
  have hfed : (content.map (Line.outdented l.indent.toNat)).Pairwise fun t _ => IsFeedLine t := by
    rw [List.pairwise_map]
    have hcontent := (List.pairwise_append.1 (List.pairwise_cons.1 h.fed).2).1
    exact hcontent.imp_of_mem fun hk _ hterminated => (hline _ hk).1 hterminated
  have hlength : (feedLines (content.map (Line.outdented l.indent.toNat)).flatten).length =
      content.length := by
    rw [feedLines_flatten hfed (List.forall_mem_map.2 fun k hk => (hline k hk).2), List.length_map]
  rw [Measured, FenceMark.read_append hholds hbehind]
  dsimp only
  rw [hlength]
  split
  · exact .inr (by omega)
  · exact .inl rfl

/-- Fences in a container are measured as well. -/
theorem inherited_measured : Inherited fun ls f => AreRead ls → Measured f where
  suffix hsuffix h hls :=
    h ⟨fun l hl => hls.each l (hsuffix.mem hl), hls.fed.sublist hsuffix.sublist⟩
  read _ _ hls := measured_read hls
  quote {c l rest f} hquote h hls := by
    refine h ⟨fun q hq => ?_, ?_⟩
    · obtain ⟨k, hk, ⟨-, rfl⟩ | rfl⟩ := mem_quotation hquote hq
      · exact (hls.each k hk).unquoted
      · exact (hls.each k hk).continued
    · have hfed : ((l :: rest).map Line.terminated).Pairwise fun b _ => b = true :=
        List.pairwise_map.2 hls.fed
      exact List.pairwise_map.1 (hfed.sublist
        (map_quotation _ (fun _ => rfl) (fun _ => rfl) c l rest).sublist)
  item {m l rest f} _ h hls := by
    refine h ⟨List.forall_mem_cons.2 ⟨?_, ?_⟩, List.pairwise_cons.2 (List.pairwise_cons.1 hls.fed)⟩
    · exact (hls.each l List.mem_cons_self).item m
    · exact fun k hk => hls.each k (List.mem_cons_of_mem l hk)

/-- **All fences of a document are measured by their content.** -/
theorem measured_fences {dialect : Dialect} (hf : f ∈ fences dialect t) : Measured f := by
  unfold fences at hf
  split at hf
  · refine inherited_measured.finds_fencesWithin _ _ _ f hf
      ⟨fun l hl => ?_, pairwise_terminated_linesFrom 0 t⟩
    obtain ⟨-, b, u, hu, hline⟩ := mem_linesFrom (k := 0) hl
    rw [hline]
    exact Line.isRead_ofText _ b hu
  · exact absurd hf List.not_mem_nil

/-! ### Among the lines of text -/

/-- **The lines of text that a fence takes**, if they are broken by line feeds only: there are as
many as it says, and the first holds a mark. -/
theorem StandsIn.exists_opening (h : StandsIn (lines t) f)
    (hlines : ∀ l ∈ (Text.lines t).take f.stop.toNat, FeedBroken l) :
    ∃ first stop : Nat, f.first = first ∧ f.stop = stop ∧ first < stop ∧
      stop ≤ (Text.lines t).length ∧ HoldsMark ((Text.lines t).getD first []) := by
  obtain ⟨⟨l, hl, hfirst, e, he, hmark⟩, hspan, ⟨l', hl', hlast⟩⟩ := h
  obtain ⟨stop, hstop⟩ : ∃ stop : Nat, f.stop = stop := ⟨f.stop.toNat, by omega⟩
  rw [hstop, Int.toNat_natCast] at hlines
  obtain ⟨near, hnear, hmem⟩ := exists_linesFrom_take 0 hlines
  change lines t = _ at hnear
  rw [Nat.zero_add] at hnear
  rw [hnear] at hl hl'
  -- behind the end of the text there are no lines
  have hle : stop ≤ (Text.lines t).length := by
    refine Nat.le_of_not_lt fun hlt => ?_
    have hnone : (Text.lines t).drop stop = [] := List.drop_eq_nil_of_le (Nat.le_of_lt hlt)
    rw [hnone, List.flatten_nil, linesFrom_nil, List.append_nil] at hl'
    obtain ⟨i, u, hnumber, hu, -⟩ := hmem l' hl'
    have hi := (List.getElem?_eq_some_iff.1 hu).1
    rw [List.length_take] at hi
    omega
  refine ⟨l.number, stop, hfirst, hstop, by omega, hle, e, ?_, hmark⟩
  rcases List.mem_append.1 hl with hl | hl
  · obtain ⟨i, u, hnumber, hu, hchars⟩ := hmem l hl
    rw [List.getElem?_take, Option.ite_none_right_eq_some] at hu
    rw [hnumber, Nat.zero_add, List.getD_eq_getElem?_getD, hu.2]
    exact hchars e he (by rcases hmark with rfl | rfl <;> decide)
  · have hbehind := (mem_linesFrom hl).1
    rw [List.length_take_of_le hle] at hbehind
    omega

end LiterateEdit.Markdown
