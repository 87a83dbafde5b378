import LiterateEdit.Text.ShellWords

/-!
# Words that are written and read back

A word is written for the reader of shell words by putting it between single quotes
(`singleQuoted`). A single quote of its own cannot stand there: it ends the quotes, stands between
double quotes, and starts the quotes again. A word of safe characters only may also stand as it is
(`shellQuoted`).

A way of writing is one that the reader undoes (`Undone`): behind a written word the reader stands
in that word, whatever comes next. Both ways are (`undone_singleQuoted`, `undone_shellQuoted`). A
blank behind a text that the reader can read ends its last word (`shellWordsFrom_append_gap`), so
that words may be written behind any such text, one blank before each, and are read behind its own
words (`shellWords_append`). Words that are joined by blanks are the case of no text before them
(`shellWords_join`).
-/

namespace LiterateEdit.Text

variable {c : Char} {t u w : Text} {ws : List Text} {m : ShellMode} {quote : Text → Text}

/-! ### Writing a word -/

/-- What stands for a character between single quotes. -/
def singleQuotedChar (c : Char) : Text := if c = '\'' then ['\'', '"', '\'', '"', '\''] else [c]

/-- A word between single quotes. -/
def singleQuoted (w : Text) : Text := '\'' :: (w.flatMap singleQuotedChar ++ ['\''])

/-- May `c` stand in a word outside quotes? The letters and digits of ASCII and a few signs may. -/
def isShellSafe (c : Char) : Bool :=
  isAsciiLetter c || isAsciiDigit c || (lit "_@%+=:,./-").contains c

/-- A word as it is if all its characters are safe, and between single quotes otherwise. -/
def shellQuoted (w : Text) : Text := if !w.isEmpty && w.all isShellSafe then w else singleQuoted w

/-- A way of writing words that the reader undoes, whatever stands behind the word. -/
def Undone (quote : Text → Text) : Prop :=
  ∀ w rest, shellWordsFrom .gap (quote w ++ rest) = shellWordsFrom (.word w) rest

/-! ### Reading it back -/

/-- Between single quotes the reader takes what stands for a character as that character. -/
theorem shellWordsFrom_singleQuotedChar (u : Text) (c : Char) (rest : Text) :
    shellWordsFrom (.single u) (singleQuotedChar c ++ rest)
      = shellWordsFrom (.single (u ++ [c])) rest := by
  unfold singleQuotedChar
  split
  · -- out of the quotes, a quoted quote, and back into the quotes
    next hquote =>
    subst hquote
    rfl
  · next hquote =>
    rw [List.singleton_append, shellWordsFrom, if_neg hquote]

theorem shellWordsFrom_flatMap_singleQuotedChar (u w rest : Text) :
    shellWordsFrom (.single u) (w.flatMap singleQuotedChar ++ rest)
      = shellWordsFrom (.single (u ++ w)) rest := by
  induction w generalizing u with
  | nil => rw [List.flatMap_nil, List.nil_append, List.append_nil]
  | cons c w ih =>
    rw [List.flatMap_cons, List.append_assoc, shellWordsFrom_singleQuotedChar, ih,
      List.append_assoc, List.singleton_append]

theorem undone_singleQuoted : Undone singleQuoted := by
  intro w rest
  have hopen : shellWordsFrom .gap (singleQuoted w ++ rest)
      = shellWordsFrom (.single []) (w.flatMap singleQuotedChar ++ '\'' :: rest) := by
    rw [singleQuoted, List.cons_append, List.append_assoc]
    rfl
  rw [hopen, shellWordsFrom_flatMap_singleQuotedChar, List.nil_append, shellWordsFrom, if_pos rfl]

/-- No character that separates words or opens a piece of one is safe. -/
theorem ne_of_isShellSafe (h : isShellSafe c = true) {d : Char} (hd : isShellSafe d = false) :
    c ≠ d := by
  rintro rfl
  exact Bool.false_ne_true (hd.symm.trans h)

theorem isShellGap_of_isShellSafe (h : isShellSafe c = true) : isShellGap c = false := by
  have hblank : c ≠ ' ' := ne_of_isShellSafe h (by decide)
  have htab : c ≠ '\t' := ne_of_isShellSafe h (by decide)
  have hreturn : c ≠ '\r' := ne_of_isShellSafe h (by decide)
  have hfeed : c ≠ '\n' := ne_of_isShellSafe h (by decide)
  simp [isShellGap, hblank, htab, hreturn, hfeed]

theorem outside_of_isShellSafe (h : isShellSafe c = true) (u : Text) :
    ShellMode.outside u c = .word (u ++ [c]) := by
  have hescape : c ≠ '\\' := ne_of_isShellSafe h (by decide)
  have hsingle : c ≠ '\'' := ne_of_isShellSafe h (by decide)
  have hdouble : c ≠ '"' := ne_of_isShellSafe h (by decide)
  rw [ShellMode.outside, if_neg hescape, if_neg hsingle, if_neg hdouble]

/-- Characters that are safe are read as they are. -/
theorem shellWordsFrom_word_safe (h : ∀ c ∈ w, isShellSafe c = true) (u rest : Text) :
    shellWordsFrom (.word u) (w ++ rest) = shellWordsFrom (.word (u ++ w)) rest := by
  induction w generalizing u with
  | nil => rw [List.nil_append, List.append_nil]
  | cons c w ih =>
    obtain ⟨hc, hw⟩ := List.forall_mem_cons.1 h
    rw [List.cons_append, shellWordsFrom, isShellGap_of_isShellSafe hc, if_neg Bool.false_ne_true,
      outside_of_isShellSafe hc, ih hw, List.append_assoc, List.singleton_append]

theorem undone_shellQuoted : Undone shellQuoted := by
  intro w rest
  unfold shellQuoted
  split
  · next hsafe =>
    rw [Bool.and_eq_true, List.all_eq_true] at hsafe
    obtain ⟨hne, hall⟩ := hsafe
    cases w with
    | nil => cases hne
    | cons c w =>
      obtain ⟨hc, hw⟩ := List.forall_mem_cons.1 hall
      rw [List.cons_append, shellWordsFrom, isShellGap_of_isShellSafe hc, if_neg Bool.false_ne_true,
        outside_of_isShellSafe hc, shellWordsFrom_word_safe hw, List.nil_append,
        List.singleton_append]
  · exact undone_singleQuoted w rest

/-- The shell undoes both ways of quoting. -/
theorem undone_of_mem (h : quote ∈ [singleQuoted, shellQuoted]) : Undone quote := by
  rcases List.mem_cons.1 h with rfl | h
  · exact undone_singleQuoted
  · rw [List.mem_singleton.1 h]
    exact undone_shellQuoted

/-! ### Words behind words -/

/-- **A blank ends what is read before it.** What stands behind the blank is read for itself. -/
theorem shellWordsFrom_append_gap (h : shellWordsFrom m t = some ws) (u : Text) :
    shellWordsFrom m (t ++ ' ' :: u) = (shellWords u).map (ws ++ ·) := by
  fun_induction shellWordsFrom m t generalizing ws with
  | case1 =>
    -- between two words
    obtain rfl := Option.some.inj h
    simp only [List.nil_append, Option.map_id']
    rfl
  | case2 w =>
    -- in a word, which the blank ends
    obtain rfl := Option.some.inj h
    rfl
  | case3 | case4 | case5 | case6 => cases h
  | case7 c t ih => exact ih h
  | case8 w c t hgap ih =>
    obtain ⟨rest, hrest, rfl⟩ := Option.map_eq_some_iff.1 h
    rw [List.cons_append, shellWordsFrom, if_pos hgap, ih hrest, Option.map_map]
    rfl
  | case9 w c t hgap ih =>
    rw [List.cons_append, shellWordsFrom, if_neg hgap, ih h]
  | case10 w c t ih => exact ih h
  | case11 w c t ih => exact ih h
  | case12 w c t ih => exact ih h
  | case13 w c t ih => exact ih h

theorem shellWords_quote (hquote : Undone quote) (w : Text) : shellWords (quote w) = some [w] := by
  have hundone := hquote w []
  rwa [List.append_nil] at hundone

/-- **Words written behind a text are read behind its words.** -/
theorem shellWords_append (hquote : Undone quote) (h : shellWords t = some ws) (more : List Text) :
    shellWords (t ++ more.flatMap fun w => ' ' :: quote w) = some (ws ++ more) := by
  induction more generalizing t ws with
  | nil => rw [List.flatMap_nil, List.append_nil, List.append_nil, h]
  | cons w more ih =>
    have hnext : shellWords (t ++ ' ' :: quote w) = some (ws ++ [w]) := by
      rw [shellWords, shellWordsFrom_append_gap h, shellWords_quote hquote, Option.map_some]
    rw [List.flatMap_cons, ← List.append_assoc, ih hnext, List.append_assoc, List.singleton_append]

theorem join_cons_map (sep : Text) (quote : Text → Text) (w : Text) (more : List Text) :
    join sep (quote w :: more.map quote) = quote w ++ more.flatMap fun v => sep ++ quote v := by
  induction more generalizing w with
  | nil => exact (List.append_nil _).symm
  | cons v more ih =>
    rw [List.map_cons, join_cons_cons, ih, List.flatMap_cons, List.append_assoc, List.append_assoc]

/-- **Written words are read back** if they are joined by blanks. -/
theorem shellWords_join (hquote : Undone quote) (ws : List Text) :
    shellWords (join [' '] (ws.map quote)) = some ws := by
  cases ws with
  | nil => rfl
  | cons w more =>
    rw [List.map_cons, join_cons_map]
    exact shellWords_append hquote (shellWords_quote hquote w) more

end LiterateEdit.Text
