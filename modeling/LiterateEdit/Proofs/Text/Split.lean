import LiterateEdit.Text.Basic

/-!
# Splitting a text and joining the pieces

Splitting a text at the characters of a class is splitting it as a list (`splitOn_eq_splitOnP`), and
joining texts is putting the separator between them (`join_eq_intercalate`). What the library proves
about these holds here. No piece has a character of the class, and texts without a character come
back if they are joined and split at it (`splitOn_join`).
-/

namespace LiterateEdit

namespace Text

variable {p : Char → Bool} {c : Char} {t u : Text} {ts : List Text}

theorem splitOn_eq_splitOnP (p : Char → Bool) (t : Text) : splitOn p t = t.splitOnP p := by
  induction t with
  | nil => rfl
  | cons c t ih =>
    rw [splitOn, List.splitOnP_cons_eq_if_modifyHead, ih]
    cases hpieces : t.splitOnP p with
    | nil => exact absurd hpieces (List.splitOnP_ne_nil p t)
    | cons piece rest => rfl

theorem splitOn_ne_nil (p : Char → Bool) (t : Text) : splitOn p t ≠ [] := by
  rw [splitOn_eq_splitOnP]
  exact List.splitOnP_ne_nil p t

theorem splitOn_of_not_mem (h : c ∉ u) : splitOn (· = c) u = [u] := by
  rw [splitOn_eq_splitOnP]
  exact List.splitOn_eq_singleton h

/-- The first piece goes up to the first separator. -/
theorem splitOn_append (h : c ∉ u) (t : Text) :
    splitOn (· = c) (u ++ c :: t) = u :: splitOn (· = c) t := by
  rw [splitOn_eq_splitOnP, splitOn_eq_splitOnP]
  exact List.splitOn_append_cons_self_of_not_mem h t

theorem join_eq_intercalate (sep : Text) (ts : List Text) : join sep ts = sep.intercalate ts := by
  induction ts with
  | nil => rfl
  | cons t rest ih =>
    cases rest with
    | nil => exact List.intercalate_singleton.symm
    | cons u rest => rw [join_cons_cons, ih, List.intercalate_cons_cons]

/-- The pieces have no characters of the class. -/
theorem not_of_mem_splitOn (h : u ∈ splitOn p t) : ∀ c ∈ u, p c = false := by
  induction t generalizing u with
  | nil =>
    rw [List.mem_singleton.1 h]
    exact nofun
  | cons c t ih =>
    rw [splitOn_eq_splitOnP] at ih h
    rw [List.splitOnP_cons_eq_if_modifyHead] at h
    split at h
    · rcases List.mem_cons.1 h with rfl | h
      · exact nofun
      · exact ih h
    · next hc =>
      cases hpieces : t.splitOnP p with
      | nil => exact absurd hpieces (List.splitOnP_ne_nil p t)
      | cons piece rest =>
        rw [hpieces] at ih h
        rcases List.mem_cons.1 h with rfl | h
        · exact List.forall_mem_cons.2 ⟨Bool.eq_false_iff.2 hc, ih List.mem_cons_self⟩
        · exact ih (List.mem_cons_of_mem piece h)

theorem not_mem_of_mem_splitOn (h : u ∈ splitOn (· = c) t) : c ∉ u := fun hmem =>
  of_decide_eq_false (not_of_mem_splitOn h c hmem) rfl

/-- **Joined texts are split into them** at a character that none of them has. -/
theorem splitOn_join (hts : ts ≠ []) (h : ∀ t ∈ ts, c ∉ t) :
    splitOn (· = c) (join [c] ts) = ts := by
  rw [splitOn_eq_splitOnP, join_eq_intercalate]
  exact List.splitOn_intercalate c h hts

end Text

end LiterateEdit
