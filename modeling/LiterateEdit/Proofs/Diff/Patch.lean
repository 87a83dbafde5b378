import LiterateEdit.Diff.Unified
import LiterateEdit.Proofs.Diff.Script
import LiterateEdit.Proofs.Text.Slice
import LiterateEdit.Proofs.Text.Cut
import LiterateEdit.Proofs.Text.Split
import Mathlib.Data.List.Basic

/-!
# Reading unified diffs

`patchLines` is what a unified diff says: the program that is given the lines of a diff and those of
the old text, and gives the lines of the new one. It trusts nothing. A header has to name a place
that is not passed yet, in both texts, and lines that stay or go have to be there. A hunk has just
as many lines of each text as its header says. The two lines before the first hunk name the texts
and are passed over, and a text with an empty diff stays as it is. Notes on missing line feeds,
which other programs write between the lines of a hunk, are not read.

**A diff of two sequences of lines makes the one into the other** (`patchLines_unifiedLines`),
whatever lines these are. The state of the reader at a pair of places (`readerAt`) holds the old
lines that are to come and the new ones that are done. Each change takes it from the places where
the change starts to those where it ends (`read_change`), and so does each script (`read_script`)
and each hunk (`read_hunk`). What the groups leave out is the same in both texts (`Skips`).
-/

namespace LiterateEdit.Diff

open Text (IsFeedLine lit ofNat splitOn)

variable {old new : List Text} {i j i' j' a b n k : Nat} {c : Change} {cs : List Change}
  {gs : List (List Change)} {l : Text}

/-! ### The reader -/

/-- What the header of a hunk says. -/
structure Header where
  /-- How many lines of the old text are before the hunk. -/
  oldStart : Nat
  /-- How many lines of the old text it has. -/
  oldCount : Nat
  /-- How many lines of the new text are before the hunk. -/
  newStart : Nat
  /-- How many lines of the new text it has. -/
  newCount : Nat
  deriving DecidableEq

/-- Read a number in decimal digits. -/
def readNumber? (t : Text) : Option Nat :=
  if t ≠ [] ∧ t.all Char.isDigit then some (Nat.ofDigitChars 10 t 0) else none

/-- Read a range of lines: how many are before it, and how many it has. An empty range is named by
the line before it, another one by its first line. -/
def readRange? (t : Text) : Option (Nat × Nat) :=
  match splitOn (· = ',') t with
  | [line] => do
    let line ← readNumber? line
    if 0 < line then some (line - 1, 1) else none
  | [line, count] => do
    let line ← readNumber? line
    let count ← readNumber? count
    if count = 0 then some (line, 0)
    else if 0 < line then some (line - 1, count)
    else none
  | _ => none

/-- Read the header of a hunk. -/
def readHeader? (l : Text) : Option Header :=
  match splitOn (· = ' ') l with
  | [mark, '-' :: olds, '+' :: news, mark'] => do
    let (oldStart, oldCount) ← readRange? olds
    let (newStart, newCount) ← readRange? news
    if mark = lit "@@" ∧ mark' = lit "@@\n" then
      some ⟨oldStart, oldCount, newStart, newCount⟩
    else none
  | _ => none

/-- What is known while a diff is read. -/
structure Reader where
  /-- The lines of the old text that are to come. -/
  rest : List Text
  /-- The lines of the new text that are done. -/
  done : List Text
  /-- How many lines of the old text are passed. -/
  passed : Nat
  /-- How many lines of the old text the hunk still has. -/
  oldLeft : Nat
  /-- How many lines of the new text the hunk still has. -/
  newLeft : Nat
  deriving DecidableEq

namespace Reader

/-- A hunk starts. The lines before it stay. -/
def start (h : Header) (s : Reader) : Option Reader :=
  let n := h.oldStart - s.passed
  if s.passed ≤ h.oldStart ∧ n ≤ s.rest.length ∧ s.done.length + n = h.newStart then
    some ⟨s.rest.drop n, s.done ++ s.rest.take n, h.oldStart, h.oldCount, h.newCount⟩
  else none

/-- A line of the old text is passed. It has to be the one that is to come. -/
def pass (l : Text) (s : Reader) : Option Reader :=
  match s.rest, s.oldLeft with
  | next :: rest, n + 1 =>
    if next = l then some { s with rest := rest, passed := s.passed + 1, oldLeft := n } else none
  | _, _ => none

/-- A line of the new text is done. -/
def put (l : Text) (s : Reader) : Option Reader :=
  match s.newLeft with
  | n + 1 => some { s with done := s.done ++ [l], newLeft := n }
  | 0 => none

/-- One line of a diff is read: a header if no line of the hunk is left, and else a line that stays,
goes or comes. -/
def step (s : Reader) (l : Text) : Option Reader :=
  if s.oldLeft = 0 ∧ s.newLeft = 0 then (readHeader? l).bind fun h => s.start h
  else
    match l with
    | ' ' :: l => (s.pass l).bind (put l)
    | '-' :: l => s.pass l
    | '+' :: l => s.put l
    | _ => none

/-- Behind the last hunk all lines stay. -/
def finish (s : Reader) : Option (List Text) :=
  if s.oldLeft = 0 ∧ s.newLeft = 0 then some (s.done ++ s.rest) else none

end Reader

/-- The lines that a diff makes of those of the old text, if it is a diff of them. -/
def patchLines (old : List Text) : List Text → Option (List Text)
  | [] => some old
  | oldName :: newName :: body =>
    if Text.startsWith (lit "--- ") oldName ∧ Text.startsWith (lit "+++ ") newName then
      (body.foldlM Reader.step ⟨old, [], 0, 0, 0⟩).bind Reader.finish
    else none
  | _ => none

/-- **The text that a diff makes of another one**, if it is a diff of it. Both are read line by
line, and a line is ended by a line feed. -/
def patch (old diff : Text) : Option Text :=
  (patchLines (Text.feedLines old) (Text.feedLines diff)).map List.flatten

/-! ### Headers -/

theorem readNumber?_ofNat (n : Nat) : readNumber? (ofNat n) = some n := by
  have hne : ofNat n ≠ [] := Nat.toDigits_ne_nil
  have hdigits : (ofNat n).all Char.isDigit = true := List.all_eq_true.2 fun c hc =>
    Nat.isDigit_of_mem_toDigits (by decide) (by decide) hc
  rw [readNumber?, if_pos ⟨hne, hdigits⟩]
  exact congrArg some (Nat.ofDigitChars_toDigits (by decide) (by decide))

/-- A number is written without the characters around it. -/
theorem not_mem_ofNat {d : Char} (h : d.isDigit = false) (n : Nat) : d ∉ ofNat n := fun hmem => by
  rw [Nat.isDigit_of_mem_toDigits (by decide) (by decide) hmem] at h
  cases h

theorem rangeText_eq (i n : Nat) : rangeText i (i + n) =
    if n = 1 then ofNat (i + 1)
    else ofNat (if n = 0 then i else i + 1) ++ ',' :: ofNat n := by
  have hn : (i : Int) + n - i = n := by omega
  unfold rangeText
  simp only [hn]
  -- one line is written without its number, and no lines by the line before them
  by_cases hone : n = 1
  · rw [if_pos hone, if_pos (by omega)]
    rfl
  · rw [if_neg hone, if_neg (by omega), List.append_assoc]
    by_cases hzero : n = 0
    · rw [if_pos hzero, if_pos (by omega)]
      rfl
    · rw [if_neg hzero, if_neg (by omega)]
      rfl

/-- A range is read as it is written. -/
theorem readRange?_rangeText (i n : Nat) : readRange? (rangeText i (i + n)) = some (i, n) := by
  have hcomma : ∀ n, ',' ∉ ofNat n := not_mem_ofNat (by decide)
  rw [rangeText_eq]
  split
  · next hone =>
    rw [readRange?, Text.splitOn_of_not_mem (hcomma _), hone]
    simp only [readNumber?_ofNat]
    rfl
  · next hone =>
    rw [readRange?, Text.splitOn_append (hcomma _), Text.splitOn_of_not_mem (hcomma _)]
    simp only [readNumber?_ofNat]
    by_cases hzero : n = 0
    · rw [if_pos hzero, hzero]
      rfl
    · rw [if_neg hzero]
      show (if n = 0 then _ else if 0 < i + 1 then some (i + 1 - 1, n) else none) = _
      rw [if_neg hzero, if_pos (Nat.succ_pos i)]
      rfl

/-- No range has a blank or a line feed in it. -/
theorem not_mem_rangeText {d : Char} (hd : d.isDigit = false) (hcomma : d ≠ ',') (i n : Nat) :
    d ∉ rangeText i (i + n) := by
  rw [rangeText_eq]
  split
  · exact not_mem_ofNat hd _
  · rw [List.mem_append, List.mem_cons]
    rintro (hmem | heq | hmem)
    · exact not_mem_ofNat hd _ hmem
    · exact hcomma heq
    · exact not_mem_ofNat hd _ hmem

/-- The header of a hunk that starts at line `i` of the old text and at line `j` of the new one and
has `n` lines of the one and `k` of the other. -/
def headerText (i n j k : Nat) : Text :=
  lit "@@ -" ++ rangeText i (i + n) ++ lit " +" ++ rangeText j (j + k) ++ lit " @@\n"

theorem hunkHeader_eq {first last : Change} (hold : first.oldLow = i) (hold' : last.oldHigh = i + n)
    (hnew : first.newLow = j) (hnew' : last.newHigh = j + k) :
    hunkHeader first last = headerText i n j k := by
  rw [hunkHeader, hold, hold', hnew, hnew']
  rfl

/-- A header ends in a line feed. -/
theorem isFeedLine_headerText (i n j k : Nat) : IsFeedLine (headerText i n j k) := by
  have hfeed : ∀ i n : Nat, '\n' ∉ rangeText i (i + n) := not_mem_rangeText (by decide) (by decide)
  refine ⟨lit "@@ -" ++ rangeText i (i + n) ++ lit " +" ++ rangeText j (j + k) ++ lit " @@", ?_, ?_⟩
  · simp only [List.mem_append]
    rintro ((((hmem | hmem) | hmem) | hmem) | hmem)
    · exact absurd hmem (by decide)
    · exact hfeed i n hmem
    · exact absurd hmem (by decide)
    · exact hfeed j k hmem
    · exact absurd hmem (by decide)
  · show _ ++ (lit " @@" ++ ['\n']) = _
    rw [← List.append_assoc]

/-- A header is read as it is written. -/
theorem readHeader?_headerText (i n j k : Nat) :
    readHeader? (headerText i n j k) = some ⟨i, n, j, k⟩ := by
  have hblank : ∀ i n : Nat, ' ' ∉ rangeText i (i + n) := not_mem_rangeText (by decide) (by decide)
  have hpieces : headerText i n j k = Text.join [' ']
      [lit "@@", '-' :: rangeText i (i + n), '+' :: rangeText j (j + k), lit "@@\n"] := by
    show lit "@@ -" ++ _ ++ lit " +" ++ _ ++ lit " @@\n" = lit "@@" ++ [' '] ++
      ('-' :: rangeText i (i + n) ++ [' '] ++ ('+' :: rangeText j (j + k) ++ [' '] ++ lit "@@\n"))
    simp only [List.append_assoc, List.cons_append]
    rfl
  -- none of the pieces has a blank in it
  have hsplit : splitOn (· = ' ') (headerText i n j k) =
      [lit "@@", '-' :: rangeText i (i + n), '+' :: rangeText j (j + k), lit "@@\n"] := by
    rw [hpieces]
    refine Text.splitOn_join (List.cons_ne_nil _ _) fun t ht => ?_
    simp only [List.mem_cons, List.not_mem_nil, or_false] at ht
    rcases ht with rfl | rfl | rfl | rfl
    · decide
    · exact List.not_mem_cons_of_ne_of_not_mem (by decide) (hblank i n)
    · exact List.not_mem_cons_of_ne_of_not_mem (by decide) (hblank j k)
    · decide
  unfold readHeader?
  rw [hsplit]
  simp only [readRange?_rangeText]
  rfl

/-! ### Lines -/

/-- The reader at a pair of places, with a number of lines of each text to come in the hunk. -/
def readerAt (old new : List Text) (i j a b : Nat) : Reader := ⟨old.drop i, new.take j, i, a, b⟩

theorem pass_readerAt (h : old[i]? = some l) :
    (readerAt old new i j (a + 1) b).pass l = some (readerAt old new (i + 1) j a b) := by
  obtain ⟨hi, rfl⟩ := List.getElem?_eq_some_iff.1 h
  have hdrop : old.drop i = old[i] :: old.drop (i + 1) := List.drop_eq_getElem_cons hi
  rw [readerAt, Reader.pass, hdrop]
  exact if_pos rfl

theorem put_readerAt (h : new[j]? = some l) :
    (readerAt old new i j a (b + 1)).put l = some (readerAt old new i (j + 1) a b) := by
  have htake : new.take (j + 1) = new.take j ++ [l] := by
    rw [List.take_add_one, h]
    rfl
  rw [readerAt, readerAt, htake]
  rfl

/-- Behind a hunk a line is a header. -/
theorem step_header (l : Text) : (readerAt old new i j 0 0).step l =
    (readHeader? l).bind fun h => (readerAt old new i j 0 0).start h := if_pos ⟨rfl, rfl⟩

/-- In a hunk a line is no header. -/
theorem step_readerAt (h : ¬(a = 0 ∧ b = 0)) (mark : Char) (l : Text) :
    (readerAt old new i j a b).step (mark :: l) =
      match mark :: l with
      | ' ' :: l => ((readerAt old new i j a b).pass l).bind (Reader.put l)
      | '-' :: l => (readerAt old new i j a b).pass l
      | '+' :: l => (readerAt old new i j a b).put l
      | _ => none := if_neg h

/-- **Lines with a mark are read one by one**, from the first state of a sequence to the last. -/
theorem read_marked (mark : Char) (s : Nat → Reader) (ls : List Text)
    (hstep : ∀ t l, ls[t]? = some l → (s t).step (mark :: l) = some (s (t + 1))) :
    (ls.map (mark :: ·)).foldlM Reader.step (s 0) = some (s ls.length) := by
  -- behind the first line the sequence goes on from its second state
  induction ls generalizing s with
  | nil => rfl
  | cons l ls ih =>
    rw [List.map_cons, List.foldlM_cons, hstep 0 l rfl]
    exact ih (fun t => s (t + 1)) fun t l' h => hstep (t + 1) l' h

theorem getElem?_part {ls : List Text} {t : Nat} (h : ((ls.drop i).take n)[t]? = some l) :
    t < n ∧ ls[i + t]? = some l := by
  rw [List.getElem?_take] at h
  split at h
  · next ht => exact ⟨ht, by rwa [List.getElem?_drop] at h⟩
  · cases h

theorem length_part {ls : List Text} (h : i + n ≤ ls.length) : ((ls.drop i).take n).length = n := by
  rw [List.length_take, List.length_drop]
  omega

/-- Lines that go are passed. -/
theorem read_deleted (h : i + n ≤ old.length) :
    (((old.drop i).take n).map ('-' :: ·)).foldlM Reader.step (readerAt old new i j (n + a) b) =
      some (readerAt old new (i + n) j a b) := by
  have hread := read_marked '-' (fun t => readerAt old new (i + t) j (n - t + a) b)
    ((old.drop i).take n) fun t l hl => by
      obtain ⟨ht, hl⟩ := getElem?_part hl
      have hleft : n - t + a = n - (t + 1) + a + 1 := by omega
      rw [hleft, step_readerAt (by omega)]
      exact pass_readerAt hl
  rw [length_part h] at hread
  simpa only [Nat.add_zero, Nat.sub_zero, Nat.sub_self, Nat.zero_add] using hread

/-- Lines that come are put. -/
theorem read_inserted (h : j + n ≤ new.length) :
    (((new.drop j).take n).map ('+' :: ·)).foldlM Reader.step (readerAt old new i j a (n + b)) =
      some (readerAt old new i (j + n) a b) := by
  have hread := read_marked '+' (fun t => readerAt old new i (j + t) a (n - t + b))
    ((new.drop j).take n) fun t l hl => by
      obtain ⟨ht, hl⟩ := getElem?_part hl
      have hleft : n - t + b = n - (t + 1) + b + 1 := by omega
      rw [hleft, step_readerAt (by omega)]
      exact put_readerAt hl
  rw [length_part h] at hread
  simpa only [Nat.add_zero, Nat.sub_zero, Nat.sub_self, Nat.zero_add] using hread

/-- Lines that stay are passed and put. -/
theorem read_equal (h : Same old new i j n) :
    (((old.drop i).take n).map (' ' :: ·)).foldlM Reader.step
        (readerAt old new i j (n + a) (n + b)) =
      some (readerAt old new (i + n) (j + n) a b) := by
  have hread := read_marked ' '
    (fun t => readerAt old new (i + t) (j + t) (n - t + a) (n - t + b))
    ((old.drop i).take n) fun t l hl => by
      obtain ⟨ht, hl⟩ := getElem?_part hl
      have hnew : new[j + t]? = some l := (h.eq t ht).symm.trans hl
      have hleft : n - t + a = n - (t + 1) + a + 1 := by omega
      have hleft' : n - t + b = n - (t + 1) + b + 1 := by omega
      rw [hleft, hleft', step_readerAt (by omega)]
      show ((readerAt old new (i + t) (j + t) _ _).pass l).bind (Reader.put l) = _
      rw [pass_readerAt hl]
      exact put_readerAt hnew
  rw [length_part h.old_le] at hread
  simpa only [Nat.add_zero, Nat.sub_zero, Nat.sub_self, Nat.zero_add] using hread

/-! ### Changes and hunks -/

theorem lineSlice_eq {ls : List Text} (h : i + n ≤ ls.length) :
    lineSlice ls i (i + n) = (ls.drop i).take n := by
  rw [lineSlice, Text.sliceEnd_eq (by omega) (by omega), Text.sliceEnd_eq (by omega) (by omega)]
  show (ls.drop i).take (i + n - i) = _
  rw [Nat.add_sub_cancel_left]

theorem lines_equal (h : i + n ≤ old.length) : Change.lines old new ⟨.equal, i, i + n, j, j + n⟩ =
    ((old.drop i).take n).map (' ' :: ·) := by
  rw [← lineSlice_eq h]
  rfl

theorem lines_replace (hi : i + n ≤ old.length) (hj : j + k ≤ new.length) :
    Change.lines old new ⟨.replace, i, i + n, j, j + k⟩ =
      ((old.drop i).take n).map ('-' :: ·) ++ ((new.drop j).take k).map ('+' :: ·) := by
  rw [← lineSlice_eq hi, ← lineSlice_eq hj]
  rfl

theorem lines_delete (h : i + n ≤ old.length) : Change.lines old new ⟨.delete, i, i + n, j, j⟩ =
    ((old.drop i).take n).map ('-' :: ·) := by
  rw [← lineSlice_eq h]
  rfl

theorem lines_insert (h : j + n ≤ new.length) : Change.lines old new ⟨.insert, i, i, j, j + n⟩ =
    ((new.drop j).take n).map ('+' :: ·) := by
  rw [← lineSlice_eq h]
  rfl

/-- **The step.** A change is read from the places where it starts to those where it ends. -/
theorem read_change (h : Leads old new i j c i' j') :
    (c.lines old new).foldlM Reader.step (readerAt old new i j (i' - i + a) (j' - j + b)) =
      some (readerAt old new i' j' a b) := by
  cases h with
  | equal h =>
    rw [lines_equal h.old_le, Nat.add_sub_cancel_left, Nat.add_sub_cancel_left]
    exact read_equal h
  | replace hn hk hi hj =>
    rw [lines_replace hi hj, Nat.add_sub_cancel_left, Nat.add_sub_cancel_left, List.foldlM_append,
      read_deleted hi]
    exact read_inserted hj
  | delete hn hi hj =>
    rw [lines_delete hi, Nat.add_sub_cancel_left, Nat.sub_self, Nat.zero_add]
    exact read_deleted hi
  | insert hn hi hj =>
    rw [lines_insert hj, Nat.add_sub_cancel_left, Nat.sub_self, Nat.zero_add]
    exact read_inserted hj

/-- **The run.** A script is read change by change. -/
theorem read_script (h : Script old new i j cs i' j') :
    (cs.flatMap (Change.lines old new)).foldlM Reader.step
        (readerAt old new i j (i' - i + a) (j' - j + b)) =
      some (readerAt old new i' j' a b) := by
  induction h with
  | nil hi hj =>
    rw [Nat.sub_self, Nat.sub_self, Nat.zero_add, Nat.zero_add]
    rfl
  | @cons i j x y i' j' c cs hc hcs ih =>
    obtain ⟨hi, hj, -, -⟩ := hc.bounds
    obtain ⟨hi', hj', -, -⟩ := hcs.bounds
    -- the lines that are left belong to the change and to those behind it
    have hold : i' - i + a = x - i + (i' - x + a) := by omega
    have hnew : j' - j + b = y - j + (j' - y + b) := by omega
    rw [List.flatMap_cons, List.foldlM_append, hold, hnew, read_change hc]
    exact ih

/-- The header of a hunk is read, and the lines before the hunk stay. -/
theorem start_readerAt (h : Skips old new i j i' j') (a b : Nat) :
    (readerAt old new i j 0 0).start ⟨i', a, j', b⟩ = some (readerAt old new i' j' a b) := by
  obtain ⟨n, hn, rfl, rfl⟩ := h
  have hold := hn.old_le
  have hnew := hn.new_le
  have hdone : new.take (j + n) = new.take j ++ (old.drop i).take n := by
    rw [hn.lines_eq, List.take_add]
  have hplaces : i ≤ i + n ∧ n ≤ (old.drop i).length ∧ (new.take j).length + n = j + n := by
    rw [List.length_drop, List.length_take]
    omega
  -- the lines that are skipped are put as they stand in the old text
  unfold Reader.start
  simp only [readerAt, Nat.add_sub_cancel_left]
  rw [if_pos hplaces, List.drop_drop, hdone]

/-- The header of a hunk, which is read at the end of the hunk before it, and the lines of the
hunk. -/
theorem exists_header (hskip : Skips old new i j a b) (hne : cs ≠ [])
    (hcs : Script old new a b cs i' j') :
    ∃ head, hunk old new cs = head :: cs.flatMap (Change.lines old new) ∧ IsFeedLine head ∧
      (readerAt old new i j 0 0).step head = some (readerAt old new a b (i' - a) (j' - b)) := by
  obtain ⟨first, hfirst⟩ := Option.ne_none_iff_exists'.1 (mt List.head?_eq_none_iff.1 hne)
  obtain ⟨last, hlast⟩ := Option.ne_none_iff_exists'.1 (mt List.getLast?_eq_none_iff.1 hne)
  obtain ⟨hi, hj, -, -⟩ := hcs.bounds
  obtain ⟨hold, hnew, hold', hnew'⟩ := hcs.places hfirst hlast
  have hheader : hunkHeader first last = headerText a (i' - a) b (j' - b) :=
    hunkHeader_eq hold (by omega) hnew (by omega)
  refine ⟨headerText a (i' - a) b (j' - b), ?_, isFeedLine_headerText _ _ _ _, ?_⟩
  · unfold hunk
    rw [hfirst, hlast, ← hheader]
  · rw [step_header, readHeader?_headerText]
    exact start_readerAt hskip _ _

/-- A hunk is read from the end of the one before it. -/
theorem read_hunk (hskip : Skips old new i j a b) (hne : cs ≠ [])
    (hcs : Script old new a b cs i' j') :
    (hunk old new cs).foldlM Reader.step (readerAt old new i j 0 0) =
      some (readerAt old new i' j' 0 0) := by
  obtain ⟨head, hhunk, -, hhead⟩ := exists_header hskip hne hcs
  rw [hhunk, List.foldlM_cons, hhead]
  exact read_script (a := 0) (b := 0) hcs

/-- **The hunks are read** one after another, up to lines that are the same. -/
theorem read_hunks (h : Hunks old new i j gs i' j') :
    ∃ x y, (gs.flatMap (hunk old new)).foldlM Reader.step (readerAt old new i j 0 0) =
      some (readerAt old new x y 0 0) ∧ Skips old new x y i' j' := by
  induction h with
  | nil h => exact ⟨_, _, rfl, h⟩
  | cons hskip hne hg hgs ih =>
    obtain ⟨x, y, hread, hback⟩ := ih
    refine ⟨x, y, ?_, hback⟩
    rw [List.flatMap_cons, List.foldlM_append, read_hunk hskip hne hg]
    exact hread

/-- Behind the last hunk the texts are the same. -/
theorem finish_readerAt (h : Skips old new i j old.length new.length) :
    (readerAt old new i j 0 0).finish = some new := by
  obtain ⟨n, hn, hold, hnew⟩ := h
  have hrest : old.drop i = new.drop j := by
    have hlines := hn.lines_eq
    rwa [List.take_of_length_le (by rw [List.length_drop]; omega),
      List.take_of_length_le (by rw [List.length_drop]; omega)] at hlines
  show some (new.take j ++ old.drop i) = some new
  rw [hrest, List.take_append_drop]

/-- The lines that name the texts are passed over. -/
theorem patchLines_names (old : List Text) (path : Text) (body : List Text) :
    patchLines old (names path ++ body) =
      (body.foldlM Reader.step (readerAt old new 0 0 0 0)).bind Reader.finish := by
  have hold : Text.startsWith (lit "--- ") (lit "--- a/" ++ path ++ ['\n']) = true := rfl
  have hnew : Text.startsWith (lit "+++ ") (lit "+++ b/" ++ path ++ ['\n']) = true := rfl
  rw [names, List.cons_append, List.cons_append, List.nil_append, patchLines, if_pos ⟨hold, hnew⟩]
  rfl

/-- **A diff of lines makes the old lines into the new ones**, whatever lines they are. -/
theorem patchLines_unifiedLines (old new : List Text) (path : Text) {context : Int}
    (h : 0 ≤ context) : patchLines old (unifiedLines old new path context) = some new := by
  have hhunks := hunks_groups h old new
  unfold unifiedLines
  split
  · next hnil =>
    -- no hunks: all lines are the same
    rw [hnil] at hhunks
    cases hhunks with
    | nil hskip => exact finish_readerAt hskip
  · obtain ⟨x, y, hread, hback⟩ := read_hunks hhunks
    rw [patchLines_names, hread]
    exact finish_readerAt hback

end LiterateEdit.Diff
