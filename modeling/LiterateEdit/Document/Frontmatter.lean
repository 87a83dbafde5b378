import LiterateEdit.Block.Basic
import LiterateEdit.Text.Blank
import LiterateEdit.Yaml.Load

/-!
# Front matter

A document may start with a mapping of data about itself: a line of three hyphens, YAML, and another
line of three hyphens. What follows is the body. The white space behind the hyphens may span several
lines: as many as possible are taken off behind the closing hyphens, and behind the opening ones as
many as leave room for a closing line.

`splitFrontmatter` reads the front matter of a document and cuts it off. The body is a piece of the
document up to its end (`body_suffix`), so what lies before it and the body are the document.
-/

namespace LiterateEdit

/-- A document cut at the fences of its front matter. -/
structure FrontmatterCut where
  /-- The YAML between the fences. -/
  header : Text
  /-- What follows the closing fence. -/
  body : Text
  deriving DecidableEq

namespace Frontmatter

/-- Three hyphens. -/
def fence : Text := ['-', '-', '-']

/-- What follows each line feed in the white space that a text starts with, the last one first. -/
def behindFeeds : Text → List Text
  | [] => []
  | c :: t =>
    if Text.isBlank c then
      if c = '\n' then behindFeeds t ++ [t] else behindFeeds t
    else []

/-- The body behind a closing fence, if a text starts with one: a line feed, the hyphens, and white
space that holds a line feed. -/
def closing? (t : Text) : Option Text :=
  match t with
  | '\n' :: '-' :: '-' :: '-' :: u => (behindFeeds u).head?
  | _ => none

/-- The front matter up to the first closing fence, and the body. -/
def untilClosing : Text → Option FrontmatterCut
  | [] => none
  | c :: t =>
    match closing? (c :: t) with
    | some body => some ⟨[], body⟩
    | none => (untilClosing t).map fun cut => ⟨c :: cut.header, cut.body⟩

/-- The front matter and the body of a document that has front matter. -/
def cut? (t : Text) : Option FrontmatterCut :=
  match Text.dropStart? fence t with
  | none => none
  | some u => (behindFeeds u).findSome? untilClosing

theorem suffix_of_mem_behindFeeds {t u : Text} (h : u ∈ behindFeeds t) : u <:+ t := by
  induction t with
  | nil => simp [behindFeeds] at h
  | cons c t ih =>
    simp only [behindFeeds] at h
    split at h
    · split at h
      · rcases List.mem_append.1 h with h | h
        · exact (ih h).trans (List.suffix_cons c t)
        · rw [List.mem_singleton.1 h]
          exact List.suffix_cons c t
      · exact (ih h).trans (List.suffix_cons c t)
    · simp at h

theorem suffix_of_closing? {t body : Text} (h : closing? t = some body) : body <:+ t := by
  unfold closing? at h
  split at h
  · next u =>
    have hu : u <:+ '\n' :: '-' :: '-' :: '-' :: u := ⟨['\n', '-', '-', '-'], rfl⟩
    exact (suffix_of_mem_behindFeeds (List.mem_of_head? h)).trans hu
  · simp at h

theorem suffix_of_untilClosing {t : Text} {cut : FrontmatterCut} (h : untilClosing t = some cut) :
    cut.body <:+ t := by
  induction t generalizing cut with
  | nil => simp [untilClosing] at h
  | cons c t ih =>
    simp only [untilClosing] at h
    split at h
    · next body hb =>
      cases h
      exact suffix_of_closing? hb
    · obtain ⟨cut', h', rfl⟩ := Option.map_eq_some_iff.1 h
      exact (ih h').trans (List.suffix_cons c t)

theorem suffix_of_cut? {t : Text} {cut : FrontmatterCut} (h : cut? t = some cut) :
    cut.body <:+ t := by
  unfold cut? at h
  split at h
  · simp at h
  · next u hu =>
    obtain ⟨v, hv, h⟩ := List.exists_of_findSome?_eq_some h
    exact ((suffix_of_untilClosing h).trans (suffix_of_mem_behindFeeds hv)).trans
      (Text.suffix_of_dropStart? hu)

end Frontmatter

/-- Why a document cannot be read. -/
inductive DocumentError where
  /-- The front matter is no YAML, or holds a value that does not fit its type. -/
  | frontmatter (e : Yaml.Error)
  /-- The front matter is no mapping but of the type of this name. -/
  | frontmatterType (typeName : String)
  /-- There is no dialect of this name. -/
  | dialect (name : Text)
  /-- The default header arguments are no mapping but of the type of this name. -/
  | headerArgsType (typeName : String)
  deriving DecidableEq

/-- The start of the message about front matter that is no YAML. -/
def invalidFrontmatter : String := "Invalid YAML frontmatter:"

/-- What is told about a document that cannot be read, if anything is. -/
def DocumentError.message? : DocumentError → Option Text
  | .frontmatter .malformed => some (Text.lit invalidFrontmatter)
  | .frontmatter (.unfit reason) => some reason
  | .frontmatter _ => none
  | .frontmatterType n =>
    some (Text.lit invalidFrontmatter ++ Text.lit " expected a mapping, got " ++ Text.lit n)
  | .dialect _ => none
  | .headerArgsType n =>
    some (Text.lit "Invalid header-args: expected a mapping, got " ++ Text.lit n)

/-- The data that a document holds about itself. -/
abbrev Frontmatter := List (Yaml.Value × Yaml.Value)

/-- The mapping that the text between the fences of front matter holds. -/
def Frontmatter.ofHeader (header : Text) : Except DocumentError Frontmatter :=
  match Yaml.load header with
  | .error e => .error (.frontmatter e)
  | .ok (.map entries) => .ok entries
  | .ok v => if v.isVoid then .ok [] else .error (.frontmatterType v.typeName)

/-- The front matter of a document and its body. -/
def splitFrontmatter (t : Text) : Except DocumentError (Frontmatter × Text) :=
  match Frontmatter.cut? t with
  | none => .ok ([], t)
  | some cut =>
    match Frontmatter.ofHeader cut.header with
    | .error e => .error e
    | .ok entries => .ok (entries, cut.body)

/-- The body is a piece of the document up to its end. -/
theorem body_suffix {t body : Text} {f : Frontmatter} (h : splitFrontmatter t = .ok (f, body)) :
    body <:+ t := by
  unfold splitFrontmatter at h
  split at h
  · cases h
    exact List.suffix_refl t
  · next cut hcut =>
    split at h
    · simp at h
    · cases h
      exact Frontmatter.suffix_of_cut? hcut

/-! ### Default header arguments -/

/-- The text of a header argument given as a YAML value; truth values read `yes` and `no`. -/
def headerArgText : Yaml.Value → Text
  | .bool true => Text.lit "yes"
  | .bool false => Text.lit "no"
  | v => v.toText

/-- The header arguments that a document gives to all its blocks. -/
def Frontmatter.headerArgs (f : Frontmatter) : Except DocumentError HeaderArgs :=
  match Yaml.Value.lookup f (.text (Text.lit "header-args")) with
  | none => .ok []
  | some (.map entries) =>
    .ok (HeaderArgs.setAll [] (entries.map fun e => (Text.lower e.1.toText, headerArgText e.2)))
  | some v => if v.isVoid then .ok [] else .error (.headerArgsType v.typeName)

end LiterateEdit
