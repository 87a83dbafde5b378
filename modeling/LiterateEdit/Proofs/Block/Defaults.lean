import LiterateEdit.Proofs.Block.Extract
import LiterateEdit.Proofs.Block.Spelled
import Mathlib.Data.List.Forall2

/-!
# Default arguments spelled out

Default arguments of a document are what its fences would say themselves. What a fence does not say
may be written behind its info string, each argument as a key with its value (`Info.completed`), and
the fence is read without defaults then. It becomes the same block, with the same arguments in
another order (`Block.Alike`, `Fence.alike_completed`).

A name stands for the argument of the fence if it has one and for the default otherwise, whether the
defaults are overridden (`HeaderArgs.get?_setAll_of_nodup`) or complete what is given
(`HeaderArgs.get?_append_without`). Everything else of a block looks arguments up by their names
(`Target.ofArgs_congr`).
-/

namespace LiterateEdit

open Text (Undone shellQuoted singleQuoted)

variable {defaults : HeaderArgs} {quote : Text → Text}

/-! ### Arguments that are not given -/

namespace HeaderArgs

variable {args : HeaderArgs} {given : List Text} {name : Text}

/-- The arguments with other names than those given. -/
def without (args : HeaderArgs) (given : List Text) : HeaderArgs :=
  args.filter fun kv => !given.contains kv.1

theorem IsSpellable.without (h : args.IsSpellable) (given : List Text) :
    (args.without given).IsSpellable where
  nodup := h.nodup.sublist (List.filter_sublist.map Prod.fst)
  name := fun kv hkv => h.name kv (List.mem_of_mem_filter hkv)
  value := fun kv hkv => h.value kv (List.mem_of_mem_filter hkv)

theorem not_mem_of_mem_names_without (h : name ∈ (args.without given).names) : name ∉ given := by
  obtain ⟨kv, hkv, rfl⟩ := List.mem_map.1 h
  simpa using (List.mem_filter.1 hkv).2

theorem get?_without (h : name ∉ given) : (args.without given).get? name = args.get? name := by
  induction args with
  | nil => rfl
  | cons kv args ih =>
    rw [get?_cons, ← ih, HeaderArgs.without, List.filter_cons]
    split
    · exact get?_cons kv _ name
    · -- an argument that is dropped has a name that is given
      next hkv =>
      have hmem : kv.1 ∈ given := by simpa using hkv
      have hne : name ≠ kv.1 := by
        rintro rfl
        exact h hmem
      rw [if_neg hne]
      rfl

/-- Arguments that are completed by those not given are read as if they overrode them. -/
theorem get?_append_without (args defaults : HeaderArgs) (name : Text) :
    (args ++ defaults.without args.names).get? name = (args.get? name).or (defaults.get? name) := by
  rw [get?_append]
  cases hname : args.get? name with
  | some value => rfl
  | none => rw [get?_without (get?_eq_none_iff.1 hname)]

end HeaderArgs

namespace Info

variable {info : Text}

/-- An info string with the defaults written behind it that it does not give itself. -/
def completed (quote : Text → Text) (defaults : HeaderArgs) (info : Text) : Text :=
  info ++ (defaults.without (parse info).value.args.names).spelled.flatMap fun w => ' ' :: quote w

/-- **An info string that is completed** says the missing defaults as well. -/
theorem parse_completed (hquote : Undone quote) (hdefaults : defaults.IsSpellable)
    (hinfo : Text.shellWords info ≠ none) :
    (parse (completed quote defaults info)).value
      = ⟨(parse info).value.language,
        (parse info).value.args ++ defaults.without (parse info).value.args.names⟩ := by
  obtain ⟨ws, hws⟩ := Option.ne_none_iff_exists'.1 hinfo
  have hparse : (parse info).value = ofWords ws := by
    change ofWords (words info).value = _
    rw [words_value, hws, Option.getD_some]
  generalize hmissing : defaults.without (parse info).value.args.names = missing
  have hspellable : missing.IsSpellable := hmissing ▸ hdefaults.without _
  have hcompleted : (parse (completed quote defaults info)).value
      = ofWords (ws ++ missing.spelled) := by
    change ofWords (words (completed quote defaults info)).value = _
    rw [words_value, completed, hmissing, Text.shellWords_append hquote hws, Option.getD_some]
  have hnodup : ((parse info).value.args ++ missing).names.Nodup := by
    -- what is missing has other names than what is given
    rw [HeaderArgs.names, List.map_append]
    refine List.nodup_append.2 ⟨nodup_names_parse info, hspellable.nodup, ?_⟩
    rintro name hgiven _ hname rfl
    rw [← hmissing] at hname
    exact HeaderArgs.not_mem_of_mem_names_without hname hgiven
  rw [hcompleted, ofWords_append_spelled hspellable, ← hparse, HeaderArgs.setAll_of_nodup hnodup]

end Info

/-! ### Blocks that differ in the order of their arguments -/

/-- Blocks that differ in nothing but the order of their arguments. -/
structure Block.Alike (b c : Block) : Prop where
  /-- Everything but the arguments is the same. -/
  rest : { b with args := c.args } = c
  /-- The arguments have the same values. -/
  args : ∀ name, b.args.get? name = c.args.get? name

/-- The target depends on the values of the arguments only. -/
theorem Target.ofArgs_congr {a b : HeaderArgs} (h : ∀ name, a.get? name = b.get? name)
    (language : Option Text) (doc : Path) : ofArgs a language doc = ofArgs b language doc := by
  unfold ofArgs
  rw [h]

namespace Fence

/-- A fence that says the defaults itself that it did not say. -/
def completed (quote : Text → Text) (defaults : HeaderArgs) (f : Fence) : Fence :=
  { f with info := Info.completed quote defaults f.info }

/-- **A fence that says the defaults itself** becomes the block that it is under the defaults. -/
theorem alike_completed {f : Fence} (hquote : Undone quote) (hdefaults : defaults.IsSpellable)
    (hinfo : Text.shellWords f.info ≠ none) (doc : Path) :
    Block.Alike (f.toBlock doc defaults).value
      ((f.completed quote defaults).toBlock doc []).value := by
  have hparse := Info.parse_completed hquote hdefaults hinfo
  have hargs (name : Text) : (f.toBlock doc defaults).value.args.get? name
      = ((f.completed quote defaults).toBlock doc []).value.args.get? name := by
    rw [toBlock_args, toBlock_args_of_no_defaults, completed, hparse,
      HeaderArgs.get?_append_without,
      HeaderArgs.get?_setAll_of_nodup (Info.nodup_names_parse f.info)]
  refine ⟨?_, hargs⟩
  have hlanguage := congrArg Info.language hparse
  have htarget := Target.ofArgs_congr hargs
  -- everything else of a block is read off the language and the values of the arguments
  simp only [toBlock_args] at hargs htarget
  simp only [toBlock, completed, Noted.andThen_value, Noted.quiet_value, hargs, htarget, hlanguage]

/-- The blocks of fences are those of the fences that say the defaults themselves. -/
theorem alike_blocksOfFences {fences : List Fence} (hquote : Undone quote)
    (hdefaults : defaults.IsSpellable)
    (hinfo : ∀ f ∈ fences, Text.shellWords f.info ≠ none) (doc : Path) :
    List.Forall₂ Block.Alike (blocksOfFences doc defaults fences).value
      (blocksOfFences doc [] (fences.map (completed quote defaults))).value := by
  rw [blocksOfFences_value, blocksOfFences_value, List.map_map, List.forall₂_map_left_iff,
    List.forall₂_map_right_iff, List.forall₂_same]
  exact fun f hf => alike_completed hquote hdefaults (hinfo f hf) doc

end Fence

/-! ### Tokens -/

/-- The token with the defaults written behind its info string that it does not give itself, if it
is a fence. -/
def Token.spelledOut (quote : Text → Text) (defaults : HeaderArgs) (t : Token) : Token :=
  if t.isFence then { t with info := Info.completed quote defaults t.info } else t

theorem Token.isFence_spelledOut (t : Token) :
    (t.spelledOut quote defaults).isFence = t.isFence := by
  unfold spelledOut
  split <;> rfl

/-- The fences among tokens that are spelled out say the defaults themselves. -/
theorem fences_map_spelledOut (tokens : List Token) :
    ((tokens.map (Token.spelledOut quote defaults)).filter Token.isFence).map Token.fence
      = ((tokens.filter Token.isFence).map Token.fence).map (Fence.completed quote defaults) := by
  have hfilter : (tokens.map (Token.spelledOut quote defaults)).filter Token.isFence
      = (tokens.filter Token.isFence).map (Token.spelledOut quote defaults) := by
    rw [List.filter_map]
    exact congrArg _ (List.filter_congr fun t _ => t.isFence_spelledOut)
  rw [hfilter, List.map_map, List.map_map]
  refine List.map_congr_left fun t ht => ?_
  have hfence : t.isFence = true := (List.mem_filter.1 ht).2
  rw [Function.comp_apply, Function.comp_apply, Token.spelledOut, if_pos hfence]
  rfl

/-- **Default arguments may be spelled out.** If the shell can read the info string of every fence,
the defaults of a document do the same as writing each of them behind the info strings of the fences
that do not give it, whatever way of quoting is used. -/
theorem blocksOfTokens_spelledOut (doc : Path) {tokens : List Token}
    (hdefaults : defaults.IsSpellable)
    (hinfo : ∀ t ∈ tokens, t.isFence = true → Text.shellWords t.info ≠ none) :
    (∀ quote ∈ [singleQuoted, shellQuoted],
      List.Forall₂ Block.Alike (blocksOfTokens doc defaults tokens).value
        (blocksOfTokens doc [] (tokens.map (Token.spelledOut quote defaults))).value) ∧
      ∀ others, others.filter Token.isFence = tokens.filter Token.isFence →
        blocksOfTokens doc defaults others = blocksOfTokens doc defaults tokens := by
  refine ⟨fun quote hquote => ?_, fun others hothers => ?_⟩
  · rw [blocksOfTokens, blocksOfTokens, fences_map_spelledOut]
    refine Fence.alike_blocksOfFences (Text.undone_of_mem hquote) hdefaults (fun f hf => ?_) doc
    obtain ⟨t, ht, rfl⟩ := List.mem_map.1 hf
    obtain ⟨hmem, hfence⟩ := List.mem_filter.1 ht
    exact hinfo t hmem hfence
  · rw [blocksOfTokens, hothers, blocksOfTokens]

/-- A heading, a fence that switches one default off and ends in a key without a value, and a fence
without a language. -/
theorem blocksOfTokens_spelledOut_overridden :
    let defaults : HeaderArgs :=
      [(Text.lit "tangle", Text.lit "my app.py"), (Text.lit "mkdirp", Text.lit "yes")]
    let fence (info : String) (line : Int) : Token :=
      ⟨Text.lit "fence", Text.lit info, Text.lit "x\n", some (line, line + 3)⟩
    let tokens : List Token :=
      [⟨Text.lit "heading_open", [], [], none⟩, fence "py :TANGLE '' :noweb" 2, fence "" 6]
    let doc : Path := .ofText (Text.lit "doc.md")
    defaults.IsSpellable ∧
      (∀ t ∈ tokens, t.isFence = true → Text.shellWords t.info ≠ none) ∧
      (∀ quote ∈ [singleQuoted, shellQuoted],
        List.Forall₂ Block.Alike (blocksOfTokens doc defaults tokens).value
          (blocksOfTokens doc [] (tokens.map (Token.spelledOut quote defaults))).value) ∧
      blocksOfTokens doc defaults tokens.tail = blocksOfTokens doc defaults tokens := by
  intro defaults fence tokens doc
  have hdefaults : defaults.IsSpellable :=
    ⟨by decide +kernel, by decide +kernel, by decide +kernel⟩
  have hinfo : ∀ t ∈ tokens, t.isFence = true → Text.shellWords t.info ≠ none := by decide +kernel
  obtain ⟨halike, hothers⟩ := blocksOfTokens_spelledOut doc hdefaults hinfo
  exact ⟨hdefaults, hinfo, halike, hothers tokens.tail (by decide +kernel)⟩

example :
    Info.completed shellQuoted [(Text.lit "tangle", Text.lit "my app.py"), (Text.lit "a", [])]
      (Text.lit "py :a b") = Text.lit "py :a b :tangle 'my app.py'" := by
  decide +kernel

end LiterateEdit
