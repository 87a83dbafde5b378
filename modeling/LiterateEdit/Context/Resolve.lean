import LiterateEdit.Block.Target
import LiterateEdit.Notice
import LiterateEdit.Text.Digit
import LiterateEdit.Text.Quoted

/-!
# The context of a block

The context of a block is made of the other blocks of its target: those before it and those behind
it. A block without a target has no context, nor has one that is the only block of its target or
that is not found among them. If several blocks have the identity of the one in question, the first
counts.

A user selects a block by its identity, its name, or its number in the document (`select`).
-/

namespace LiterateEdit

/-- Blocks around one block. -/
structure Partition where
  /-- The blocks before. -/
  before : List Block
  /-- The blocks behind. -/
  after : List Block
  deriving DecidableEq

namespace Partition

/-- Are there no blocks around? -/
def isEmpty (p : Partition) : Bool := p.before.isEmpty && p.after.isEmpty

/-- Cut blocks at the first one with an identity. If there is none, all blocks are behind. -/
def around (blocks : List Block) (identity : Text) : Noted Partition :=
  match blocks.dropWhile fun b => b.identity ≠ identity with
  | [] => .quiet ⟨[], blocks⟩
  | _ :: after =>
    let others := after.countP fun b => b.identity = identity
    ⟨⟨blocks.takeWhile fun b => b.identity ≠ identity, after⟩,
      if others = 0 then []
      else
        [⟨.warning, .resolve, Text.lit "Identity " ++ identity ++ Text.lit " matches " ++
          Text.ofNat (others + 1) ++ Text.lit " blocks; using the first"⟩]⟩

/-- The context of a block among the blocks of its document, if there is one. -/
def ofBlock? (blocks : List Block) (current : Block) : Noted (Option Partition) :=
  let siblings := blocksFor blocks current.target
  let notice (l : Level) (m : Text) : Noted (Option Partition) :=
    ⟨none, [⟨l, .resolve, Text.lit "Block " ++ current.identity ++ m⟩]⟩
  if siblings.isEmpty then notice .debug (Text.lit " has no tangle target; no context")
  else if siblings.all fun b => b.identity ≠ current.identity then
    notice .warning (Text.lit " not found among blocks for " ++ current.target.getD [])
  else
    (around siblings current.identity).andThen fun p =>
      if p.isEmpty then
        notice .debug (Text.lit " is the only block for " ++ current.target.getD [])
      else .quiet (some p)

end Partition

/-! ### Selecting a block -/

/-- Why no block is selected. -/
inductive SelectError where
  /-- No block matches. -/
  | notFound (key : Text)
  /-- The key is made of digits that cannot be read. -/
  | digits (e : Text.DigitError)
  deriving DecidableEq

/-- What is told when no block is selected. -/
def SelectError.message : SelectError → Text
  | .notFound key => Text.lit "No block matches " ++ Text.quoted key
  | .digits e => e.message

/-- The place of the block that a key selects: by identity, else by name, else by number. -/
def select (blocks : List Block) (key : Text) : Noted (Except SelectError Nat) :=
  match blocks.findIdx? fun b => b.identity = key with
  | some i => .quiet (.ok i)
  | none =>
    match blocks.findIdx? fun b => b.name = some key with
    | some i =>
      let n := blocks.countP fun b => b.name = some key
      ⟨.ok i,
        if n ≤ 1 then []
        else
          [⟨.warning, .resolve, Text.lit "Name " ++ Text.quoted key ++ Text.lit " matches " ++
            Text.ofNat n ++ Text.lit " blocks; using the first"⟩]⟩
    | none =>
      if Text.allDigits key then
        match Text.readDecimal key with
        | .error e => .quiet (.error (.digits e))
        | .ok k =>
          if 1 ≤ k ∧ k ≤ blocks.length then .quiet (.ok (k - 1))
          else .quiet (.error (.notFound key))
      else .quiet (.error (.notFound key))

end LiterateEdit
