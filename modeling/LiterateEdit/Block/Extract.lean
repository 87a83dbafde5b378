import LiterateEdit.Block.Info
import LiterateEdit.Block.Target
import LiterateEdit.Digest.Sha256

/-!
# From fences to blocks

A fence of a document becomes a block. The header arguments of its info string override the defaults
of the document; the target and the name of the block are read off the result. The identity of a
block is a digest of the document's path and the line of its opening fence, so it stays the same
while the block is edited.

A document may also be given as a sequence of tokens of all kinds, of which the fences count
(`blocksOfTokens`).
-/

namespace LiterateEdit

/-- A fenced piece of a document. -/
structure Fence where
  /-- What stands behind the opening fence. -/
  info : Text
  /-- The text between the fences. -/
  content : Text
  /-- The line of the opening fence. -/
  first : Int
  /-- The line behind the fence. -/
  stop : Int
  deriving DecidableEq

/-- The digits of the digest of a path and a line. -/
def identityDigest (path : Text) (line : Int) : Text :=
  Sha256.hexDigest (Utf8.encode (path ++ [':'] ++ Text.ofInt line))

/-- How many digits of its digest a block's identity keeps. -/
def identityLength : Nat := 12

/-- The identity of the block whose fence opens at a line of a document. -/
def blockIdentity (path : Text) (line : Int) : Text :=
  (identityDigest path line).take identityLength

/-- The block of a fence in the document at `doc`, under the document's default arguments. -/
def Fence.toBlock (doc : Path) (defaults : HeaderArgs) (f : Fence) : Noted Block :=
  (Info.parse f.info).andThen fun info =>
    let args := HeaderArgs.setAll defaults info.args
    .quiet
      { identity := blockIdentity doc.text f.first
        language := info.language
        target := Target.ofArgs args info.language doc
        args := args
        text := f.content
        name :=
          match args.get? (Text.lit "name") with
          | some [] => none
          | name => name
        first := f.first
        stop := f.stop }

/-- The blocks of fences, in order. -/
def blocksOfFences (doc : Path) (defaults : HeaderArgs) : List Fence → Noted (List Block)
  | [] => .quiet []
  | f :: rest =>
    (f.toBlock doc defaults).andThen fun b =>
      (blocksOfFences doc defaults rest).andThen fun bs => .quiet (b :: bs)

/-! ### Tokens -/

/-- A token of a document. -/
structure Token where
  /-- What it is. -/
  kind : Text
  /-- What stands behind its opening fence. -/
  info : Text
  /-- Its text. -/
  content : Text
  /-- The line where it starts and the line behind it, if they are known. -/
  lines : Option (Int × Int)
  deriving DecidableEq

/-- Is the token a fence? -/
def Token.isFence (t : Token) : Bool := t.kind = Text.lit "fence"

/-- The token as a fence. One whose lines are not known stands at the start of the document. -/
def Token.fence (t : Token) : Fence :=
  let (first, stop) := t.lines.getD (0, 0)
  ⟨t.info, t.content, first, stop⟩

/-- The blocks of the fences among tokens, in order. -/
def blocksOfTokens (doc : Path) (defaults : HeaderArgs) (tokens : List Token) :
    Noted (List Block) :=
  blocksOfFences doc defaults ((tokens.filter Token.isFence).map Token.fence)

end LiterateEdit
