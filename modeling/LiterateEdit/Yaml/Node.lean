import LiterateEdit.Yaml.Token

/-!
# The nodes of a YAML text

The tokens of a text make a tree of scalars, sequences and mappings, each with a tag that says of
what type it is. A node without a tag gets one from its form: sequences and mappings have one each,
a scalar in quotes is a text, and a plain scalar is matched against the written forms of the other
types (`Yaml.implicitTag`, which comes in as a parameter here).

An anchor gives a node a name and an alias stands for the node of its name. A node that an alias
inside of it stands for is not known yet; the alias then is a `cycle`.

`Node.ofTokens?` reads the one document of a text. The answer is `none` inside if there is no
document at all.
-/

namespace LiterateEdit.Yaml

/-- The types that a node can be of. -/
inductive Tag where
  | null
  | bool
  | int
  | float
  | binary
  | timestamp
  | text
  | seq
  | map
  | set
  | omap
  | pairs
  | merge
  | value
  /-- A type that is not known. -/
  | unknown
  deriving DecidableEq

/-- What the names of all types of the language start with. -/
def Tag.family : Text := Text.lit "tag:yaml.org,2002:"

/-- The names of the types. -/
def Tag.names : List (String × Tag) :=
  [("null", .null), ("bool", .bool), ("int", .int), ("float", .float), ("binary", .binary),
   ("timestamp", .timestamp), ("str", .text), ("seq", .seq), ("map", .map), ("set", .set),
   ("omap", .omap), ("pairs", .pairs), ("merge", .merge), ("value", .value)]

/-- The type of a full name. -/
def Tag.ofName (t : Text) : Tag :=
  match Text.dropStart? Tag.family t with
  | none => .unknown
  | some name => ((Tag.names.find? fun n => Text.lit n.1 = name).map (·.2)).getD .unknown

/-- A node of the tree. -/
inductive Node where
  /-- A scalar. -/
  | scalar (tag : Tag) (t : Text)
  /-- A sequence. -/
  | sequence (tag : Tag) (items : List Node)
  /-- A mapping. -/
  | mapping (tag : Tag) (entries : List (Node × Node))
  /-- The node that this place lies in, a mapping or a sequence. -/
  | cycle (isMap : Bool)

/-- What an anchor stands for. -/
inductive Anchored where
  /-- A node that has been read. -/
  | node (n : Node)
  /-- A node that is being read, a mapping or a sequence. -/
  | inside (isMap : Bool)

/-- The state of reading nodes. -/
structure Composer where
  /-- The tokens that are left. -/
  tokens : List Token
  /-- What the tag handles stand for. -/
  handles : List (Text × Text)
  /-- What the anchors stand for. -/
  anchors : List (Text × Anchored)
  /-- The tag of a plain scalar. -/
  implicitTag : Text → Tag
  /-- How many collections are open. -/
  depth : Nat := 0

namespace Composer

/-- Reading nodes. -/
abbrev Compose := StateT Composer (Except Error)

/-- The next token. -/
def peek : Compose Token := do
  match (← get).tokens with
  | [] => throw .malformed
  | .fault e :: _ => throw e
  | t :: _ => return t

/-- Pass the next token. -/
def skip : Compose Unit := modify fun c => { c with tokens := c.tokens.drop 1 }

/-- Is the next token one of these? -/
def at? (ts : List Token) : Compose Bool := do return (← peek) ∈ ts

/-- Pass a token that has to come next. -/
def expect (t : Token) : Compose Unit := do
  if (← peek) = t then skip else throw .malformed

/-- Pass a token if it comes next. -/
def accept (t : Token) : Compose Bool := do
  if (← peek) = t then
    skip
    return true
  else return false

/-- The anchor that may come next. -/
def anchor? : Compose (Option Text) := do
  match ← peek with
  | .anchor name =>
    skip
    return some name
  | _ => return none

/-- The tag that may come next. -/
def tag? : Compose (Option TagName) := do
  match ← peek with
  | .tag t =>
    skip
    return some t
  | _ => return none

/-- The anchor and the tag of a node, in either order. -/
def properties : Compose (Option Text × Option TagName) := do
  match ← anchor? with
  | some a => return (some a, ← tag?)
  | none =>
    match ← tag? with
    | none => return (none, none)
    | some t => return (← anchor?, some t)

/-- The full name of a tag. -/
def tagName (t : TagName) : Compose Text := do
  match t.handle with
  | none => return t.suffix
  | some h =>
    match (← get).handles.lookup h with
    | none => throw .malformed
    | some meaning => return meaning ++ t.suffix

/-- Say what an anchor stands for. -/
def bind (a : Option Text) (x : Anchored) : Compose Unit :=
  match a with
  | none => pure ()
  | some a => modify fun c => { c with anchors := (a, x) :: c.anchors }

/-- How many collections can be open at a time. -/
def maxDepth : Nat := 485

/-- Read what lies inside a collection. -/
def inside (x : Compose α) : Compose α := do
  let depth := (← get).depth
  if depth = maxDepth then throw .tooDeep
  modify fun c => { c with depth := depth + 1 }
  let a ← x
  modify fun c => { c with depth := depth }
  return a

/-- The empty plain scalar. -/
def empty : Compose Node := do return .scalar ((← get).implicitTag []) []

/-- The kinds of places at which a node can stand. -/
inductive Place where
  /-- In brackets or braces. -/
  | flow
  /-- In a block collection or at the top. -/
  | block
  /-- Behind a key of a block mapping, where the items of a sequence need no indentation. -/
  | keyed
  deriving DecidableEq

mutual

/-- Read a node. -/
def node (place : Place) : Nat → Compose Node
  | 0 => throw .malformed
  | fuel + 1 => do
    match ← peek with
    | .alias name =>
      skip
      match (← get).anchors.lookup name with
      | none => throw .malformed
      | some (.node n) => return n
      | some (.inside isMap) => return .cycle isMap
    | _ =>
      let (anchor, written) ← properties
      let name ← match written with
        | none => pure none
        | some t => do pure (some (← tagName t))
      if let some a := anchor then
        if ((← get).anchors.lookup a).isSome then throw .malformed
      let isOpen := name = none || name = some ['!']
      let tagOr (t : Tag) : Tag := if isOpen then t else Tag.ofName (name.getD [])
      let n ←
        match ← peek with
        | .scalar t plain => do
          skip
          let guess := (← get).implicitTag
          let isGuessed := (plain && name = none) || name = some ['!']
          pure (.scalar (tagOr (if isGuessed then guess t else .text)) t)
        | .flowSequenceStart => do
          skip
          bind anchor (.inside false)
          pure (.sequence (tagOr .seq) (← inside (flowItems true fuel)))
        | .flowMappingStart => do
          skip
          bind anchor (.inside true)
          pure (.mapping (tagOr .map) (← inside (flowEntries true fuel)))
        | .blockEntry =>
          if place = .keyed then do
            bind anchor (.inside false)
            pure (.sequence (tagOr .seq) (← inside (openItems fuel)))
          else bare anchor name tagOr
        | .blockSequenceStart =>
          if place = .flow then bare anchor name tagOr
          else do
            skip
            bind anchor (.inside false)
            pure (.sequence (tagOr .seq) (← inside (blockItems fuel)))
        | .blockMappingStart =>
          if place = .flow then bare anchor name tagOr
          else do
            skip
            bind anchor (.inside true)
            pure (.mapping (tagOr .map) (← inside (blockEntries fuel)))
        | _ => bare anchor name tagOr
      bind anchor (.node n)
      return n
where
  /-- A node of which only the properties are written. -/
  bare (anchor name : Option Text) (tagOr : Tag → Tag) : Compose Node := do
    if anchor = none ∧ name = none then throw .malformed
    else return .scalar (tagOr ((← get).implicitTag [])) []

/-- Read a node, or the empty scalar if one of these tokens comes next. -/
def nodeUnless (place : Place) (ts : List Token) : Nat → Compose Node
  | 0 => throw .malformed
  | fuel + 1 => do if ← at? ts then empty else node place fuel

/-- Read the items of a block sequence and its end. -/
def blockItems : Nat → Compose (List Node)
  | 0 => throw .malformed
  | fuel + 1 => do
    if ← accept .blockEntry then
      let n ← nodeUnless .block [.blockEntry, .blockEnd] fuel
      return n :: (← blockItems fuel)
    else
      expect .blockEnd
      return []

/-- Read the items of a sequence without indentation. -/
def openItems : Nat → Compose (List Node)
  | 0 => throw .malformed
  | fuel + 1 => do
    if ← accept .blockEntry then
      let n ← nodeUnless .block [.blockEntry, .key, .value, .blockEnd] fuel
      return n :: (← openItems fuel)
    else return []

/-- Read the entries of a block mapping and its end. -/
def blockEntries : Nat → Compose (List (Node × Node))
  | 0 => throw .malformed
  | fuel + 1 => do
    if ← accept .key then
      let k ← nodeUnless .keyed [.key, .value, .blockEnd] fuel
      let v ←
        if ← accept .value then nodeUnless .keyed [.key, .value, .blockEnd] fuel
        else empty
      return (k, v) :: (← blockEntries fuel)
    else
      expect .blockEnd
      return []

/-- Read the items of a sequence in brackets and its end. -/
def flowItems (first : Bool) : Nat → Compose (List Node)
  | 0 => throw .malformed
  | fuel + 1 => do
    if ← accept .flowSequenceEnd then return []
    else
      if !first then expect .flowEntry
      if ← accept .key then
        let k ← nodeUnless .flow [.value, .flowEntry, .flowSequenceEnd] fuel
        let v ←
          if ← accept .value then nodeUnless .flow [.flowEntry, .flowSequenceEnd] fuel
          else empty
        return .mapping .map [(k, v)] :: (← flowItems false fuel)
      else if ← accept .flowSequenceEnd then return []
      else
        let n ← node .flow fuel
        return n :: (← flowItems false fuel)

/-- Read the entries of a mapping in braces and its end. -/
def flowEntries (first : Bool) : Nat → Compose (List (Node × Node))
  | 0 => throw .malformed
  | fuel + 1 => do
    if ← accept .flowMappingEnd then return []
    else
      if !first then expect .flowEntry
      if ← accept .key then
        let k ← nodeUnless .flow [.value, .flowEntry, .flowMappingEnd] fuel
        let v ←
          if ← accept .value then nodeUnless .flow [.flowEntry, .flowMappingEnd] fuel
          else empty
        return (k, v) :: (← flowEntries false fuel)
      else if ← accept .flowMappingEnd then return []
      else
        let k ← node .flow fuel
        let v ← empty
        return (k, v) :: (← flowEntries false fuel)

end

/-- The tag handles that need no directive. -/
def defaultHandles : List (Text × Text) := [(['!'], ['!']), (['!', '!'], Tag.family)]

/-- Read the directives before a document. -/
def directives (versioned : Bool) : Nat → Compose Unit
  | 0 => throw .malformed
  | fuel + 1 => do
    match ← peek with
    | .directive d =>
      skip
      match d with
      | .version major =>
        if versioned ∨ major ≠ 1 then throw .malformed
        directives true fuel
      | .tag handle meaning =>
        if ((← get).handles.lookup handle).isSome then throw .malformed
        modify fun c => { c with handles := (handle, meaning) :: c.handles }
        directives versioned fuel
      | .other => directives versioned fuel
    | _ => pure ()

/-- Pass the ends of documents. -/
def skipEnds : Nat → Compose Unit
  | 0 => pure ()
  | fuel + 1 => do if ← accept .documentEnd then skipEnds fuel

/-- Read the only document. -/
def document (fuel : Nat) : Compose (Option Node) := do
  let explicit : Bool :=
    match ← peek with
    | .directive _ => true
    | .documentStart => true
    | .done => true
    | _ => false
  let n ←
    if !explicit then do
      modify fun c => { c with handles := defaultHandles }
      pure (some (← node .block fuel))
    else do
      skipEnds fuel
      if (← peek) = .done then pure none
      else
        directives false fuel
        modify fun c => { c with handles := c.handles ++ defaultHandles }
        expect .documentStart
        match ← peek with
        | .directive _ => pure (some (← empty))
        | _ =>
          pure (some (← nodeUnless .block [.documentStart, .documentEnd, .done] fuel))
  skipEnds fuel
  expect .done
  return n

end Composer

/-- The tree that tokens make, if they are those of at most one document. -/
def Node.ofTokens? (implicitTag : Text → Tag) (ts : List Token) : Except Error (Option Node) :=
  (Composer.document (8 * ts.length + 16) |>.run ⟨ts, [], [], implicitTag, 0⟩).map (·.1)

end LiterateEdit.Yaml
