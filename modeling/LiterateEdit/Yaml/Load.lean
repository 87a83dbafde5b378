import LiterateEdit.Yaml.Node
import LiterateEdit.Yaml.Number
import LiterateEdit.Yaml.Timestamp

/-!
# Reading YAML documents

From the tree of nodes to a value. Each scalar becomes a value of the type of its tag; a mapping may
merge others into itself, its own entries taking precedence; keys must not be collections.

If several things are wrong with a tree, the one told is the one nearest to the root, and of those
at the same depth the first: the tree is checked level by level (`Node.check`). After that its value
is built (`Node.value`).

`load` goes all the way from the text.
-/

namespace LiterateEdit.Yaml

/-! ### The types of plain scalars -/

/-- The names of the truth values. -/
def truthNames : List (String × Bool) :=
  [("yes", true), ("no", false), ("true", true), ("false", false), ("on", true), ("off", false)]

/-- The spellings of a name: in lower case, with a capital, in capitals. -/
def spellings (s : String) : List Text :=
  let t := Text.lit s
  [t, (t.take 1).map Char.toUpper ++ t.drop 1, Text.asciiUpper t]

/-- The type of a plain scalar. -/
def implicitTag (t : Text) : Tag :=
  let u := withoutFeed t
  if t = [] then .null
  else if truthNames.any fun n => (spellings n.1).contains u then .bool
  else if isFloatForm t then .float
  else if isIntForm t then .int
  else if u = ['<', '<'] then .merge
  else if u = ['~'] ∨ (spellings "null").contains u then .null
  else if Timestamp.isForm t then .timestamp
  else if u = ['='] then .value
  else if u = ['!'] ∨ u = ['&'] ∨ u = ['*'] then .unknown
  else .text

/-! ### Scalars -/

/-- The value of a character in base sixty-four. -/
def sixtyFourValue? (c : Char) : Option Nat :=
  if 'A' ≤ c ∧ c ≤ 'Z' then some (c.toNat - 65)
  else if 'a' ≤ c ∧ c ≤ 'z' then some (c.toNat - 71)
  else if Text.isAsciiDigit c then some (c.toNat + 4)
  else if c = '+' then some 62
  else if c = '/' then some 63
  else none

/-- The bytes of a text in base sixty-four. `place` is how many characters of a group of four have
been read, `carry` the bits of them that are left, and `pads` how many paddings have come. Other
characters are passed over. -/
def ofBase64 (place carry pads : Nat) : Text → Option (List UInt8)
  | [] => if place = 0 then some [] else none
  | c :: t =>
    if c = '=' then
      if 2 ≤ place then
        if 4 ≤ place + pads + 1 then some [] else ofBase64 place carry (pads + 1) t
      else ofBase64 place carry pads t
    else
      match sixtyFourValue? c with
      | none => ofBase64 place carry pads t
      | some v =>
        match place with
        | 0 => ofBase64 1 v 0 t
        | 1 => (ofBase64 2 (v % 16) 0 t).map (UInt8.ofNat (carry * 4 + v / 16) :: ·)
        | 2 => (ofBase64 3 (v % 4) 0 t).map (UInt8.ofNat (carry * 16 + v / 4) :: ·)
        | _ => (ofBase64 0 0 0 t).map (UInt8.ofNat (carry * 64 + v) :: ·)

/-- Is a tag the type of a scalar, and what is its value then? -/
def scalarValue? (tag : Tag) (t : Text) : Option (Except Error Value) :=
  match tag with
  | .null => some (.ok .null)
  | .bool =>
    some <|
      match truthNames.find? fun n => Text.lit n.1 = Text.lower t with
      | some n => .ok (.bool n.2)
      | none => .error .noTruthValue
  | .int => some ((intOfText t).map .int)
  | .float => some ((floatOfText t).map .float)
  | .binary =>
    some <|
      if t.all fun c => c.toNat < 128 then
        match ofBase64 0 0 0 t with
        | some bs => .ok (.bytes bs)
        | none => .error .malformed
      else .error .malformed
  | .timestamp =>
    some <|
      match Timestamp.ofText? t with
      | some s => s.value
      | none => .error .noTimestamp
  | .text => some (.ok (.text t))
  | _ => none

namespace Node

/-- The tag of a node. -/
def tag : Node → Tag
  | .scalar tag _ => tag
  | .sequence tag _ => tag
  | .mapping tag _ => tag
  | .cycle true => .map
  | .cycle false => .seq

mutual

/-- How many nodes lie one in another. -/
def height : Node → Nat
  | .scalar .. => 1
  | .sequence _ items => itemsHeight items + 1
  | .mapping _ entries => entriesHeight entries + 1
  | .cycle _ => 1

/-- The greatest height of a list of nodes. -/
def itemsHeight : List Node → Nat
  | [] => 0
  | n :: ns => max n.height (itemsHeight ns)

/-- The greatest height of the nodes in a list of entries. -/
def entriesHeight : List (Node × Node) → Nat
  | [] => 0
  | (k, v) :: kvs => max (max k.height v.height) (entriesHeight kvs)

end

/-- The text of a node that has to be a scalar. A mapping stands for the value of its key `=`. -/
def scalarText : Nat → Node → Except Error Text
  | 0, _ => .error .malformed
  | fuel + 1, n =>
    match n with
    | .scalar _ t => .ok t
    | .mapping _ entries =>
      match entries.find? fun e => e.1.tag = .value with
      | some e => scalarText fuel e.2
      | none => .error .malformed
    | _ => .error .malformed

/-- The value of a node that is no collection by its tag. -/
def scalarOf? (fuel : Nat) (n : Node) : Option (Except Error Value) :=
  match scalarValue? n.tag [] with
  | none => none
  | some _ =>
    match scalarText fuel n with
    | .error e => some (.error e)
    | .ok t => scalarValue? n.tag t

/-- Is the tag that of a collection? -/
def isCollection (n : Node) : Bool :=
  match n.tag with
  | .seq => true
  | .map => true
  | .set => true
  | .omap => true
  | .pairs => true
  | _ => false

/-- A key that is written `=` is the text of it. -/
def plainKey : Node → Node
  | .scalar .value t => .scalar .text t
  | n => n

/-- The entries of a mapping with those that it merges, which come first. -/
def merged : Nat → List (Node × Node) → Except Error (List (Node × Node))
  | 0, _ => .error .malformed
  | fuel + 1, entries => do
    let own := (entries.filter fun e => e.1.tag ≠ .merge).map fun e => (plainKey e.1, e.2)
    let others ← (entries.filter fun e => e.1.tag = .merge).mapM fun e =>
      match e.2 with
      | .mapping _ more => merged fuel more
      | .cycle true => .ok []
      | .sequence _ items => do
        let parts ← items.mapM fun item =>
          match item with
          | .mapping _ more => merged fuel more
          | .cycle true => .ok []
          | _ => .error .malformed
        return parts.reverse.flatten
      | _ => .error .malformed
    return others.flatten ++ own

/-- Check a node as far as it can be checked without looking into it. -/
def checkOutside (fuel : Nat) (n : Node) : Except Error Unit :=
  if n.isCollection then .ok ()
  else
    match n.scalarOf? fuel with
    | some (.ok _) => .ok ()
    | some (.error e) => .error e
    | none => .error .malformed

/-- Check the entries of a mapping; the nodes to look into later are the answer. -/
def checkEntries (fuel : Nat) : List (Node × Node) → Except Error (List Node)
  | [] => .ok []
  | (k, v) :: rest => do
    checkOutside fuel k
    if k.isCollection then throw .malformed
    checkOutside fuel v
    return v :: (← checkEntries fuel rest)

/-- Check the pairs of a list of pairs; the nodes to look into later are the answer. -/
def checkPairs (fuel : Nat) : List Node → Except Error (List Node)
  | [] => .ok []
  | .mapping _ [(k, v)] :: rest => do
    checkOutside fuel k
    checkOutside fuel v
    return k :: v :: (← checkPairs fuel rest)
  | _ => .error .malformed

/-- Check the items of a sequence; the nodes to look into later are the answer. -/
def checkItems (fuel : Nat) : List Node → Except Error (List Node)
  | [] => .ok []
  | n :: rest => do
    checkOutside fuel n
    return n :: (← checkItems fuel rest)

/-- Look into a node; the nodes to look into later are the answer. -/
def checkInside (fuel : Nat) (n : Node) : Except Error (List Node) :=
  match n.tag, n with
  | .seq, .sequence _ items => checkItems fuel items
  | .omap, .sequence _ items => checkPairs fuel items
  | .pairs, .sequence _ items => checkPairs fuel items
  | .map, .mapping _ entries => do checkEntries fuel (← merged fuel entries)
  | .set, .mapping _ entries => do checkEntries fuel (← merged fuel entries)
  | _, .cycle _ => .ok []
  | _, _ => if n.isCollection then .error .malformed else .ok []

/-- Check nodes of one depth, then those one deeper. At most `fuel` depths are checked. -/
def checkLevels : Nat → List Node → Except Error Unit
  | 0, _ => .ok ()
  | fuel + 1, ns => do
    let next ← ns.mapM (checkInside (fuel + 1))
    match next.flatten with
    | [] => return ()
    | n :: ns => checkLevels fuel (n :: ns)

/-- Check a tree. -/
def check (n : Node) : Except Error Unit := do
  checkOutside (n.height + 1) n
  checkLevels (n.height + 1) [n]

/-- The value of a checked tree of a height. -/
def valueWithin : Nat → Node → Value
  | 0, _ => .null
  | fuel + 1, n =>
    let entriesOf (entries : List (Node × Node)) : List (Value × Value) :=
      (((merged (fuel + 1) entries).toOption.getD []).map fun e =>
        (valueWithin fuel e.1, valueWithin fuel e.2)).foldl
          (fun kvs kv => Value.insert kv.1 kv.2 kvs) []
    match n.tag, n with
    | .seq, .sequence _ items => .list (items.map (valueWithin fuel))
    | .map, .mapping _ entries => .map (entriesOf entries)
    | .set, .mapping _ entries => .set ((entriesOf entries).map (·.1))
    | _, .cycle isMap => .cycle isMap
    | _, .sequence _ items =>
      .list (items.map fun item =>
        match item with
        | .mapping _ [(k, v)] => .pair (valueWithin fuel k) (valueWithin fuel v)
        | _ => .null)
    | _, _ =>
      match n.scalarOf? (fuel + 1) with
      | some (.ok v) => v
      | _ => .null

/-- The value of a tree. -/
def value (n : Node) : Except Error Value := do
  n.check
  return valueWithin (n.height + 1) n

end Node

/-- The value of the one document of a text; nothing if there is no document. -/
def load (t : Text) : Except Error Value := do
  match ← Node.ofTokens? implicitTag (tokens t) with
  | none => return .null
  | some n => n.value

end LiterateEdit.Yaml
