import LiterateEdit.Decimal.Shortest
import LiterateEdit.Text.Quoted

/-!
# Values of YAML documents

What a YAML document says: nothing, truth values, numbers, texts, bytes, dates and times, and
sequences, sets and mappings of such values.

A value has two texts. `Value.quoted` shows it with all its parts, texts in quotes; `Value.toText`
is the same except for a text, which is itself, and for dates and times, which are written in the
usual way.

A mapping has each key once. Keys are the same if they are equal as values, and numbers are equal
across their kinds, so `1`, `1.0` and `true` are one key.
-/

namespace LiterateEdit.Yaml

/-- A day of the calendar. -/
structure Date where
  year : Nat
  month : Nat
  day : Nat
  deriving DecidableEq

/-- A time of the day, to the microsecond. -/
structure Time where
  hour : Nat
  minute : Nat
  second : Nat
  microsecond : Nat
  deriving DecidableEq

/-- A value of a YAML document. -/
inductive Value where
  /-- Nothing. -/
  | null
  /-- A truth value. -/
  | bool (b : Bool)
  /-- A whole number. -/
  | int (n : Int)
  /-- A floating-point number. -/
  | float (x : Float)
  /-- A text. -/
  | text (t : Text)
  /-- Bytes. -/
  | bytes (bs : List UInt8)
  /-- A day. -/
  | date (d : Date)
  /-- A day and a time, with the distance from universal time in minutes if it is known. -/
  | moment (d : Date) (t : Time) (offset : Option Int)
  /-- A sequence. -/
  | list (vs : List Value)
  /-- A key with its value in a list of such pairs. -/
  | pair (key value : Value)
  /-- A set. -/
  | set (vs : List Value)
  /-- A mapping, in the order in which the keys first came up. -/
  | map (kvs : List (Value × Value))
  /-- A place at which a sequence or a mapping holds itself. -/
  | cycle (isMap : Bool)
  deriving Inhabited

namespace Value

/-- The name of a value's type. -/
def typeName : Value → String
  | .null => "NoneType"
  | .bool _ => "bool"
  | .int _ => "int"
  | .float _ => "float"
  | .text _ => "str"
  | .bytes _ => "bytes"
  | .date _ => "date"
  | .moment .. => "datetime"
  | .list _ => "list"
  | .pair .. => "tuple"
  | .set _ => "set"
  | .map _ => "dict"
  | .cycle true => "dict"
  | .cycle false => "list"

/-- Is the value one that counts as absent: nothing, false, zero, or empty? -/
def isVoid : Value → Bool
  | .null => true
  | .bool b => !b
  | .int n => n = 0
  | .float x => x == 0
  | .text t => t.isEmpty
  | .bytes bs => bs.isEmpty
  | .list vs => vs.isEmpty
  | .set vs => vs.isEmpty
  | .map kvs => kvs.isEmpty
  | _ => false

/-! ### Text -/

/-- A date as `YYYY-MM-DD`. -/
def dateText (d : Date) : Text :=
  Text.padLeft 4 '0' (Text.ofNat d.year) ++ ['-'] ++ Text.padLeft 2 '0' (Text.ofNat d.month) ++
    ['-'] ++ Text.padLeft 2 '0' (Text.ofNat d.day)

/-- A distance from universal time as hours and minutes. -/
def offsetText (minutes : Int) : Text :=
  let n := minutes.natAbs
  (if minutes < 0 then '-' else '+') :: Text.padLeft 2 '0' (Text.ofNat (n / 60)) ++ [':'] ++
    Text.padLeft 2 '0' (Text.ofNat (n % 60))

/-- A day and a time in the usual way. -/
def momentText (d : Date) (t : Time) (offset : Option Int) : Text :=
  let two (n : Nat) := Text.padLeft 2 '0' (Text.ofNat n)
  dateText d ++ [' '] ++ two t.hour ++ [':'] ++ two t.minute ++ [':'] ++ two t.second ++
    (if t.microsecond = 0 then []
     else '.' :: Text.padLeft 6 '0' (Text.ofNat t.microsecond)) ++
    match offset with
    | none => []
    | some m => offsetText m

/-- A span of minutes, shown with its days and seconds. -/
def quotedSpan (minutes : Int) : Text :=
  let days := Int.fdiv minutes 1440
  let seconds := Int.fmod minutes 1440 * 60
  let parts :=
    (if days = 0 then [] else [Text.lit "days=" ++ Text.ofInt days]) ++
      (if seconds = 0 then [] else [Text.lit "seconds=" ++ Text.ofInt seconds])
  Text.lit "datetime.timedelta(" ++ Text.join (Text.lit ", ") parts ++ [')']

/-- A distance from universal time, shown with its parts. -/
def quotedOffset (minutes : Int) : Text :=
  if minutes = 0 then Text.lit "datetime.timezone.utc"
  else Text.lit "datetime.timezone(" ++ quotedSpan minutes ++ [')']

/-- A day and a time, shown with all parts. -/
def quotedMoment (d : Date) (t : Time) (offset : Option Int) : Text :=
  let seconds :=
    if t.microsecond ≠ 0 then [t.second, t.microsecond]
    else if t.second ≠ 0 then [t.second]
    else []
  let parts := [d.year, d.month, d.day, t.hour, t.minute] ++ seconds
  Text.lit "datetime.datetime(" ++ Text.join (Text.lit ", ") (parts.map Text.ofNat) ++
    (match offset with
     | none => []
     | some m => Text.lit ", tzinfo=" ++ quotedOffset m) ++ [')']

/-- Bytes between quotes. -/
def quotedBytes (bs : List UInt8) : Text :=
  let cs := bs.map fun b => Char.ofNat b.toNat
  let quote := Text.quoteFor cs
  let one (c : Char) : Text :=
    if c = quote ∨ c = '\\' then ['\\', c]
    else if c = '\t' then Text.lit "\\t"
    else if c = '\n' then Text.lit "\\n"
    else if c = '\r' then Text.lit "\\r"
    else if 0x20 ≤ c.toNat ∧ c.toNat < 0x7f then [c]
    else Text.lit "\\x" ++ Text.ofHex 2 c.toNat
  'b' :: quote :: cs.flatMap one ++ [quote]

mutual

/-- The value shown with all its parts. -/
def quoted : Value → Text
  | .null => Text.lit "None"
  | .bool true => Text.lit "True"
  | .bool false => Text.lit "False"
  | .int n => Text.ofInt n
  | .float x => Decimal.text x
  | .text t => Text.quoted t
  | .bytes bs => quotedBytes bs
  | .date d =>
    Text.lit "datetime.date(" ++
      Text.join (Text.lit ", ") ([d.year, d.month, d.day].map Text.ofNat) ++ [')']
  | .moment d t offset => quotedMoment d t offset
  | .list vs => ['['] ++ Text.join (Text.lit ", ") (quotedAll vs) ++ [']']
  | .pair k v => ['('] ++ quoted k ++ Text.lit ", " ++ quoted v ++ [')']
  | .set [] => Text.lit "set()"
  | .set (v :: vs) => ['\x7b'] ++ Text.join (Text.lit ", ") (quotedAll (v :: vs)) ++ ['\x7d']
  | .map kvs => ['\x7b'] ++ Text.join (Text.lit ", ") (quotedEntries kvs) ++ ['\x7d']
  | .cycle true => ['\x7b'] ++ Text.lit "..." ++ ['\x7d']
  | .cycle false => Text.lit "[...]"

/-- The values of a sequence, each shown with all its parts. -/
def quotedAll : List Value → List Text
  | [] => []
  | v :: vs => quoted v :: quotedAll vs

/-- The entries of a mapping, each shown with all its parts. -/
def quotedEntries : List (Value × Value) → List Text
  | [] => []
  | (k, v) :: kvs => (quoted k ++ Text.lit ": " ++ quoted v) :: quotedEntries kvs

end

/-- The value as text. -/
def toText : Value → Text
  | .text t => t
  | .date d => dateText d
  | .moment d t offset => momentText d t offset
  | v => quoted v

/-! ### Keys -/

/-- The days from the start of the calendar to a date. -/
def dayNumber (d : Date) : Int :=
  let y : Int := if d.month ≤ 2 then d.year - 1 else d.year
  let m : Int := if d.month ≤ 2 then d.month + 9 else d.month - 3
  365 * y + y / 4 - y / 100 + y / 400 + (153 * m + 2) / 5 + d.day

/-- The microseconds from the start of the calendar to a moment. -/
def microseconds (d : Date) (t : Time) (offset : Int) : Int :=
  ((dayNumber d * 1440 + t.hour * 60 + t.minute - offset) * 60 + t.second) * 1000000 + t.microsecond

/-- The whole number that a value equals, if it does. -/
def asInt? : Value → Option Int
  | .bool b => some (if b then 1 else 0)
  | .int n => some n
  | .float x => Decimal.toInt? x
  | _ => none

/-- Are two values the same key? -/
def sameKey : Value → Value → Bool
  | .null, .null => true
  | .text t, .text u => t = u
  | .bytes b, .bytes c => b = c
  | .date d, .date e => d = e
  | .moment d t none, .moment e u none => d = e && t = u
  | .moment d t (some o), .moment e u (some p) => microseconds d t o = microseconds e u p
  | .float x, .float y => x == y || (x.isNaN && y.isNaN)
  | v, w =>
    match asInt? v, asInt? w with
    | some m, some n => m = n
    | _, _ => false

/-- The value of a key in a mapping. -/
def lookup (kvs : List (Value × Value)) (key : Value) : Option Value :=
  (kvs.find? fun kv => kv.1.sameKey key).map (·.2)

/-- Give a key of a mapping a value; the key that is there stays as it is. -/
def insert (key value : Value) : List (Value × Value) → List (Value × Value)
  | [] => [(key, value)]
  | (k, v) :: rest =>
    if k.sameKey key then (k, value) :: rest else (k, v) :: insert key value rest

end Value

end LiterateEdit.Yaml
