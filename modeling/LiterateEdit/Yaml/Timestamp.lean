import LiterateEdit.Yaml.Error
import LiterateEdit.Yaml.Value

/-!
# Days and times in YAML scalars

A point in time is written as a day, or as a day and a time, possibly with a fraction of a second
and with the distance from universal time. Reading takes a text apart first (`Timestamp.ofText?`)
and then checks that the parts make a day of the calendar and a time of the day.
-/

namespace LiterateEdit.Yaml

/-- A time as it is written. -/
structure WrittenTime where
  hour : Nat
  minute : Nat
  second : Nat
  /-- The digits behind the point. -/
  fraction : Text
  /-- The distance from universal time in minutes. -/
  offset : Option Int
  deriving DecidableEq

/-- A point in time as it is written. -/
structure Timestamp where
  year : Nat
  month : Nat
  day : Nat
  /-- Have the month and the day two digits each? -/
  isFull : Bool
  /-- The time, if there is one. -/
  time : Option WrittenTime
  deriving DecidableEq

namespace Timestamp

/-- Between `least` and `most` digits and what follows them. -/
def digits (least most : Nat) (t : Text) : Option (Text × Text) :=
  let ds := (t.take most).takeWhile Text.isAsciiDigit
  if least ≤ ds.length then some (ds, t.drop ds.length) else none

/-- What follows a character. -/
def behind (c : Char) : Text → Option Text
  | [] => none
  | d :: t => if d = c then some t else none

/-- Is `c` a space or a tab? -/
def isGap (c : Char) : Bool := c = ' ' || c = '\t'

/-- The distance from universal time that a text is; the empty text is none. -/
def offsetOfText (t : Text) : Option (Option Int) :=
  match t.dropWhile isGap with
  | [] => if t = [] then some none else none
  | ['Z'] => some (some 0)
  | s :: r =>
    if s = '+' ∨ s = '-' then do
      let (h, r) ← digits 1 2 r
      let minutes ←
        match r with
        | [] => some 0
        | r => do
          let (m, r) ← digits 2 2 (← behind ':' r)
          if r = [] then some (Text.readNat m) else none
      let n : Int := Text.readNat h * 60 + minutes
      some (some (if s = '-' then -n else n))
    else none

/-- The time that a text is. -/
def timeOfText (t : Text) : Option WrittenTime := do
  let (h, t) ← digits 1 2 t
  let (m, t) ← digits 2 2 (← behind ':' t)
  let (s, t) ← digits 2 2 (← behind ':' t)
  let (f, t) :=
    match t with
    | '.' :: r =>
      let f := r.takeWhile Text.isAsciiDigit
      (f, r.drop f.length)
    | _ => ([], t)
  let offset ← offsetOfText t
  some ⟨Text.readNat h, Text.readNat m, Text.readNat s, f, offset⟩

/-- The point in time that a text is. -/
def ofText? (t : Text) : Option Timestamp := do
  let t := if t.getLast? = some '\n' then t.dropLast else t
  let (y, t) ← digits 4 4 t
  let (m, t) ← digits 1 2 (← behind '-' t)
  let (d, t) ← digits 1 2 (← behind '-' t)
  let full := m.length = 2 && d.length = 2
  match t with
  | [] => some ⟨Text.readNat y, Text.readNat m, Text.readNat d, full, none⟩
  | c :: r =>
    let r ← if c = 'T' ∨ c = 't' then some r
      else if isGap c then some (r.dropWhile isGap) else none
    let time ← timeOfText r
    some ⟨Text.readNat y, Text.readNat m, Text.readNat d, full, some time⟩

/-- Is a plain scalar a point in time? A day without a time has to be written in full. -/
def isForm (t : Text) : Bool :=
  match ofText? t with
  | none => false
  | some s => s.isFull || s.time.isSome

/-- The number of days of a month. -/
def daysIn (year month : Nat) : Nat :=
  if month = 2 then
    if year % 4 = 0 ∧ (year % 100 ≠ 0 ∨ year % 400 = 0) then 29 else 28
  else if month = 4 ∨ month = 6 ∨ month = 9 ∨ month = 11 then 30
  else 31

/-- The day of the calendar, if there is one. -/
def date (s : Timestamp) : Except Error Date :=
  if s.year = 0 then .error (.unfit (Text.lit "year 0 is out of range"))
  else if s.month < 1 ∨ 12 < s.month then .error (.unfit (Text.lit "month must be in 1..12"))
  else if s.day < 1 ∨ daysIn s.year s.month < s.day then
    .error (.unfit (Text.lit "day is out of range for month"))
  else .ok ⟨s.year, s.month, s.day⟩

/-- The time of the day, if there is one. -/
def checkTime (w : WrittenTime) : Except Error Time :=
  if 23 < w.hour then .error (.unfit (Text.lit "hour must be in 0..23"))
  else if 59 < w.minute then .error (.unfit (Text.lit "minute must be in 0..59"))
  else if 59 < w.second then .error (.unfit (Text.lit "second must be in 0..59"))
  else
    let micro := w.fraction.take 6
    .ok ⟨w.hour, w.minute, w.second, Text.readNat (micro ++ List.replicate (6 - micro.length) '0')⟩

/-- The distance from universal time, if it is less than a day. -/
def checkOffset (offset : Option Int) : Except Error Unit :=
  match offset with
  | none => .ok ()
  | some m =>
    if m.natAbs < 1440 then .ok ()
    else
      let reason := Text.lit "offset must be a timedelta strictly between -timedelta(hours=24) " ++
        Text.lit "and timedelta(hours=24), not " ++ Value.quotedSpan m ++ ['.']
      .error (.unfit reason)

/-- The value of a point in time. -/
def value (s : Timestamp) : Except Error Value :=
  match s.time with
  | none => do return .date (← s.date)
  | some w => do
    checkOffset w.offset
    return .moment (← s.date) (← checkTime w) w.offset

end Timestamp

end LiterateEdit.Yaml
