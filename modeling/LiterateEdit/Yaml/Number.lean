import LiterateEdit.Text.Blank
import LiterateEdit.Text.Digit
import LiterateEdit.Text.LowerCase
import LiterateEdit.Yaml.Error
import LiterateEdit.Yaml.Value

/-!
# Numbers in YAML scalars

Which plain scalars are numbers is decided by their written form (`isIntForm`, `isFloatForm`). A
scalar that is tagged as a number need not have such a form, so reading a number can fail.

Whole numbers are written in base ten, two, eight or sixteen, or with colons in base sixty;
floating- point numbers in the usual way, or with colons in base sixty. Underscores may stand
anywhere and mean nothing.
-/

namespace LiterateEdit.Yaml

/-! ### Written forms -/

/-- A scalar without the line feed at its end, if there is one. -/
def withoutFeed (t : Text) : Text := if t.getLast? = some '\n' then t.dropLast else t

/-- A scalar without its sign, if there is one. -/
def withoutSign : Text → Text
  | '+' :: t => t
  | '-' :: t => t
  | t => t

/-- Is `c` a digit or an underscore? -/
def isDigitOrLine (c : Char) : Bool := Text.isAsciiDigit c || c = '_'

/-- Is the text one or two digits that make less than sixty? -/
def isSixtieth : Text → Bool
  | [a] => Text.isAsciiDigit a
  | [a, b] => Text.isAsciiDigit a && a ≤ '5' && Text.isAsciiDigit b
  | _ => false

/-- Are the texts behind the first all digits in base sixty, and is there one? -/
def isSexagesimal : List Text → Bool
  | _ :: p :: ps => (p :: ps).all isSixtieth
  | _ => false

/-- Does a text start with a digit, with only digits and underscores behind it? -/
def isDigitRun : Text → Bool
  | [] => false
  | c :: t => Text.isAsciiDigit c && t.all isDigitOrLine

/-- Is the scalar written like a whole number? -/
def isIntForm (t : Text) : Bool :=
  match withoutSign (withoutFeed t) with
  | ['0'] => true
  | '0' :: 'b' :: r => r ≠ [] && r.all fun c => c = '0' || c = '1' || c = '_'
  | '0' :: 'x' :: r => r ≠ [] && r.all fun c => (Text.hexValue? c).isSome || c = '_'
  | '0' :: r => r.all fun c => ('0' ≤ c && c ≤ '7') || c = '_'
  | u =>
    isDigitRun u ||
      match Text.splitOn (· = ':') u with
      | p :: ps => isDigitRun p && isSexagesimal (p :: ps)
      | [] => false

/-- Is the text empty or an exponent with a sign? -/
def isExponent : Text → Bool
  | [] => true
  | e :: s :: d :: ds =>
    (e = 'e' || e = 'E') && (s = '+' || s = '-') && (d :: ds).all Text.isAsciiDigit
  | _ => false

/-- Is the text a fraction behind its point, possibly with an exponent? -/
def isFraction (t : Text) : Bool := isExponent (t.dropWhile isDigitOrLine)

/-- Is the scalar written like a floating-point number? -/
def isFloatForm (t : Text) : Bool :=
  let t := withoutFeed t
  let u := withoutSign t
  let whole := u.takeWhile (· ≠ '.')
  let behind := u.drop whole.length
  [".inf", ".Inf", ".INF"].any (fun s => Text.lit s = u) ||
    [".nan", ".NaN", ".NAN"].any (fun s => Text.lit s = t) ||
    match behind with
    | [] => false
    | _ :: fraction =>
      if whole = [] then
        u = t && (fraction.head?.map Text.isAsciiDigit).getD false && isFraction fraction
      else
        (isDigitRun whole && isFraction fraction) ||
          (fraction.all isDigitOrLine &&
            match Text.splitOn (· = ':') whole with
            | p :: ps => isDigitRun p && isSexagesimal (p :: ps)
            | [] => false)

/-! ### Whole numbers -/

/-- The error for a text that is no number in a base. -/
def noNumber (base : Nat) (t : Text) : Error :=
  .unfit (Text.lit "invalid literal for int() with base " ++ Text.ofNat base ++ Text.lit ": " ++
    Text.quoted t)

/-- The value of a digit in bases up to sixteen. -/
def digitValue? (c : Char) : Option Nat :=
  match Text.decimalValue? c with
  | some d => some d
  | none => Text.hexValue? c

/-- What may stand before the digits in a base. -/
def baseMark (base : Nat) : List Char :=
  if base = 2 then ['b', 'B'] else if base = 8 then ['o', 'O']
  else if base = 16 then ['x', 'X'] else []

/-- Read a whole number in a base: white space around it, a sign, and the mark of the base are
allowed. -/
def readInt (base : Nat) (t : Text) : Except Error Int :=
  let s := Text.strip t
  let u := withoutSign s
  let digits :=
    match u with
    | '0' :: m :: d => if m ∈ baseMark base then d else u
    | _ => u
  let values := digits.filterMap digitValue?
  if values.length ≠ digits.length ∨ digits = [] ∨ values.any (base ≤ ·) then
    .error (noNumber base t)
  else if base = 10 ∧ Text.maxDigits < digits.length then
    .error (.unfit (Text.DigitError.tooMany digits.length).message)
  else
    let n : Nat := values.foldl (fun n d => n * base + d) 0
    .ok (if s.head? = some '-' then -(n : Int) else n)

/-- Is the sign of a scalar a minus? -/
def isNegative (t : Text) : Bool := t.head? = some '-'

/-- The number that digits in base sixty make. -/
def ofSixtieths (ns : List Int) : Int := ns.foldl (fun n d => n * 60 + d) 0

/-- The whole number that a scalar is. -/
def intOfText (t : Text) : Except Error Int := do
  let t := t.filter (· ≠ '_')
  if t = [] then throw .noDigits
  let u := withoutSign t
  let n ←
    match u with
    | [] => throw .noDigits
    | ['0'] => pure 0
    | '0' :: 'b' :: r => readInt 2 r
    | '0' :: 'x' :: r => readInt 16 r
    | '0' :: _ => readInt 8 u
    | _ =>
      if ':' ∈ u then do
        let parts ← (Text.splitOn (· = ':') u).mapM (readInt 10)
        pure (ofSixtieths parts)
      else readInt 10 u
  return if isNegative t then -n else n

/-! ### Floating-point numbers -/

/-- The decimal that a text without sign writes: its digits and its exponent. -/
def readDecimalForm (t : Text) : Option (Nat × Int) :=
  let whole := t.takeWhile Text.isAsciiDigit
  let t := t.drop whole.length
  let (fraction, t) :=
    match t with
    | '.' :: r =>
      let f := r.takeWhile Text.isAsciiDigit
      (f, r.drop f.length)
    | _ => ([], t)
  let digits := whole ++ fraction
  let shift : Int := -(fraction.length : Int)
  if digits = [] then none
  else
    match t with
    | [] => some (Text.readNat digits, shift)
    | e :: r =>
      let d := withoutSign r
      if (e = 'e' ∨ e = 'E') ∧ d ≠ [] ∧ d.all Text.isAsciiDigit then
        let n : Int := Text.readNat d
        some (Text.readNat digits, shift + if isNegative r then -n else n)
      else none

/-- Read a floating-point number: white space around it and a sign are allowed. -/
def readFloat (t : Text) : Except Error Float :=
  let ascii := t.map fun c =>
    match Text.decimalValue? c with
    | some d => Char.ofNat (48 + d)
    | none => c
  let s := Text.asciiLower (Text.strip ascii)
  let u := withoutSign s
  let magnitude : Option Float :=
    if u = Text.lit "inf" ∨ u = Text.lit "infinity" then some (1 / 0)
    else if u = Text.lit "nan" then some (0 / 0)
    else (readDecimalForm u).map fun d => Decimal.ofDecimal d.1 d.2
  match magnitude with
  | none => .error (.unfit (Text.lit "could not convert string to float: " ++ Text.quoted t))
  | some x => .ok (if isNegative s then -x else x)

/-- The sum of the digits in base sixty, the last first, each times its power of sixty. -/
def sumSixtieths (power : Nat) (sum : Float) : List Float → Float
  | [] => sum
  | x :: xs => sumSixtieths (power * 60) (sum + x * Decimal.nearest power 1) xs

/-- The floating-point number that a scalar is. -/
def floatOfText (t : Text) : Except Error Float := do
  let t := Text.lower (t.filter (· ≠ '_'))
  if t = [] then throw .noDigits
  let u := withoutSign t
  let x : Float ←
    if u = Text.lit ".inf" then pure (1 / 0)
    else if u = Text.lit ".nan" then pure (0 / 0)
    else if ':' ∈ u then do
      let parts ← (Text.splitOn (· = ':') u).mapM readFloat
      pure (sumSixtieths 1 0 parts.reverse)
    else readFloat u
  return if isNegative t ∧ !x.isNaN then -x else x

end LiterateEdit.Yaml
