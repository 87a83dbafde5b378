import LiterateEdit.Decimal.Binary

/-!
# The shortest decimal of a double

A double is written with the fewest digits that read back as the same double, and of the decimals
with that many digits the one nearest to it. The reals that read back as a double form an interval
around it, with its ends if the mantissa is even. For one digit, two digits and so on, the two
neighbours of the double on the grid of decimals with that many digits are tried; the first grid on
which one of them lies in the interval gives the answer.

Numbers from `0.0001` up to sixteen digits before the point are written in positional notation with
at least one digit behind the point; all others with an exponent of at least two digits and a sign.
-/

namespace LiterateEdit.Decimal

/-- The reals that read back as a double, in units of a quarter of its last place. -/
structure Interval where
  /-- The lower end. -/
  low : Nat
  /-- The double itself. -/
  mid : Nat
  /-- The upper end. -/
  high : Nat
  /-- Do the ends belong to it? -/
  closed : Bool

/-- The interval of a mantissa with an exponent. -/
def interval (m : Nat) (e : Int) : Interval :=
  let below := if m = twoPow 52 ∧ minExponent < e then 1 else 2
  ⟨4 * m - below, 4 * m, 4 * m + 2, m % 2 = 0⟩

/-- The order of `d` times ten to the power of `p` and `x` times two to the power of `e`. -/
def compareScaled (d : Nat) (p : Int) (x : Nat) (e : Int) : Ordering :=
  let left := d * tenPow p.toNat * twoPow (-e).toNat
  let right := x * twoPow e.toNat * tenPow (-p).toNat
  compare left right

/-- Does `d` times ten to the power of `p` lie in an interval with the exponent `e`? -/
def Interval.holds (i : Interval) (e : Int) (d : Nat) (p : Int) : Bool :=
  match compareScaled d p i.low e, compareScaled d p i.high e with
  | .gt, .lt => true
  | .eq, .lt => i.closed
  | .gt, .eq => i.closed
  | _, _ => false

/-- The greatest whole number that, times ten to the power of `p`, is at most `x` times two to the
power of `e`. -/
def floorScaled (x : Nat) (e p : Int) : Nat :=
  (x * twoPow e.toNat * tenPow (-p).toNat) / (twoPow (-e).toNat * tenPow p.toNat)

/-- The answer on the grid of the power `p` of ten, if a point of the grid reads back. -/
def onGrid (i : Interval) (e p : Int) : Option Nat :=
  let d := floorScaled i.mid e p
  match i.holds e d p, i.holds e (d + 1) p with
  | true, false => some d
  | false, true => some (d + 1)
  | false, false => none
  | true, true =>
    match compareScaled (2 * d + 1) p (2 * i.mid) e with
    | .lt => some (d + 1)
    | .gt => some d
    | .eq => some (if d % 2 = 0 then d else d + 1)

/-- The digits and the power of ten, trying `tries` grids from the power `p` on downwards. -/
def shortestFrom (i : Interval) (e : Int) : Nat → Int → Nat × Int
  | 0, p => (floorScaled i.mid e p, p)
  | tries + 1, p =>
    match onGrid i e p with
    | some d => (d, p)
    | none => shortestFrom i e tries (p - 1)

/-- The shortest digits of a double that is not zero, and the power of ten of the last of them. -/
def shortest (m : Nat) (e : Int) : Nat × Int :=
  let estimate : Int := (log2Floor (scale e m 1).1 (scale e m 1).2 * 30103) / 100000 + 1
  shortestFrom (interval m e) (e - 2) 20 estimate

/-- The digits with a point behind the first `point` of them, which may be negative or beyond the
digits. -/
def positional (ds : Text) (point : Int) : Text :=
  if point ≤ 0 then Text.lit "0." ++ List.replicate (-point).toNat '0' ++ ds
  else
    let n := point.toNat
    if ds.length ≤ n then ds ++ List.replicate (n - ds.length) '0' ++ Text.lit ".0"
    else ds.take n ++ ['.'] ++ ds.drop n

/-- The digits with an exponent. -/
def scientific (ds : Text) (exponent : Int) : Text :=
  let mantissa := if ds.length ≤ 1 then ds else ds.take 1 ++ ['.'] ++ ds.drop 1
  let sign := if exponent < 0 then '-' else '+'
  mantissa ++ ['e', sign] ++ Text.padLeft 2 '0' (Text.ofNat exponent.natAbs)

/-- The digits of a number without zeros at their end. -/
def significant (d : Nat) : Text := Text.trimRight (· = '0') (Text.ofNat d)

/-- A double as text. -/
def text (x : Float) : Text :=
  match parts x with
  | .nan => Text.lit "nan"
  | .infinite negative => (if negative then ['-'] else []) ++ Text.lit "inf"
  | .finite negative m e =>
    (if negative then ['-'] else []) ++
      if m = 0 then Text.lit "0.0"
      else
        let (d, p) := shortest m e
        let point := (Text.ofNat d).length + p
        if -4 < point ∧ point ≤ 16 then positional (significant d) point
        else scientific (significant d) (point - 1)

end LiterateEdit.Decimal
