import LiterateEdit.Text.Basic

/-!
# Decimals and binary floating point

A finite double is a whole number times a power of two. `nearest` picks the double next to a
fraction, with ties going to the even one; `ofDecimal` does so for decimal digits with an exponent.
`parts` takes a double apart again. All arithmetic is on whole numbers.
-/

namespace LiterateEdit.Decimal

/-- The least exponent of a double. -/
def minExponent : Int := -1074

/-- The bits of positive infinity. -/
def infinityBits : Nat := 0x7ff0000000000000

/-- A power of two. -/
def twoPow (n : Nat) : Nat := Nat.pow 2 n

/-- A power of ten. -/
def tenPow (n : Nat) : Nat := Nat.pow 10 n

/-- The quotient of two numbers rounded to a whole number, a half to the even neighbour. -/
def roundDiv (num den : Nat) : Nat :=
  let q := num / den
  let r := num % den
  if den < 2 * r ∨ (2 * r = den ∧ q % 2 = 1) then q + 1 else q

/-- Twice to the power of `e` times `num / den`, as a fraction. -/
def scale (e : Int) (num den : Nat) : Nat × Nat :=
  if 0 ≤ e then (num * twoPow e.toNat, den) else (num, den * twoPow (-e).toNat)

/-- The exponent of the greatest power of two that is at most `num / den`. -/
def log2Floor (num den : Nat) : Int :=
  let e : Int := (num.log2 : Int) - den.log2
  let (n, d) := scale (-e) num den
  if n < d then e - 1 else e

/-- The bits of the double nearest to `num / den`. -/
def nearestBits (num den : Nat) : Nat :=
  if num = 0 then 0
  else
    let e := max (log2Floor num den - 52) minExponent
    let (n, d) := scale (-e) num den
    let m := roundDiv n d
    let bits := if m < twoPow 52 then m else (e + 1075).toNat * twoPow 52 + (m - twoPow 52)
    min bits infinityBits

/-- The double nearest to `num / den`. -/
def nearest (num den : Nat) : Float := Float.ofBits (UInt64.ofNat (nearestBits num den))

/-- The double nearest to `digits` times ten to the power of `exponent`. -/
def ofDecimal (digits : Nat) (exponent : Int) : Float :=
  let size : Int := ((Nat.toDigits 10 digits).length : Int) + exponent
  if digits = 0 ∨ size < -330 then 0
  else if 330 < size then Float.ofBits (UInt64.ofNat infinityBits)
  else if 0 ≤ exponent then nearest (digits * tenPow exponent.toNat) 1
  else nearest digits (tenPow (-exponent).toNat)

/-- A double taken apart. -/
inductive Parts where
  /-- Not a number. -/
  | nan
  /-- An infinity. -/
  | infinite (negative : Bool)
  /-- A whole number times a power of two. -/
  | finite (negative : Bool) (mantissa : Nat) (exponent : Int)
  deriving DecidableEq

/-- Take a double apart. -/
def parts (x : Float) : Parts :=
  let bits := x.toBits.toNat
  let negative := decide (twoPow 63 ≤ bits)
  let e : Nat := bits / twoPow 52 % twoPow 11
  let f : Nat := bits % twoPow 52
  if e = 2047 then if f = 0 then .infinite negative else .nan
  else if e = 0 then .finite negative f minExponent
  else .finite negative (twoPow 52 + f) ((e : Int) - 1075)

/-- The whole number that a double is, if it is one. -/
def toInt? (x : Float) : Option Int :=
  match parts x with
  | .finite negative m e =>
    let (n, d) := scale e m 1
    let q : Nat := n / d
    if n = q * d then some (if negative then -(q : Int) else q) else none
  | _ => none

end LiterateEdit.Decimal
