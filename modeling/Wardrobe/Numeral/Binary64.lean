import Wardrobe.Numeral.Decimal

/-!
# Rounding to binary floating point

Percentages are read as binary numbers with 53 significant bits, so a long fraction can round up to
the next whole number. The rounding here is exact: to the nearest such number, and of two equally
near ones to the one with the even significand.
-/

namespace Wardrobe.Binary64

/-- A nonnegative number `significand * 2 ^ exponent`. -/
structure Magnitude where
  significand : Nat
  exponent : Int
  deriving DecidableEq

/-- The whole number nearest to `num / den`; a half goes to the even neighbour. -/
def roundDiv (num den : Nat) : Nat :=
  let q := num / den
  let r := num % den
  if den < 2 * r then q + 1
  else if 2 * r = den then q + q % 2
  else q

/-- The quotient `num / den` as a numerator and denominator in units of `2 ^ e`. -/
def inUnits (num den : Nat) (e : Int) : Nat × Nat :=
  if 0 ≤ e then (num, den * Nat.pow 2 e.toNat) else (num * Nat.pow 2 (-e).toNat, den)

/-- The unit of the last place for a quotient: the quotient has at most 53 bits before the point in
these units, and no unit is below the least subnormal one. -/
def unitOf (num den : Nat) : Int :=
  let e : Int := (Nat.log2 num : Int) - Nat.log2 den - 53
  let (n, d) := inUnits num den e
  let e := if n / d < Nat.pow 2 53 then e else e + 1
  max e (-1074)

/-- The floating point number nearest to `num / den`. -/
def nearest (num den : Nat) : Magnitude :=
  let e := unitOf num den
  let (n, d) := inUnits num den e
  ⟨roundDiv n d, e⟩

/-- True when a number is too large for the format. -/
def Magnitude.overflows (m : Magnitude) : Bool :=
  0 ≤ m.exponent && Nat.pow 2 1024 ≤ m.significand * Nat.pow 2 m.exponent.toNat

/-- The part before the point. -/
def Magnitude.truncate (m : Magnitude) : Nat :=
  if 0 ≤ m.exponent then m.significand * Nat.pow 2 m.exponent.toNat
  else m.significand / Nat.pow 2 (-m.exponent).toNat

/-- The magnitude of a decimal numeral; `none` beyond the largest number of the format. Numerals
far outside the range of the format are told by their length alone. -/
def ofDecimal? (d : Decimal) : Option Magnitude :=
  let size := Decimal.digitCount d.digits + d.exponent
  if d.digits = 0 ∨ size < -400 then some ⟨0, 0⟩
  else if 400 < size then none
  else
    let m :=
      if 0 ≤ d.exponent then nearest (d.digits * Nat.pow 10 d.exponent.toNat) 1
      else nearest d.digits (Nat.pow 10 (-d.exponent).toNat)
    if m.overflows then none else some m

end Wardrobe.Binary64
