import Wardrobe.Text.Basic

/-!
# Decimal numerals

Signed decimal numerals with an optional fraction and exponent: `50`, `+12.5`, `.5`, `5.`, `1e2`.
A numeral is kept exactly, as `digits * 10 ^ exponent`.
-/

namespace Wardrobe

/-- The exact value of a numeral, `± digits * 10 ^ exponent`. -/
structure Decimal where
  negative : Bool
  digits : Nat
  exponent : Int
  deriving DecidableEq

namespace Decimal

/-- Takes a sign off the front; true for a minus. -/
def takeSign : Text → Bool × Text
  | '-' :: rest => (true, rest)
  | '+' :: rest => (false, rest)
  | t => (false, t)

/-- Reads what follows the mantissa: nothing, or `e` with a signed whole number. -/
def exponentOfText? : Text → Option Int
  | [] => some 0
  | e :: rest =>
    let (negative, digits) := takeSign rest
    if (e = 'e' ∨ e = 'E') ∧ digits ≠ [] ∧ digits.all Text.isDigit then
      let n : Int := Text.natOfDigits digits
      some (if negative then -n else n)
    else none

/-- Takes a point and the digits behind it off the front. -/
def takeFraction : Text → Text × Text
  | '.' :: rest => rest.span Text.isDigit
  | t => ([], t)

/-- Reads a numeral, which takes the whole text and has at least one digit before its exponent. -/
def ofText? (t : Text) : Option Decimal :=
  let (negative, t) := takeSign t
  let (whole, t) := t.span Text.isDigit
  let (fraction, t) := takeFraction t
  if whole = [] ∧ fraction = [] then none
  else (exponentOfText? t).map fun e =>
    ⟨negative, Text.natOfDigits (whole ++ fraction), e - fraction.length⟩

/-- The number of decimal digits of a number, none for zero. -/
def digitCount (n : Nat) : Nat :=
  if n = 0 then 0 else (Nat.toDigits 10 n).length

end Decimal

end Wardrobe
