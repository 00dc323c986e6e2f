import Wardrobe.Text.Basic

/-!
# Hexadecimal digits

Numbers in base sixteen: reading accepts both letter cases, writing uses capitals and no leading
zeros.
-/

namespace Wardrobe.Text

/-- The value of a hexadecimal digit. -/
def hexValue? (c : Char) : Option Nat :=
  if '0' ≤ c ∧ c ≤ '9' then some (c.toNat - '0'.toNat)
  else if 'A' ≤ c ∧ c ≤ 'F' then some (c.toNat - 'A'.toNat + 10)
  else if 'a' ≤ c ∧ c ≤ 'f' then some (c.toNat - 'a'.toNat + 10)
  else none

/-- The value of a run of hexadecimal digits, `0` for the empty run; `none` when a character of it
is no digit. -/
def natOfHex? (digits : Text) : Option Nat :=
  digits.foldlM (fun n c => (hexValue? c).map (16 * n + ·)) 0

/-- The capital hexadecimal digit of a number below sixteen. -/
def hexDigit (n : Nat) : Char :=
  if n < 10 then Char.ofNat ('0'.toNat + n) else Char.ofNat ('A'.toNat + (n - 10))

/-- The last `count` hexadecimal digits of a number. -/
def hexDigits : Nat → Nat → Text
  | 0, _ => []
  | count + 1, n => hexDigits count (n / 16) ++ [hexDigit (n % 16)]

/-- A 32-bit number without leading zeros. -/
def hexOfUInt32 (n : UInt32) : Text :=
  match (hexDigits 8 n.toNat).dropWhile (· == '0') with
  | [] => ['0']
  | digits => digits

end Wardrobe.Text
