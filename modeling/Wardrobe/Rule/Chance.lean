import Wardrobe.Numeral.Binary64
import Wardrobe.Rule.Fault

/-!
# Chances

A chance is a whole percentage from 0 to 100. A fraction is dropped and the result is clamped, so
that every finite number is some chance.
-/

namespace Wardrobe.Chance

/-- The chance of a rule that names none: it always applies. -/
def always : Nat := 100

/-- Reads a chance: the numeral is rounded to binary floating point, loses its fraction, and is
clamped. -/
def ofText (t : Text) : Except Fault Nat :=
  let t := Text.trim t
  match Decimal.ofText? t with
  | none => .error (.badChance t)
  | some d =>
    match Binary64.ofDecimal? d with
    | none => .error (.badChance t)
    | some m => .ok (if d.negative then 0 else min always m.truncate)

end Wardrobe.Chance
