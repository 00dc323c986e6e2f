import Wardrobe.Record.Actor
import Wardrobe.Text.Hex

/-!
# Trait sets as text

A trait set is written as the names of its traits between bars, such as `FEMALE | DEAD`. A bit
without a name is written in hexadecimal, and reading accepts any bits that way.
-/

namespace Wardrobe.TraitSet

/-- The name of a trait. -/
def nameOf : Trait → Text
  | .female => "FEMALE".toList
  | .unique => "UNIQUE".toList
  | .summonable => "SUMMONABLE".toList
  | .child => "CHILD".toList
  | .leveled => "LEVELED".toList
  | .teammate => "TEAMMATE".toList
  | .dead => "DEAD".toList

/-- Reads hexadecimal bits behind `0x`: digits after an optional plus, with a value of one byte. -/
def bitsOfHex? (t : Text) : Option UInt8 :=
  let digits := match t with
    | '+' :: digits => digits
    | digits => digits
  if digits = [] then none
  else (Text.natOfHex? digits).bind fun n => if n < 256 then some (UInt8.ofNat n) else none

/-- Reads one item between bars. -/
def bitsOfItem? (item : Text) : Option UInt8 :=
  match item with
  | '0' :: 'x' :: digits => bitsOfHex? digits
  | _ => (Trait.all.find? fun trait => nameOf trait == item).map Trait.mask

/-- Reads a trait set; a blank text holds no traits. -/
def ofText? (t : Text) : Option TraitSet :=
  if Text.trim t = [] then some ⟨0⟩
  else (((t.splitOn '|').map Text.trim).mapM bitsOfItem?).map fun items =>
    ⟨items.foldl (· ||| ·) 0⟩

/-- Writes a trait set: names in the order of the bits, then the bit without a name. -/
def toText (s : TraitSet) : Text :=
  Text.join " | ".toList ((Trait.all.filter s.has).map nameOf ++
    if s.bits &&& 0x80 = 0 then [] else ["0x80".toList])

end Wardrobe.TraitSet
