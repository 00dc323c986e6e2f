import Wardrobe.Rule.Fault

/-!
# Traits

Seven facts about an actor that a rule can ask for. A trait section is a list of codes between
slashes, such as `F/U/D`; a minus before a letter asks for the opposite, and `M` is the opposite of
`F`.
-/

namespace Wardrobe

/-- A fact about an actor. -/
inductive Trait where
  | female
  | unique
  | summonable
  | child
  | leveled
  | teammate
  | dead
  deriving DecidableEq

namespace Trait

/-- Every trait, in the order of the bits that record them. -/
def all : List Trait :=
  [female, unique, summonable, child, leveled, teammate, dead]

/-- The bit that records a trait. -/
def mask : Trait → UInt8
  | female => 1
  | unique => 2
  | summonable => 4
  | child => 8
  | leveled => 16
  | teammate => 32
  | dead => 64

end Trait

/-- What a rule asks of each trait; `none` asks nothing. -/
structure TraitDemand where
  female : Option Bool
  unique : Option Bool
  summonable : Option Bool
  child : Option Bool
  leveled : Option Bool
  teammate : Option Bool
  dead : Option Bool
  deriving DecidableEq

namespace TraitDemand

/-- The demand that every actor meets. -/
def nothing : TraitDemand :=
  ⟨none, none, none, none, none, none, none⟩

/-- What is asked of one trait. -/
def get (d : TraitDemand) : Trait → Option Bool
  | .female => d.female
  | .unique => d.unique
  | .summonable => d.summonable
  | .child => d.child
  | .leveled => d.leveled
  | .teammate => d.teammate
  | .dead => d.dead

/-- Asks a trait to have a value. -/
def ask (d : TraitDemand) (trait : Trait) (value : Bool) : TraitDemand :=
  match trait with
  | .female => { d with female := some value }
  | .unique => { d with unique := some value }
  | .summonable => { d with summonable := some value }
  | .child => { d with child := some value }
  | .leveled => { d with leveled := some value }
  | .teammate => { d with teammate := some value }
  | .dead => { d with dead := some value }

/-- The trait of a code letter, and the value that the plain letter asks for. -/
def ofLetter? (letter : Text) : Option (Trait × Bool) :=
  match letter.map Char.toUpper with
  | ['F'] => some (.female, true)
  | ['M'] => some (.female, false)
  | ['U'] => some (.unique, true)
  | ['S'] => some (.summonable, true)
  | ['C'] => some (.child, true)
  | ['L'] => some (.leveled, true)
  | ['T'] => some (.teammate, true)
  | ['D'] => some (.dead, true)
  | _ => none

/-- Reads one code into a demand. Of two codes for one trait the later counts. -/
def addCode (d : TraitDemand) (code : Text) : Except Fault TraitDemand :=
  let code := Text.trim code
  if code = [] then .ok d
  else
    let (letter, value) := match code with
      | '-' :: rest => (Text.trim rest, false)
      | _ => (code, true)
    match ofLetter? letter with
    | some (trait, plain) => .ok (d.ask trait (plain == value))
    | none => .error (.badTrait code)

/-- Reads a trait section. -/
def ofText (t : Text) : Except Fault TraitDemand :=
  (t.splitOn '/').foldlM addCode nothing

/-- The code that asks for a value of a trait. -/
def code : Trait → Bool → Text
  | .female, true => ['F']
  | .female, false => ['M']
  | .unique, true => ['U']
  | .unique, false => ['-', 'U']
  | .summonable, true => ['S']
  | .summonable, false => ['-', 'S']
  | .child, true => ['C']
  | .child, false => ['-', 'C']
  | .leveled, true => ['L']
  | .leveled, false => ['-', 'L']
  | .teammate, true => ['T']
  | .teammate, false => ['-', 'T']
  | .dead, true => ['D']
  | .dead, false => ['-', 'D']

/-- Writes a demand: one code for each trait that is asked for, in the order of the traits. -/
def toText (d : TraitDemand) : Text :=
  Text.join ['/'] (Trait.all.filterMap fun trait => (d.get trait).map (code trait))

end TraitDemand

end Wardrobe
