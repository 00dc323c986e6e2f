import Wardrobe.Rule.Selection
import Wardrobe.Rule.Level
import Wardrobe.Rule.Trait
import Wardrobe.Rule.Chance

/-!
# Rules

A rule hands out a gift, such as an outfit or a keyword, to the actors that it selects. Rules are
written in two dialects; both read into the one type below.
-/

namespace Wardrobe

/-- The notation of a rule. -/
inductive Dialect where
  /-- `Outfit = form|texts|forms|level|traits|count|chance` -/
  | barred
  /-- `filterByNpcs=…:outfitDefault=…` -/
  | clausal
  deriving DecidableEq

/-- The position of a dialect in processing order: barred rules come before clausal ones. -/
def Dialect.rank : Dialect → Nat
  | .barred => 0
  | .clausal => 1

/-- What a rule hands out. -/
inductive Gift where
  | spell
  | perk
  | item
  | shout
  | levSpell
  | package
  | outfit
  | sleepOutfit
  | keyword
  | faction
  | deathItem
  | skin
  deriving DecidableEq

namespace Gift

/-- Every gift. -/
def all : List Gift :=
  [spell, perk, item, shout, levSpell, package, outfit, sleepOutfit, keyword, faction, deathItem,
    skin]

/-- The word for a gift on the left of `=`. -/
def word : Gift → Text
  | spell => "Spell".toList
  | perk => "Perk".toList
  | item => "Item".toList
  | shout => "Shout".toList
  | levSpell => "LevSpell".toList
  | package => "Package".toList
  | outfit => "Outfit".toList
  | sleepOutfit => "SleepOutfit".toList
  | keyword => "Keyword".toList
  | faction => "Faction".toList
  | deathItem => "DeathItem".toList
  | skin => "Skin".toList

/-- True for what an actor wears. -/
def isOutfit : Gift → Bool
  | outfit | sleepOutfit => true
  | _ => false

end Gift

/-- One rule. -/
structure Rule where
  dialect : Dialect
  gift : Gift
  /-- The word or clause key that named the gift, as written. -/
  keyword : Text
  /-- The form handed out, as written. -/
  form : Text
  /-- The section that tests names and keywords. -/
  texts : Selection
  /-- The section that tests records. -/
  forms : Selection
  /-- The level section as written. -/
  level : Option Text
  levels : List LevelTest
  traits : TraitDemand
  count : Option Text
  chance : Nat
  /-- The line that the rule was read from. -/
  source : Text
  deriving DecidableEq

/-- A line without the comment that a `;` or `#` opens. -/
def Text.stripComment (line : Text) : Text :=
  line.takeWhile fun c => c != ';' && c != '#'

namespace Rule

/-- The word for an unconstrained section. -/
def noneWord : Text := "NONE".toList

/-- The sections behind the form, each `none` when it asks nothing. -/
def sections (r : Rule) : List (Option Text) :=
  [if r.texts.isEmpty then none else some r.texts.toText,
   if r.forms.isEmpty then none else some r.forms.toText,
   r.level,
   if r.traits = .nothing then none else some r.traits.toText,
   r.count,
   if r.chance = Chance.always then none else some (Text.ofNat r.chance)]

/-- Drops the sections at the end that ask nothing. -/
def dropNoneEnd (sections : List (Option Text)) : List (Option Text) :=
  (sections.reverse.dropWhile (·.isNone)).reverse

/-- Writes a rule in its least form. A barred rule writes `NONE` for a section in the middle that
asks nothing and leaves out those at the end. A clausal rule is its line without the comment. -/
def toText (r : Rule) : Text :=
  match r.dialect with
  | .clausal => Text.trim (Text.stripComment r.source)
  | .barred =>
    r.keyword ++ " = ".toList ++ r.form ++
      (dropNoneEnd r.sections).flatMap fun s => '|' :: s.getD noneWord

end Rule

end Wardrobe
