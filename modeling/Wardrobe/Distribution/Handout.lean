import Wardrobe.Distribution.Chain
import Wardrobe.Distribution.Gate
import Wardrobe.Distribution.Selects
import Wardrobe.Failure

/-!
# Handing out keywords

The rules of a chain are applied one after the other, each to the whole population before the
next. An actor gains a keyword that it does not have when the rule selects it, with the keywords
that it has by then, and the gate lets it pass.

A run keeps two books, both with one entry for each actor: the keywords that it has, and what it
gained.
-/

namespace Wardrobe

/-- A keyword that an actor gained. -/
structure Acquisition where
  /-- The keyword as the rule wrote it. -/
  keyword : Text
  /-- The position of the rule in the chain. -/
  step : Nat
  deriving DecidableEq

namespace Handout

/-- The books of a run. Their entries stand in the order of the actors. -/
structure Books where
  /-- Every keyword that an actor has, stored or gained, in lower case. -/
  held : List (List Text)
  /-- What an actor gained, in the order of the rules. -/
  acquired : List (List Acquisition)

/-- The books before any rule has been applied. -/
def start (actors : List Actor) : Books where
  held := actors.map Actor.keywordSet
  acquired := actors.map fun _ => []

/-- Applies one rule to one actor with its entries in the books. -/
def enter (k : KeywordRule) (step : Nat) (a : Actor) (held : List Text)
    (acquired : List Acquisition) : List Text × List Acquisition :=
  if held.contains k.key then (held, acquired)
  else if k.rule.selects a held && Gate.admits a k.rule then
    (held ++ [k.key], acquired ++ [⟨k.keyword, step⟩])
  else (held, acquired)

/-- Applies one rule to a population. -/
def applyRule (actors : List Actor) (books : Books) (rule : KeywordRule × Nat) : Books :=
  let entries := ((actors.zip books.held).zip books.acquired).map fun ((a, held), acquired) =>
    enter rule.1 rule.2 a held acquired
  { held := entries.map (·.1)
    acquired := entries.map (·.2) }

/-- The books after some rules, in order. -/
def run (rules : List KeywordRule) (actors : List Actor) : Books :=
  rules.zipIdx.foldl (applyRule actors) (start actors)

/-- What each actor gains from a chain. -/
def acquired (chain : Chain) (actors : List Actor) : List (List Acquisition) :=
  (run chain.ordered actors).acquired

/-- What each actor gains, if the run is not cancelled before its first rule. -/
def acquiredUnless (cancelled : Bool) (chain : Chain) (actors : List Actor) :
    Except Failure (List (List Acquisition)) :=
  if cancelled && !chain.ordered.isEmpty then .error .cancelled
  else .ok (acquired chain actors)

/-- The number of keywords gained by all actors together. -/
def total (acquired : List (List Acquisition)) : Nat :=
  acquired.flatten.length

end Handout

end Wardrobe
