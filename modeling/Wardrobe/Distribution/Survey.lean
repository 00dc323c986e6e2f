import Wardrobe.Distribution.Contest
import Wardrobe.Distribution.Handout
import Wardrobe.Distribution.Resolution
import Wardrobe.Record.Snapshot

/-!
# Surveys

Everything there is to say about a set of rule sheets and a population: the contests for outfits,
the chain of keyword rules with what it hands out, and what the texts of all rules stand for.
-/

namespace Wardrobe

/-- A rule's place with what its texts stand for. -/
structure SurveyedRule where
  path : Path
  line : Nat
  resolved : ResolvedRule

/-- The findings about a set of sheets. -/
structure Survey where
  sheets : List Sheet
  outfits : List Contest
  sleepOutfits : List Contest
  chain : Chain
  /-- What each actor gains, in the order of the actors. -/
  acquired : List (List Acquisition)
  /-- Every rule, in the order of sheets, lines and targets. -/
  rules : List SurveyedRule

namespace Survey

/-- The rules of some sheets in their places. -/
def placedRules (sheets : List Sheet) : List PlacedRule :=
  sheets.flatMap Sheet.placedRules

/-- The keyword rules of some sheets in order. -/
def chainOf (sheets : List Sheet) : Chain :=
  .ofRules ((placedRules sheets).filterMap fun p => KeywordRule.ofRule? p.rule)

/-- The rules of some sheets, looked up in a catalog. -/
def resolve (c : Catalog) (sheets : List Sheet) : List SurveyedRule :=
  let placed := placedRules sheets
  let v := VirtualKeywords.ofRules (placed.map (·.rule))
  placed.map fun p => ⟨p.path, p.line, Resolver.rule c v p.rule⟩

/-- Surveys some sheets. -/
def ofSheets (c : Catalog) (actors : List Actor) (sheets : List Sheet) : Survey :=
  let chain := chainOf sheets
  { sheets := sheets
    outfits := Contest.all .outfit sheets actors
    sleepOutfits := Contest.all .sleepOutfit sheets actors
    chain := chain
    acquired := Handout.acquired chain actors
    rules := resolve c sheets }

/-- Surveys some sheets, if the run is not cancelled. -/
def run (cancelled : Bool) (c : Catalog) (actors : List Actor) (sheets : List Sheet) :
    Except Failure Survey :=
  if cancelled then .error .cancelled else .ok (ofSheets c actors sheets)

/-- The contests in which several rules select one actor, those for outfits first. -/
def conflicts (s : Survey) : List Contest :=
  (s.outfits ++ s.sleepOutfits).filter Contest.isConflict

/-- What each text of each rule stands for. -/
def resolutions (s : Survey) : List Resolution :=
  s.rules.flatMap (·.resolved.resolutions)

/-- The number of texts that stand for something. -/
def resolvedCount (s : Survey) : Nat :=
  s.resolutions.countP Resolution.isResolved

/-- The number of texts. -/
def textCount (s : Survey) : Nat :=
  s.resolutions.length

/-- The texts that name nothing, each with the place of its rule. -/
def unresolved (s : Survey) : List (Path × Nat × Text) :=
  s.rules.flatMap fun r => r.resolved.residue.map fun text => (r.path, r.line, text)

/-- The number of rejected lines. -/
def rejectedCount (s : Survey) : Nat :=
  (s.sheets.flatMap Sheet.rejected).length

end Survey

end Wardrobe
