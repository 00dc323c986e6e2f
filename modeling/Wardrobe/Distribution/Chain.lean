import Wardrobe.Graph.ReadyOrder
import Wardrobe.Rule.Basic
import Wardrobe.Text.Casing

/-!
# Chains of keyword rules

Keyword rules may ask for keywords that other keyword rules hand out, so they are put in an order
in which every rule comes after those that hand out what it asks for. Keywords on a cycle of such
dependencies, or behind one, have no place in the order and are reported.
-/

namespace Wardrobe

/-- A keyword rule with the keyword that it hands out and the ones that it asks for. -/
structure KeywordRule where
  rule : Rule
  /-- The keyword handed out, as written. -/
  keyword : Text
  /-- The exact values of the text section in lower case, each once and in order. -/
  references : List Text
  deriving DecidableEq

namespace KeywordRule

/-- Takes a rule as a keyword rule; `none` for other gifts. -/
def ofRule? (r : Rule) : Option KeywordRule :=
  if r.gift = .keyword then
    some {
      rule := r
      keyword := Text.trim r.form
      references := Text.sortedSet
        ((r.texts.conditions.filter fun c => !c.isWildcard).map fun c => Text.lower c.value) }
  else none

/-- The keyword in lower case, by which it is known. -/
def key (k : KeywordRule) : Text :=
  Text.lower k.keyword

end KeywordRule

/-- Keyword rules in the order in which they apply. -/
structure Chain where
  ordered : List KeywordRule
  /-- The keywords without a place in the order. -/
  cyclic : List Text

namespace Chain

/-- The rules that are the first to hand out their keyword. -/
def firstRules : List KeywordRule → List KeywordRule
  | [] => []
  | k :: rest => k :: (firstRules rest).filter (·.key != k.key)

/-- The graph of the keywords, numbered by their first rules: an edge leads from a keyword to each
keyword whose rules ask for it. -/
def graph (rules : List KeywordRule) : Graph :=
  let keys := (firstRules rules).map KeywordRule.key
  { size := keys.length
    edges := rules.flatMap fun k =>
      (k.references.filter keys.contains).map fun r => (keys.idxOf r, keys.idxOf k.key) }

/-- Puts keyword rules in order. Rules for one keyword stay together as they were. -/
def ofRules (rules : List KeywordRule) : Chain :=
  let first := firstRules rules
  let order := (graph rules).finish
  { ordered := order.sorted.flatMap fun node =>
      match first[node]? with
      | some f => rules.filter (·.key == f.key)
      | none => []
    cyclic := order.unreached.filterMap fun node => first[node]?.map (·.keyword) }

end Chain

end Wardrobe
