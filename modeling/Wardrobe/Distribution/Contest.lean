import Wardrobe.Distribution.Gate
import Wardrobe.Distribution.Selects
import Wardrobe.Sheet.Basic

/-!
# Contests for an outfit

Every outfit rule that selects an actor contends for it. The rules are numbered in processing
order, and the last contender that passes its gate wins; contenders that do not pass stay listed.
-/

namespace Wardrobe

/-- A rule in its place. -/
structure PlacedRule where
  path : Path
  line : Nat
  rule : Rule

/-- A rule that selects an actor. -/
structure Contender where
  path : Path
  line : Nat
  /-- The outfit as written. -/
  outfit : Text
  /-- The number of the rule in processing order. -/
  order : Nat
  chance : Nat
  passed : Bool
  deriving DecidableEq

/-- The contest for one actor. -/
structure Contest where
  actor : FormKey
  editorId : Text
  /-- In processing order. -/
  contenders : List Contender
  deriving DecidableEq

/-- The rules of a sheet in their places. -/
def Sheet.placedRules (s : Sheet) : List PlacedRule :=
  s.rules.map fun (line, r) => ⟨s.path, line, r⟩

namespace Contest

/-- The position of the last contender that passed. -/
def winner? (c : Contest) : Option Nat :=
  (c.contenders.zipIdx.reverse.find? fun (contender, _) => contender.passed).map (·.2)

/-- True when several rules select the actor. -/
def isConflict (c : Contest) : Bool :=
  1 < c.contenders.length

/-- The rules of one kind, in processing order. -/
def rulesFor (gift : Gift) (sheets : List Sheet) : List PlacedRule :=
  ((Sheet.processingOrder sheets).flatMap Sheet.placedRules).filter (·.rule.gift == gift)

/-- A rule as a contender for an actor. -/
def contender (a : Actor) (order : Nat) (p : PlacedRule) : Contender where
  path := p.path
  line := p.line
  outfit := p.rule.form
  order := order
  chance := p.rule.chance
  passed := Gate.admits a p.rule

/-- The contenders for an actor among numbered rules. -/
def contendersFor (rules : List PlacedRule) (a : Actor) : List Contender :=
  rules.zipIdx.filterMap fun (p, order) =>
    if p.rule.selects a [] then some (contender a order p) else none

/-- The contest for an actor; `none` when no rule selects it. -/
def ofActor? (rules : List PlacedRule) (a : Actor) : Option Contest :=
  match contendersFor rules a with
  | [] => none
  | contenders => some ⟨a.key, a.editorId, contenders⟩

/-- The contests for one kind of outfit, in the order of the actors. -/
def all (gift : Gift) (sheets : List Sheet) (actors : List Actor) : List Contest :=
  actors.filterMap (ofActor? (rulesFor gift sheets))

end Contest

end Wardrobe
