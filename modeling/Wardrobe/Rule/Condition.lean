import Wardrobe.Text.Basic

/-!
# Conditions on a text

The atom of a rule: one value, which may be negated and may leave either side of the value open.
A condition says what it tests; what a hit is depends on the section it stands in.
-/

namespace Wardrobe

/-- Which sides of a condition's value are open, marked by `*`. -/
inductive Wildcard where
  | none
  | front
  | back
  | both
  deriving DecidableEq

namespace Wildcard

/-- The wildcard with the given sides open. -/
def ofSides : Bool → Bool → Wildcard
  | true, true => both
  | true, false => front
  | false, true => back
  | false, false => none

/-- True when a `*` stands before the value. -/
def openFront : Wildcard → Bool
  | front | both => true
  | none | back => false

/-- True when a `*` stands after the value. -/
def openBack : Wildcard → Bool
  | back | both => true
  | none | front => false

end Wildcard

/-- One value of a rule with its markers. -/
structure Condition where
  value : Text
  negated : Bool
  wildcard : Wildcard
  deriving DecidableEq

namespace Condition

/-- Takes a `*` off the front. -/
def takeFront : Text → Bool × Text
  | '*' :: rest => (true, rest)
  | t => (false, t)

/-- Takes a `*` off the end. -/
def takeBack (t : Text) : Bool × Text :=
  if t.getLast? = some '*' then (true, t.dropLast) else (false, t)

/-- Reads the value and its wildcards; `none` when no value is left. -/
def ofUnsigned? (negated : Bool) (t : Text) : Option Condition :=
  let (front, t) := takeFront t
  let (back, t) := takeBack t
  let value := Text.trim t
  if value = [] then none else some ⟨value, negated, .ofSides front back⟩

/-- Reads a token such as `-*Guard`; `none` when nothing is left without the markers. -/
def ofText? (token : Text) : Option Condition :=
  match Text.trim token with
  | '-' :: rest => ofUnsigned? true (Text.trimStart rest)
  | t => ofUnsigned? false t

/-- True when some side is open. -/
def isWildcard (c : Condition) : Bool :=
  c.wildcard != .none

/-- Writes a condition with its markers. -/
def toText (c : Condition) : Text :=
  (if c.negated then ['-'] else []) ++ (if c.wildcard.openFront then ['*'] else []) ++ c.value ++
    (if c.wildcard.openBack then ['*'] else [])

/-- True when a condition holds, given which conditions are hit. -/
def holds (hit : Condition → Bool) (c : Condition) : Bool :=
  hit c != c.negated

end Condition

end Wardrobe
