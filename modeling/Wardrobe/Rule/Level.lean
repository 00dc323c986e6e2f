import Wardrobe.Rule.Fault

/-!
# Level tests

The level section lists tests on an actor's level: `5` for at least five, `5/20` for a range, and
`14(50/75)` for a skill, which is read but says nothing about the level. Numbers are decimal and
at most 65535.
-/

namespace Wardrobe

/-- One entry of a level section. -/
inductive LevelTest where
  | atLeast (low : Nat)
  | between (low high : Nat)
  | skill (skill low : Nat) (high? : Option Nat)
  deriving DecidableEq

namespace LevelTest

/-- The largest level. -/
def bound : Nat := 65535

/-- Takes a number off the front of a text. -/
def takeNumber? (t : Text) : Option (Nat × Text) :=
  let (digits, rest) := t.span Text.isDigit
  let n := Text.natOfDigits digits
  if digits = [] ∨ bound < n then none else some (n, rest)

/-- Reads what follows the opening parenthesis of a skill test. -/
def skillOfText? (skill : Nat) (t : Text) : Option LevelTest := do
  let (low, t) ← takeNumber? (Text.trimStart t)
  match Text.trimStart t with
  | [')'] => some (.skill skill low none)
  | '/' :: t =>
    let (high, t) ← takeNumber? (Text.trimStart t)
    if Text.trimStart t = [')'] then some (.skill skill low (some high)) else none
  | _ => none

/-- Reads a test. Blanks may stand around `/`, before `(` and inside the parentheses. -/
def ofText? (t : Text) : Option LevelTest := do
  let (low, t) ← takeNumber? t
  match Text.trimStart t with
  | [] => some (.atLeast low)
  | '/' :: t =>
    let (high, t) ← takeNumber? (Text.trimStart t)
    if t = [] then some (.between low high) else none
  | '(' :: t => skillOfText? low t
  | _ => none

/-- True when a level passes the test. -/
def admits (level : Nat) : LevelTest → Bool
  | .atLeast low => low ≤ level
  | .between low high => low ≤ level && level ≤ high
  | .skill .. => true

/-- Reads a level section. Blank entries are skipped; a fault names the whole section. -/
def listOfText (t : Text) : Except Fault (List LevelTest) :=
  match (((t.splitOn ',').map Text.trim).filter (· ≠ [])).mapM ofText? with
  | some tests => .ok tests
  | none => .error (.badLevel t)

end LevelTest

end Wardrobe
