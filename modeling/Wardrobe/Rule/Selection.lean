import Wardrobe.Rule.Condition

/-!
# Selections

A text or form section of a rule. Commas separate alternatives, `+` joins the conditions of one
alternative. A comma segment that begins with `-` and holds no `+` opens no alternative: it is
attached to the alternative before it, and without one it excludes from the whole section. Hence
`A+B,-C` is one alternative with three conditions, `A,B` is two, and `-C,A` is one alternative
under an exclusion.
-/

namespace Wardrobe

/-- Conditions that must all hold. The attached ones were written as comma segments of their own;
they are kept apart so that writing gives the same shape back. -/
structure Group where
  parts : List Condition
  attached : List Condition
  deriving DecidableEq

/-- Every condition of a group, in the order written. -/
def Group.conditions (g : Group) : List Condition :=
  g.parts ++ g.attached

/-- Alternative groups under exclusions that hold for all of them. -/
structure Selection where
  groups : List Group
  exclusions : List Condition
  deriving DecidableEq

namespace Selection

/-- The selection without any condition. -/
def everything : Selection :=
  ⟨[], []⟩

/-- True without any condition. -/
def isEmpty (s : Selection) : Bool :=
  s.groups.isEmpty && s.exclusions.isEmpty

/-- Every condition: the exclusions, then those of each group. -/
def conditions (s : Selection) : List Condition :=
  s.exclusions ++ s.groups.flatMap Group.conditions

/-! ### Reading -/

/-- Puts a negation in front of a selection, of which it becomes an exclusion. -/
def exclude (c : Condition) (s : Selection) : Selection :=
  { s with exclusions := c :: s.exclusions }

/-- Puts a group in front of a selection. The exclusions that stood there now follow a group, and so
are attached to it. A group without conditions is dropped. -/
def openGroup (parts : List Condition) (s : Selection) : Selection :=
  if parts = [] then s else ⟨⟨parts, s.exclusions⟩ :: s.groups, []⟩

/-- True for a trimmed segment that opens no alternative. -/
def isNegation (segment : Text) : Bool :=
  segment.head? == some '-' && !segment.contains '+'

/-- Reads one comma segment, in front of the selection that the segments behind it make. -/
def addSegment (segment : Text) (s : Selection) : Selection :=
  let segment := Text.trim segment
  if isNegation segment then
    match Condition.ofText? segment with
    | some c => s.exclude c
    | none => s
  else s.openGroup ((segment.splitOn '+').filterMap Condition.ofText?)

/-- Reads a section. -/
def ofText (t : Text) : Selection :=
  (t.splitOn ',').foldr addSegment everything

/-! ### Writing -/

/-- The comma segments of a group. -/
def groupSegments (g : Group) : List Text :=
  Text.join ['+'] (g.parts.map Condition.toText) :: g.attached.map Condition.toText

/-- Writes a section: the exclusions, then the groups. -/
def toText (s : Selection) : Text :=
  Text.join [','] (s.exclusions.map Condition.toText ++ s.groups.flatMap groupSegments)

/-! ### Meaning -/

/-- True when every condition of a group holds. -/
def groupHolds (hit : Condition → Bool) (g : Group) : Bool :=
  g.conditions.all (Condition.holds hit)

/-- True when every exclusion holds and, if there are groups, one of them does. -/
def holds (hit : Condition → Bool) (s : Selection) : Bool :=
  s.exclusions.all (Condition.holds hit) && (s.groups.isEmpty || s.groups.any (groupHolds hit))

end Selection

end Wardrobe
