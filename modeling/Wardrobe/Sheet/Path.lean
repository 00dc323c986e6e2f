import Wardrobe.Text.Basic

/-!
# Paths

A path is a text with slashes. What it means are its components: repeated slashes, a slash at the
end and a `.` inside do not count. Paths are ordered by their components.
-/

namespace Wardrobe

/-- A path as written. -/
structure Path where
  text : Text
  deriving DecidableEq, Inhabited

/-- A place in an order: lists of numbers, compared from the front. -/
abbrev SortKey := List (List Nat)

/-- True when `a` comes before `b` or holds the same place. -/
def SortKey.notAfter (a b : SortKey) : Bool :=
  !decide (b < a)

namespace Path

/-- One step of a path. -/
inductive Component where
  /-- The slash in front of an absolute path. -/
  | root
  /-- A `.` in front of a relative path. -/
  | here
  /-- A `..`. -/
  | up
  | name (name : Text)
  deriving DecidableEq

/-- The component that a piece between slashes stands for. -/
def componentOf (piece : Text) : Option Component :=
  if piece = [] ∨ piece = ['.'] then none
  else if piece = ['.', '.'] then some .up
  else some (.name piece)

/-- True for a path that begins with a slash. -/
def isAbsolute (p : Path) : Bool :=
  p.text.head? == some '/'

/-- The components of a path. -/
def components (p : Path) : List Component :=
  let pieces := p.text.splitOn '/'
  let start := if p.isAbsolute then [.root] else if pieces.head? = some ['.'] then [.here] else []
  start ++ pieces.filterMap componentOf

/-- The last component of a path when it is a name, else the empty text. -/
def fileName (p : Path) : Text :=
  match p.components.getLast? with
  | some (.name name) => name
  | _ => []

/-- The place of a component in the order: the root, `.`, `..`, then names by code points. -/
def Component.sortKey : Component → List Nat
  | root => [0]
  | here => [1]
  | up => [2]
  | name n => 3 :: n.map Char.toNat

/-- The place of a path in the order, component by component. -/
def sortKey (p : Path) : SortKey :=
  p.components.map Component.sortKey

/-- The path `t` as seen from `base`; an absolute `t` stands for itself. -/
def join (base : Path) (t : Text) : Path :=
  if t.head? = some '/' ∨ base.text = [] then ⟨t⟩
  else if base.text.getLast? = some '/' then ⟨base.text ++ t⟩
  else ⟨base.text ++ '/' :: t⟩

end Path

end Wardrobe
