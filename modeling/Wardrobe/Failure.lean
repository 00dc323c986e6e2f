import Wardrobe.Sheet.Path

/-!
# Failures

Why a task as a whole could not be done. Rule texts never fail: a line that is no rule is kept
with its fault.
-/

namespace Wardrobe

/-- Why a task could not be done. -/
inductive Failure where
  | notADirectory (path : Path)
  | cancelled
  | badSnapshot
  | unreadable (path : Path) (reason : String)
  deriving DecidableEq

/-- The wording of a failure. -/
def Failure.message : Failure → String
  | notADirectory path => "Not a directory: " ++ String.ofList path.text
  | cancelled => "cancelled"
  | badSnapshot => "JSON error: not a snapshot"
  | unreadable path reason => "I/O error on " ++ String.ofList path.text ++ ": " ++ reason

end Wardrobe
