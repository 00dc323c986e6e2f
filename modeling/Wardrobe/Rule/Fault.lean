import Wardrobe.Text.Basic

/-!
# Faults

Why a line is not a rule. A fault keeps the text it complains about; `message` is its wording.
-/

namespace Wardrobe

/-- The reason for which a line is rejected. -/
inductive Fault where
  | empty
  | noSeparator
  | unknownKeyword (keyword : Text)
  | noForm
  | badForm (form : Text)
  | tooManySections (count : Nat)
  | badLevel (text : Text)
  | badTrait (code : Text)
  | badChance (text : Text)
  | badClause (clause : Text)
  | noTarget
  deriving DecidableEq

namespace Fault

/-- A text between apostrophes. -/
def quoted (t : Text) : String :=
  "'" ++ String.ofList t ++ "'"

/-- The wording of a fault. -/
def message : Fault → String
  | empty => "line is empty or a comment"
  | noSeparator => "missing '=' separator"
  | unknownKeyword keyword => "unknown keyword " ++ quoted keyword
  | noForm => "missing target form"
  | badForm form => "invalid target form " ++ quoted form
  | tooManySections count =>
    "too many sections (" ++ toString count ++ ", at most 6 after the form)"
  | badLevel text => "invalid level filter " ++ quoted text
  | badTrait code => "invalid trait code " ++ quoted code
  | badChance text => "invalid chance " ++ quoted text
  | badClause clause => "malformed clause " ++ quoted clause
  | noTarget => "no outfit target clause"

end Fault

end Wardrobe
