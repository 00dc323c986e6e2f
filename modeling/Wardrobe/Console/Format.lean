import Wardrobe.Console.Report

/-!
# Formatting rule lines

Lines are written back in their least form. A line is read as a barred rule first; one that is
rejected is tried as a clausal rule, and when that fails too, the first fault counts.
-/

namespace Wardrobe.Format

/-- The rules of a line in their least form. -/
def line (v : Vocabulary) (t : Text) : Except Fault (List Text) :=
  match Barred.ruleOfLine v t with
  | .ok r => .ok [r.toText]
  | .error fault =>
    match Clausal.rulesOfLine t with
    | .ok rules => .ok (rules.map Rule.toText)
    | .error _ => .error fault

/-- The lines that are not blank, each with its result. -/
def lines (v : Vocabulary) (ts : List Text) : List (Text × Except Fault (List Text)) :=
  (ts.filter fun t => Text.trim t ≠ []).map fun t => (t, line v t)

/-- True when a line was accepted. -/
def accepted (result : Text × Except Fault (List Text)) : Bool :=
  match result.2 with
  | .ok _ => true
  | .error _ => false

/-- The rows that show the result of a line. -/
def rows (p : Report.Palette) (result : Text × Except Fault (List Text)) : List String :=
  match result.2 with
  | .ok texts => texts.map fun t => p.paint .green (String.ofList t)
  | .error fault =>
    [p.paint .red ("✗ " ++ fault.message ++ ":") ++ " " ++
      p.paint .dim (String.ofList (Text.trim result.1))]

end Wardrobe.Format
