import Wardrobe.Rule.Barred
import Wardrobe.Rule.Clausal
import Wardrobe.Sheet.Path
import Wardrobe.Text.Casing

/-!
# Rule sheets

A rule sheet is a text file of rules in one dialect, kept line by line: also blank lines, comments
and rejected lines stay, each under its number.
-/

namespace Wardrobe

/-- What a line of a sheet turned out to be. -/
inductive Content where
  | blank
  | comment
  /-- A barred line gives one rule, a clausal line one for each outfit that it names. -/
  | rules (rules : List Rule)
  | rejected (fault : Fault)
  deriving DecidableEq

namespace Content

/-- The rules of a dialect on one line. -/
def rulesOfLine (dialect : Dialect) (v : Vocabulary) (line : Text) : Except Fault (List Rule) :=
  match dialect with
  | .barred => (Barred.ruleOfLine v line).map ([·])
  | .clausal => Clausal.rulesOfLine line

/-- Reads a line. -/
def ofLine (dialect : Dialect) (v : Vocabulary) (line : Text) : Content :=
  match Text.trim line with
  | [] => .blank
  | c :: _ =>
    if c = ';' ∨ c = '#' then .comment
    else match rulesOfLine dialect v line with
      | .ok found => .rules found
      | .error fault => .rejected fault

/-- The rules of a line, none unless it holds rules. -/
def toRules : Content → List Rule
  | rules found => found
  | _ => []

end Content

/-- One line of a sheet. -/
structure SheetLine where
  /-- Counted from one. -/
  number : Nat
  source : Text
  content : Content

/-- A rule sheet. -/
structure Sheet where
  path : Path
  dialect : Dialect
  lines : List SheetLine

namespace Sheet

/-- Drops one byte order mark in front. -/
def dropByteOrderMark (t : Text) : Text :=
  if t.head? = some (Char.ofNat 0xFEFF) then t.tail else t

/-- Reads a sheet. -/
def ofText (path : Path) (dialect : Dialect) (v : Vocabulary) (t : Text) : Sheet where
  path := path
  dialect := dialect
  lines := (Text.lines (dropByteOrderMark t)).zipIdx.map fun (line, i) =>
    ⟨i + 1, line, .ofLine dialect v line⟩

/-- The rules of a sheet with their line numbers, in line order. -/
def rules (s : Sheet) : List (Nat × Rule) :=
  s.lines.flatMap fun line => line.content.toRules.map fun r => (line.number, r)

/-- The rejected lines with their faults, in line order. -/
def rejected (s : Sheet) : List (SheetLine × Fault) :=
  s.lines.filterMap fun line =>
    match line.content with
    | .rejected fault => some (line, fault)
    | _ => none

/-- The forms that the outfit rules of a sheet hand out, in line order. -/
def outfitForms (s : Sheet) : List Text :=
  (s.rules.filter fun (_, r) => r.gift.isOutfit).map fun (_, r) => r.form

/-- The place of a sheet in processing order: the dialect, the file name in lower case, the
path. -/
def sortKey (s : Sheet) : SortKey :=
  [s.dialect.rank] :: (Text.lower s.path.fileName).map Char.toNat :: s.path.sortKey

/-- Sheets in the order in which their rules apply. Sheets with equal places keep their order. -/
def processingOrder (sheets : List Sheet) : List Sheet :=
  sheets.mergeSort fun a b => a.sortKey.notAfter b.sortKey

end Sheet

end Wardrobe
