import Wardrobe.Distribution.Survey

/-!
# Reports

The findings of a survey as lines of text, with colors or without.
-/

namespace Wardrobe.Report

/-! ### Colors -/

/-- The codes that a terminal takes as colors. -/
inductive Color where
  | red
  | green
  | yellow
  | blue
  | cyan
  | gray
  | dim
  | bold

/-- The code of a color. -/
def Color.code : Color → String
  | red => "\x1b[31m"
  | green => "\x1b[32m"
  | yellow => "\x1b[33m"
  | blue => "\x1b[34m"
  | cyan => "\x1b[36m"
  | gray => "\x1b[90m"
  | dim => "\x1b[2m"
  | bold => "\x1b[1m"

/-- Whether colors are used. -/
structure Palette where
  enabled : Bool

/-- A text in a color. -/
def Palette.paint (p : Palette) (color : Color) (s : String) : String :=
  if p.enabled then color.code ++ s ++ "\x1b[0m" else s

/-! ### Durations -/

/-- The time that each stage took, in nanoseconds. -/
structure Timings where
  total : Nat
  discovery : Nat
  resolve : Nat
  matching : Nat
  keywords : Nat

/-- A number of units with a fraction of at most `places` digits, without zeros at its end. -/
def decimal (whole fraction places : Nat) (unit : String) : String :=
  let digits := Text.ofNat fraction
  let padded := List.replicate (places - digits.length) '0' ++ digits
  let kept := (padded.reverse.dropWhile (· == '0')).reverse
  toString whole ++ (if kept = [] then "" else "." ++ String.ofList kept) ++ unit

/-- A duration in its largest unit of at least one. -/
def duration (nanoseconds : Nat) : String :=
  if 1000000000 ≤ nanoseconds then
    decimal (nanoseconds / 1000000000) (nanoseconds % 1000000000) 9 "s"
  else if 1000000 ≤ nanoseconds then
    decimal (nanoseconds / 1000000) (nanoseconds % 1000000) 6 "ms"
  else if 1000 ≤ nanoseconds then decimal (nanoseconds / 1000) (nanoseconds % 1000) 3 "µs"
  else toString nanoseconds ++ "ns"

/-! ### Sections -/

/-- The most rows of one section. -/
def limit : Nat := 20

/-- The row that stands for those beyond the limit. -/
def more (p : Palette) (count : Nat) : List String :=
  if limit < count then ["  " ++ p.paint .dim ("... +" ++ toString (count - limit) ++ " more")]
  else []

/-- The name of a dialect. -/
def dialectName : Dialect → String
  | .barred => "distr"
  | .clausal => "skypatcher"

/-- The file and line of a rule. -/
def place (path : Path) (line : Nat) : String :=
  String.ofList path.fileName ++ ":" ++ toString line

/-- The rows of one sheet: its name and number of rules, then its rejected lines. -/
def sheetRows (p : Palette) (s : Sheet) : List String :=
  ("  " ++ p.paint .blue (String.ofList s.path.fileName) ++ " " ++
    p.paint .dim ("[" ++ dialectName s.dialect ++ "]") ++ " " ++
    p.paint .green (toString s.rules.length ++ " rules")) ::
  s.rejected.map fun (line, fault) =>
    "      " ++ p.paint .red ("line " ++ toString line.number ++ ":") ++ " " ++
      p.paint .dim (String.ofList (Text.trim line.source)) ++ " " ++
      p.paint .yellow ("(" ++ fault.message ++ ")")

/-- The section of the sheets. -/
def sheetSection (p : Palette) (sheets : List Sheet) : List String :=
  if sheets.isEmpty then [p.paint .dim "  No rule files found"]
  else sheets.flatMap (sheetRows p)

/-- The sign in front of a contender: winner, stopped by its gate, or overridden. -/
def marker (p : Palette) (winner? : Option Nat) (c : Contender) (i : Nat) : String :=
  if winner? = some i then p.paint .green "✓"
  else if !c.passed then p.paint .red "✗"
  else p.paint .dim "·"

/-- The rows of one contest. -/
def contestRows (p : Palette) (c : Contest) : List String :=
  ("  " ++ p.paint .bold (String.ofList c.editorId) ++ " " ++
    p.paint .dim ("(" ++ String.ofList c.actor.toText ++ ")")) ::
  c.contenders.zipIdx.map fun (contender, i) =>
    "    " ++ marker p c.winner? contender i ++ " " ++
      p.paint .cyan (String.ofList contender.outfit) ++ " " ++
      p.paint .dim (place contender.path contender.line) ++ " " ++
      (if contender.chance < 100 then p.paint .dim (toString contender.chance ++ "%") else "")

/-- The section of the conflicts. -/
def conflictSection (p : Palette) (conflicts : List Contest) : List String :=
  (if conflicts.isEmpty then
    [p.paint .dim "  No character is matched by more than one outfit rule"] else []) ++
  (conflicts.take limit).flatMap (contestRows p) ++ more p conflicts.length

/-- The actors that gain something, with their keywords. -/
def gains (s : Survey) (actors : List Actor) : List (Actor × List Acquisition) :=
  (actors.zip s.acquired).filter fun (_, acquired) => !acquired.isEmpty

/-- The section of the keywords. -/
def keywordSection (p : Palette) (s : Survey) (actors : List Actor) : List String :=
  if s.chain.ordered.isEmpty && s.chain.cyclic.isEmpty then [p.paint .dim "  No keyword rules"]
  else
    let names (ts : List Text) (sep : String) : String := sep.intercalate (ts.map String.ofList)
    let gained := gains s actors
    ["  " ++ p.paint .dim "order:" ++ " " ++
      p.paint .cyan (names (s.chain.ordered.map (·.keyword)) " → ")] ++
    (if s.chain.cyclic.isEmpty then []
    else ["  " ++ p.paint .red "cyclic (skipped):" ++ " " ++ names s.chain.cyclic ", "]) ++
    ["  " ++ p.paint .dim "acquired:" ++ " " ++
      p.paint .green (toString (Handout.total s.acquired) ++ " keywords across " ++
        toString gained.length ++ " characters")] ++
    ((gained.take limit).map fun (a, acquired) =>
      "    " ++ p.paint .blue (String.ofList a.editorId) ++ " " ++
        p.paint .dim (names (acquired.map (·.keyword)) ", ")) ++
    more p gained.length

/-- The section of the texts that name nothing; left out when there are none. -/
def unresolvedSection (p : Palette) (s : Survey) : List String :=
  if s.unresolved.isEmpty then []
  else
    ["", p.paint .gray "━━━ Unresolved references ━━━" ++ " " ++
      p.paint .dim ("(" ++ toString s.resolvedCount ++ " of " ++ toString s.textCount ++
        " resolved)")] ++
    ((s.unresolved.take limit).map fun (path, line, text) =>
      "  " ++ p.paint .dim (place path line) ++ " " ++ p.paint .yellow (String.ofList text)) ++
    more p s.unresolved.length

/-- The section of the times and counts. -/
def timingSection (p : Palette) (s : Survey) (t : Timings) : List String :=
  ["  Total: " ++ p.paint .green (duration t.total) ++
      "  │  Discovery: " ++ p.paint .cyan (duration t.discovery) ++
      "  │  Resolve: " ++ p.paint .dim (duration t.resolve) ++
      "  │  Matching: " ++ p.paint .dim (duration t.matching) ++
      "  │  Keywords: " ++ p.paint .dim (duration t.keywords),
    "  " ++ p.paint .dim (toString s.rules.length ++ " rules, " ++ toString s.rejectedCount ++
      " rejected lines, " ++ toString s.acquired.length ++ " characters")]

/-- The lines of a report. -/
def ofSurvey (p : Palette) (s : Survey) (actors : List Actor) (t : Timings) : List String :=
  ["", p.paint .bold (p.paint .cyan
      ("⚙  Analyzing " ++ toString s.sheets.length ++ " rule files"))] ++
  ["", p.paint .gray "━━━ Files ━━━"] ++ sheetSection p s.sheets ++
  ["", p.paint .gray "━━━ Outfit conflicts ━━━"] ++ conflictSection p s.conflicts ++
  ["", p.paint .gray "━━━ Keywords ━━━"] ++ keywordSection p s actors ++
  unresolvedSection p s ++
  ["", p.paint .gray "━━━ Timing ━━━"] ++ timingSection p s t ++
  [""]

end Wardrobe.Report
