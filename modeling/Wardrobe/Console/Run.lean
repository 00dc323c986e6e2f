import Wardrobe.Console.Command
import Wardrobe.Console.Format
import Wardrobe.Disk.Scan
import Wardrobe.Record.SnapshotJson

/-!
# Running a command

The program as a function of its arguments and of the machine that it runs on.
-/

namespace Wardrobe

/-- What the program asks of the machine. -/
structure Host (m : Type → Type) where
  disk : Disk m
  /-- The bytes of the standard input. -/
  input : m (List UInt8)
  /-- A clock in nanoseconds. -/
  clock : m Nat

/-- What a run leaves behind. -/
structure Outcome where
  code : UInt32
  output : String
  errors : String

namespace Console

/-- An outcome that prints lines. -/
def printing (code : UInt32) (lines : List String) : Outcome :=
  ⟨code, String.join (lines.map (· ++ "\n")), ""⟩

/-- An outcome with a complaint. -/
def complaining (code : UInt32) (message : String) : Outcome :=
  ⟨code, "", message ++ "\n"⟩

/-- The complaint about bytes that are not UTF-8. -/
def notUtf8 : String :=
  "stream did not contain valid UTF-8"

variable {m : Type → Type} [Monad m]

/-- Reads a snapshot from a file. -/
def loadSnapshot (disk : Disk m) (path : Path) : m (Except Failure Snapshot) := do
  match ← disk.read path with
  | .error failure => return .error (.unreadable path failure.message)
  | .ok bytes =>
    match Text.ofUtf8? bytes with
    | none => return .error (.unreadable path notUtf8)
    | some text =>
      match Snapshot.ofText? text with
      | none => return .error .badSnapshot
      | some snapshot => return .ok snapshot

/-- The snapshot of a command, empty if it names none. -/
def snapshotOf (disk : Disk m) : Option Path → m (Except Failure Snapshot)
  | none => return .ok .empty
  | some path => loadSnapshot disk path

/-- Runs a computation and tells how long it took. -/
def timed {α : Type} (host : Host m) (x : m α) : m (α × Nat) := do
  let before ← host.clock
  let a ← x
  let after ← host.clock
  return (a, after - before)

/-- Surveys the sheets of a data directory, timing each stage. -/
def surveyDirectory (host : Host m) (data : Path) (catalog : Catalog) (actors : List Actor) :
    m (Except Failure (Survey × Report.Timings)) := do
  let (sheets, discovery) ← timed host (Scan.sheets host.disk .standard data)
  match sheets with
  | .error failure => return .error failure
  | .ok sheets =>
    let (rules, resolve) ← timed host (do return Survey.resolve catalog sheets)
    let ((outfits, sleepOutfits), matching) ← timed host (do
      return (Contest.all .outfit sheets actors, Contest.all .sleepOutfit sheets actors))
    let ((chain, acquired), keywords) ← timed host (do
      let chain := Survey.chainOf sheets
      return (chain, Handout.acquired chain actors))
    return .ok (⟨sheets, outfits, sleepOutfits, chain, acquired, rules⟩,
      ⟨discovery + resolve + matching + keywords, discovery, resolve, matching, keywords⟩)

/-- Surveys a data directory and reports. -/
def survey (host : Host m) (color : Bool) (data : Path) (records : Option Path) : m Outcome := do
  match ← snapshotOf host.disk records with
  | .error failure => return complaining 1 ("error: " ++ failure.message)
  | .ok snapshot =>
    let (catalog, actors) := snapshot.parts
    match ← surveyDirectory host data catalog actors with
    | .error failure => return complaining 1 ("error: " ++ failure.message)
    | .ok (findings, timings) =>
      return printing 0 (Report.ofSurvey ⟨color⟩ findings actors timings)

/-- Formats lines; the code tells whether all were accepted. -/
def formatLines (color : Bool) (lines : List Text) : Outcome :=
  let results := Format.lines .standard lines
  let code := if results.all Format.accepted then 0 else 1
  printing code (results.flatMap (Format.rows ⟨color⟩))

/-- Formats lines, or those of the standard input when one of them is a minus. -/
def format (host : Host m) (color : Bool) (lines : List Text) : m Outcome := do
  if lines.contains ['-'] then
    match Text.ofUtf8? (← host.input) with
    | none => return complaining 2 ("error: failed to read stdin: " ++ notUtf8)
    | some text => return formatLines color (Text.lines text)
  else return formatLines color lines

/-- Runs the program. `color` tells whether colors are used unless the arguments say otherwise. -/
def run (host : Host m) (color : Bool) (arguments : List String) : m Outcome := do
  match Command.ofArguments ⟨none, none, none, color⟩ arguments with
  | .error mistake => return complaining 2 mistake.message
  | .ok (.help, _) => return printing 0 [Command.helpText]
  | .ok (.version, _) => return printing 0 [Command.banner]
  | .ok (.survey data records, color) => survey host color data records
  | .ok (.format lines, color) => format host color lines

end Console

end Wardrobe
