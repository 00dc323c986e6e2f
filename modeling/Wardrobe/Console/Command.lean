import Wardrobe.Sheet.Path

/-!
# Command lines

The arguments of the program, read from left to right.
-/

namespace Wardrobe

/-- What the program is asked to do. -/
inductive Command where
  | help
  | version
  /-- Survey a data directory, with a snapshot or without one. -/
  | survey (data : Path) (records : Option Path)
  /-- Write rules in their least form. -/
  | format (lines : List Text)
  deriving DecidableEq

/-- Why arguments make no command. -/
inductive UsageError where
  | noValue (option : String) (value : String)
  | unknownOption (argument : String)
  | unexpected (argument : String)
  | dataWithFormat
  | nothingToDo
  deriving DecidableEq

namespace Command

/-- The name and number of the program. -/
def banner : String :=
  "distrule 0.1.0"

/-- The help text. -/
def helpText : String :=
  banner ++ "

Distribution-rule analyzer.

Usage:
  distrule [OPTIONS] --data <dir> [--records <snapshot.json>]
  distrule [OPTIONS] --format <line> [--format <line>...]
  distrule [OPTIONS] -- <line...>

Options:
  -d, --data <dir>           Data directory holding *_DISTR.ini files and
                             SKSE/Plugins/SkyPatcher/npc/**/*.ini.
  -r, --records <file>       Record snapshot (JSON) to match against.
                             Default: empty store, no characters.
  -f, --format <line>        Parse a rule line and print its minimal form.
                             Use '-' to read lines from stdin.
  --color                    Force ANSI color output.
  --no-color                 Disable ANSI color output.
  -h, --help                 Show this help message.
  -V, --version              Print version information.

Logging:
  RUST_LOG=distrule=debug    Show dropped lines and unresolved references.

Exit codes:
  0  Success.
  1  Analysis failed or a rule line was rejected.
  2  Invalid arguments.
"

/-- The settings that the arguments so far have made. -/
structure Settings where
  data : Option Path
  records : Option Path
  format : Option (List Text)
  color : Bool

namespace Settings

/-- Adds lines to be formatted. -/
def addLines (s : Settings) (lines : List String) : Settings :=
  { s with format := some (s.format.getD [] ++ lines.map String.toList) }

/-- The command of complete settings. -/
def command (s : Settings) : Except UsageError Command :=
  match s.data, s.format with
  | some _, some _ => .error .dataWithFormat
  | some data, none => .ok (.survey data s.records)
  | none, some lines => .ok (.format lines)
  | none, none => .error .nothingToDo

end Settings

/-- Drops a word from the front as often as it stands there; `count` bounds the repetitions. -/
def dropRepeated (word : Text) : Nat → Text → Text
  | 0, t => t
  | count + 1, t =>
    if word.isPrefixOf t then dropRepeated word count (t.drop word.length) else t

/-- The value of an argument that begins with `word`. -/
def attachedValue? (word : String) (argument : String) : Option Path :=
  let t := argument.toList
  if word.toList.isPrefixOf t then some ⟨dropRepeated word.toList t.length t⟩ else none

/-- Reads an argument that is none of the plain options. -/
def settingsOfOther (s : Settings) (argument : String) : Except UsageError Settings :=
  match attachedValue? "--data=" argument, attachedValue? "--records=" argument with
  | some data, _ => .ok { s with data := some data }
  | none, some records => .ok { s with records := some records }
  | none, none =>
    if argument.toList.head? = some '-' then .error (.unknownOption argument)
    else .error (.unexpected argument)

/-- Reads arguments into settings. Asking for help or for the version ends the reading, and `--`
makes everything behind it a line to be formatted. The result tells the color, too. -/
def ofArguments (s : Settings) : List String → Except UsageError (Command × Bool)
  | [] => s.command.map (·, s.color)
  | "-h" :: _ | "--help" :: _ => .ok (.help, s.color)
  | "-V" :: _ | "--version" :: _ => .ok (.version, s.color)
  | "--color" :: rest => ofArguments { s with color := true } rest
  | "--no-color" :: rest => ofArguments { s with color := false } rest
  | ["--data"] | ["-d"] => .error (.noValue "--data" "directory")
  | "--data" :: value :: rest | "-d" :: value :: rest =>
    ofArguments { s with data := some ⟨value.toList⟩ } rest
  | ["--records"] | ["-r"] => .error (.noValue "--records" "file")
  | "--records" :: value :: rest | "-r" :: value :: rest =>
    ofArguments { s with records := some ⟨value.toList⟩ } rest
  | ["--format"] | ["-f"] => .error (.noValue "--format" "rule line")
  | "--format" :: value :: rest | "-f" :: value :: rest => ofArguments (s.addLines [value]) rest
  | "--" :: lines => (s.addLines lines).command.map (·, s.color)
  | argument :: rest => do ofArguments (← settingsOfOther s argument) rest

end Command

/-- The wording of a usage error. -/
def UsageError.message : UsageError → String
  | noValue option value => "error: " ++ option ++ " expects a " ++ value
  | unknownOption argument => "error: unknown option '" ++ argument ++ "'"
  | unexpected argument =>
    "error: unexpected argument '" ++ argument ++ "'\n\n" ++ Command.helpText
  | dataWithFormat => "error: --data and --format cannot be combined"
  | nothingToDo => "error: nothing to do\n\n" ++ Command.helpText

end Wardrobe
