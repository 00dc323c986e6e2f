import Wardrobe.Console.Run

/-!
# The program

The command line over real files.
-/

namespace Wardrobe.Main

/-- The path of a text, as the file functions take it. -/
def fileName (p : Path) : String :=
  String.ofList p.text

/-- A path as an entry of the file system; its `root` is the path itself. -/
def asEntry (p : Path) : IO.FS.DirEntry :=
  ⟨fileName p, ""⟩

/-- The failure behind an error of the system, whose number may be given as negative. -/
def failureOf : IO.Error → ReadFailure
  | .noFileOrDirectory _ code reason | .inappropriateType _ code reason
  | .permissionDenied _ code reason | .invalidArgument _ code reason
  | .resourceExhausted _ code reason | .noSuchThing _ code reason
  | .otherError code reason | .hardwareFault code reason =>
    .ofCode (if code < 0x80000000 then code else 0 - code).toNat reason
  | e => ⟨toString e, 0⟩

/-- What a path leads to. -/
def kind? (p : Path) : IO (Option EntryKind) := do
  try
    let metadata ← (asEntry p).root.metadata
    return match metadata.type with
      | .file => some .file
      | .dir => some .directory
      | _ => none
  catch _ => return none

/-- True when a path is a link. -/
def isLink (p : Path) : IO Bool := do
  try
    let metadata ← (asEntry p).root.symlinkMetadata
    return match metadata.type with
      | .symlink => true
      | _ => false
  catch _ => return false

/-- The path without links. -/
def canonical? (p : Path) : IO (Option Path) := do
  try
    let real ← IO.FS.realPath (fileName p)
    return some ⟨real.toString.toList⟩
  catch _ => return none

/-- The names in a directory. -/
def names (p : Path) : IO (List Text) := do
  try
    let entries ← (asEntry p).root.readDir
    return entries.toList.map fun e => e.fileName.toList
  catch _ => return []

/-- The bytes of a file. -/
def read (p : Path) : IO (Except ReadFailure (List UInt8)) := do
  try
    let bytes ← IO.FS.readBinFile (fileName p)
    return .ok bytes.toList
  catch e => return .error (failureOf e)

/-- The real files. No path of the system is deeper than the bound. -/
def disk : Disk IO where
  kind? := kind?
  isLink := isLink
  canonical? := canonical?
  names := names
  read := read
  depth := 4096

/-- The bytes of the standard input. -/
def input : IO (List UInt8) := do
  return (← (← IO.getStdin).readBinToEnd).toList

/-- The machine. -/
def host : Host IO where
  disk := disk
  input := input
  clock := IO.monoNanosNow

end Wardrobe.Main

/-- Runs the program and leaves with its code. -/
def main (arguments : List String) : IO UInt32 := do
  let color ← (← IO.getStdout).isTty
  let outcome ← Wardrobe.Console.run Wardrobe.Main.host color arguments
  IO.print outcome.output
  IO.eprint outcome.errors
  return outcome.code
