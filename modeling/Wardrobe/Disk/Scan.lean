import Wardrobe.Disk.Basic
import Wardrobe.Failure
import Wardrobe.Sheet.Basic
import Wardrobe.Text.Utf8

/-!
# Finding rule sheets

Rule sheets lie in a data directory: barred ones at its top, told by the end of their names, and
clausal ones anywhere below one directory. Links are followed, since rule sheets are often put in
place by links; a link back to a directory that is being read is passed over, and so is a second
link to the same place.
-/

namespace Wardrobe

/-- Where rule sheets are looked for, and the words of their rules. -/
structure Layout where
  /-- How the names of barred sheets end; letter case does not count. -/
  barredSuffix : Text
  /-- The directory of clausal sheets, as seen from the data directory. -/
  clausalDirectory : Text
  withBarred : Bool
  withClausal : Bool
  vocabulary : Vocabulary

/-- The usual layout. -/
def Layout.standard : Layout where
  barredSuffix := "_DISTR.ini".toList
  clausalDirectory := "SKSE/Plugins/SkyPatcher/npc".toList
  withBarred := true
  withClausal := true
  vocabulary := .standard

namespace Scan

/-- The result of reading directories so far. -/
structure Found where
  /-- The places reached through links. -/
  linked : List Path
  /-- The files that count, last first. -/
  files : List Path

/-- True when a file name ends as given, with something before it. -/
def hasSuffix (suffix name : Text) : Bool :=
  Text.byteLength suffix < Text.byteLength name &&
    (Text.lower suffix).isSuffixOf (Text.lower name)

variable {m : Type → Type} [Monad m]

/-- Reads the directory at `path` and, down to a depth, those below it. `opened` holds the places
of the directories on the way to it. -/
def directory (disk : Disk m) (keep : Text → Bool) :
    Nat → Path → List Path → Found → m Found
  | 0, _, _, found => pure found
  | depth + 1, path, opened, found => do
    (← disk.names path).foldlM (fun found name => do
      let entry := path.join name
      match ← disk.kind? entry with
      | none => pure found
      | some kind =>
        let link ← disk.isLink entry
        let place ←
          if link || kind == .directory then pure ((← disk.canonical? entry).getD entry)
          else pure entry
        if link && (opened.contains place || found.linked.contains place) then pure found
        else
          let found := if link then { found with linked := place :: found.linked } else found
          match kind with
          | .file =>
            pure (if keep name then { found with files := entry :: found.files } else found)
          | .directory => directory disk keep depth entry (place :: opened) found) found

/-- The files below a directory, down to a depth, whose names count. -/
def filesBelow (disk : Disk m) (keep : Text → Bool) (depth : Nat) (root : Path) :
    m (List Path) := do
  let place := (← disk.canonical? root).getD root
  let linked := if ← disk.isLink root then [place] else []
  let found ← directory disk keep depth root [place] ⟨linked, []⟩
  return found.files.reverse

/-- True when a path leads to a directory. -/
def isDirectory (disk : Disk m) (path : Path) : m Bool := do
  return (← disk.kind? path) == some .directory

/-- The files that may be rule sheets, with their dialects. -/
def candidates (disk : Disk m) (layout : Layout) (data : Path) : m (List (Path × Dialect)) := do
  let barred ←
    if layout.withBarred then filesBelow disk (hasSuffix layout.barredSuffix) 1 data else pure []
  let root := data.join layout.clausalDirectory
  let clausal ←
    if layout.withClausal && (← isDirectory disk root) then
      filesBelow disk (hasSuffix ".ini".toList) disk.depth root
    else pure []
  return barred.map (·, .barred) ++ clausal.map (·, .clausal)

/-- Reads one file as a rule sheet; a file that cannot be read is passed over. Bytes that are not
UTF-8 become replacement characters. -/
def sheetOfFile? (disk : Disk m) (v : Vocabulary) (path : Path) (dialect : Dialect) :
    m (Option Sheet) := do
  match ← disk.read path with
  | .ok bytes => return some (.ofText path dialect v (Text.ofUtf8Lossy bytes))
  | .error _ => return none

/-- The rule sheets of a data directory, in the order of their paths. -/
def sheets (disk : Disk m) (layout : Layout) (data : Path) : m (Except Failure (List Sheet)) := do
  if ← isDirectory disk data then
    let found ← (← candidates disk layout data).filterMapM fun (path, dialect) =>
      sheetOfFile? disk layout.vocabulary path dialect
    return .ok (found.mergeSort fun a b => a.path.sortKey.notAfter b.path.sortKey)
  else return .error (.notADirectory data)

end Scan

end Wardrobe
