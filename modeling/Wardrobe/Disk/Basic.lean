import Wardrobe.Sheet.Path

/-!
# Disks

What the program asks of the place where its files are. Programs that use a disk are written for
any monad, so that the same program runs over real files and over a tree held in memory.
-/

namespace Wardrobe

/-- What a path leads to when every link is followed. -/
inductive EntryKind where
  | file
  | directory
  deriving DecidableEq

/-- Why a file cannot be read: the wording and number of the system's error. -/
structure ReadFailure where
  reason : String
  code : Nat
  deriving DecidableEq

namespace ReadFailure

/-- Nothing is there. -/
def missing : ReadFailure :=
  ⟨"No such file or directory", 2⟩

/-- A file stands where a directory should. -/
def notADirectory : ReadFailure :=
  ⟨"Not a directory", 20⟩

/-- A directory stands where a file should. -/
def isADirectory : ReadFailure :=
  ⟨"Is a directory", 21⟩

/-- Links lead to links without end. -/
def tooManyLinks : ReadFailure :=
  ⟨"Too many levels of symbolic links", 40⟩

/-- A name or a path has too many bytes. -/
def nameTooLong : ReadFailure :=
  ⟨"File name too long", 36⟩

/-- The file may not be read. -/
def denied : ReadFailure :=
  ⟨"Permission denied", 13⟩

/-- The failures with numbers of their own. -/
def known : List ReadFailure :=
  [missing, denied, notADirectory, isADirectory, nameTooLong, tooManyLinks]

/-- The failure with a number; any other keeps the reason given. -/
def ofCode (code : Nat) (reason : String) : ReadFailure :=
  (known.find? (·.code == code)).getD ⟨reason, code⟩

/-- The failure with its number. -/
def message (f : ReadFailure) : String :=
  f.reason ++ " (os error " ++ toString f.code ++ ")"

end ReadFailure

/-- A disk. -/
structure Disk (m : Type → Type) where
  /-- What a path leads to; `none` for nothing and for a link that leads nowhere. -/
  kind? : Path → m (Option EntryKind)
  /-- True when the last component of a path is itself a link. -/
  isLink : Path → m Bool
  /-- One path for each place, whatever links lead to it. -/
  canonical? : Path → m (Option Path)
  /-- The names in a directory. -/
  names : Path → m (List Text)
  /-- The bytes of a file. -/
  read : Path → m (Except ReadFailure (List UInt8))
  /-- A bound on the number of directories inside each other. -/
  depth : Nat

end Wardrobe
