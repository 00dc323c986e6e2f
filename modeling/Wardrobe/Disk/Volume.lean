import Wardrobe.Disk.Basic

/-!
# Trees of files in memory

A disk without a machine. Every entry of the tree has a number, and knows its name and the directory
that holds it. Links are kept as written; a path is walked one step at a time, and a link on the way
puts its own steps in front of those that are left.
-/

namespace Wardrobe

/-- What an entry of a volume is. -/
inductive Node where
  /-- A directory with the numbers of the entries in it, the latest first. -/
  | directory (children : List Nat)
  | file (bytes : List UInt8)
  | link (target : Text)

/-- An entry of a volume. -/
structure Entry where
  /-- The number of the directory that holds the entry; the top holds itself. -/
  parent : Nat
  name : Text
  node : Node

/-- Entries under their numbers. Number zero is the top. -/
structure Volume where
  entries : Array Entry

namespace Volume

/-- The volume with nothing but the top. -/
def empty : Volume :=
  ⟨#[⟨0, [], .directory []⟩]⟩

/-- What the entry with a number is. -/
def node? (v : Volume) (id : Nat) : Option Node :=
  v.entries[id]?.map (·.node)

/-- The name of the entry with a number. -/
def nameOf (v : Volume) (id : Nat) : Text :=
  (v.entries[id]?.map (·.name)).getD []

/-- The number of the directory that holds an entry. -/
def parentOf (v : Volume) (id : Nat) : Nat :=
  (v.entries[id]?.map (·.parent)).getD 0

/-! ### Walking -/

/-- One step of a walk. -/
inductive Step where
  /-- No step, except that the entry reached so far must be a directory. -/
  | here
  | up
  | name (name : Text)

/-- The step that a piece between slashes asks for. -/
def stepOf (piece : Text) : Step :=
  if piece = [] ∨ piece = ['.'] then .here
  else if piece = ['.', '.'] then .up
  else .name piece

/-- The steps of a path. A slash at the end asks for a directory. -/
def stepsOf (t : Text) : List Step :=
  (t.splitOn '/').map stepOf

/-- Where a path begins that is seen from a directory. -/
def startOf (directory : Nat) (t : Text) : Nat :=
  if t.head? = some '/' then 0 else directory

/-- The most bytes of a name. -/
def maxNameBytes : Nat := 255

/-- The most bytes of a path. -/
def maxPathBytes : Nat := 4095

/-- The most links on one path. -/
def maxLinks : Nat := 40

/-- Where a walk stops. -/
inductive Stop where
  | entry (id : Nat)
  /-- At a last name that its directory does not hold. -/
  | absent (directory : Nat) (name : Text)
  /-- At a link in a directory, with steps left behind it. -/
  | link (directory : Nat) (target : Text) (rest : List Step)
  | failed (failure : ReadFailure)

/-- Takes steps from an entry up to the first link. A link at the very end counts as an entry unless
it is to be followed. -/
def advance (v : Volume) (follow : Bool) (id : Nat) : List Step → Stop
  | [] => .entry id
  | step :: rest =>
    match v.node? id, step with
    | some (.directory _), .here => advance v follow id rest
    | some (.directory _), .up => advance v follow (v.parentOf id) rest
    | some (.directory children), .name name =>
      if maxNameBytes < Text.byteLength name then .failed .nameTooLong
      else match children.find? fun child => v.nameOf child == name with
        | none => if rest.isEmpty then .absent id name else .failed .missing
        | some child =>
          match v.node? child with
          | some (.link target) =>
            if rest.isEmpty && !follow then .entry child else .link id target rest
          | _ => advance v follow child rest
    | _, _ => .failed .notADirectory

/-- Takes steps from an entry through at most `links` links. -/
def walk (v : Volume) (follow : Bool) : Nat → Nat → List Step → Stop
  | links, id, steps =>
    match v.advance follow id steps, links with
    | .link _ _ _, 0 => .failed .tooManyLinks
    | .link directory target rest, links + 1 =>
      walk v follow links (startOf directory target) (stepsOf target ++ rest)
    | stop, _ => stop

/-- The number of the entry to which a path leads; a link at its end is followed if asked for. -/
def locate (v : Volume) (follow : Bool) (p : Path) : Except ReadFailure Nat :=
  if p.text = [] then .error .missing
  else if maxPathBytes < Text.byteLength p.text then .error .nameTooLong
  else match v.walk follow maxLinks (startOf 0 p.text) (stepsOf p.text) with
    | .entry id => .ok id
    | .failed failure => .error failure
    | .absent _ _ | .link _ _ _ => .error .missing

/-- The entry to which a path leads. -/
def entry? (v : Volume) (follow : Bool) (p : Path) : Option Node :=
  (v.locate follow p).toOption.bind v.node?

/-- The path of an entry in front of some text; the number bounds the directories above it. -/
def pathOf (v : Volume) : Nat → Nat → Text → Path
  | 0, _, after => ⟨after⟩
  | depth + 1, id, after =>
    if id = 0 then ⟨if after = [] then ['/'] else after⟩
    else pathOf v depth (v.parentOf id) ('/' :: (v.nameOf id ++ after))

/-- The names of the entries in a directory. -/
def namesIn (v : Volume) (id : Nat) : List Text :=
  match v.node? id with
  | some (.directory children) => (children.map v.nameOf).reverse
  | _ => []

/-- The bytes of the file to which a path leads. -/
def read (v : Volume) (p : Path) : Except ReadFailure (List UInt8) := do
  match v.node? (← v.locate true p) with
  | some (.file bytes) => return bytes
  | _ => throw .isADirectory

/-- The volume as a disk. -/
def disk (v : Volume) : Disk Id where
  kind? p := match v.entry? true p with
    | some (.file _) => some .file
    | some (.directory _) => some .directory
    | _ => none
  isLink p := match v.entry? false p with
    | some (.link _) => true
    | _ => false
  canonical? p := (v.locate true p).toOption.map fun id => v.pathOf (v.entries.size + 1) id []
  names p := (v.locate true p).toOption.elim [] v.namesIn
  read p := v.read p
  depth := (v.entries.size + 1) * (v.entries.size + 1)

/-! ### Building -/

/-- A directory with one more entry in it. -/
def Node.addChild (child : Nat) : Node → Node
  | .directory children => .directory (child :: children)
  | node => node

/-- Puts a new entry into a directory. -/
def add (v : Volume) (directory : Nat) (name : Text) (node : Node) : Volume :=
  let child := v.entries.size
  let entries := v.entries.modify directory fun e => { e with node := Node.addChild child e.node }
  ⟨entries.push ⟨directory, name, node⟩⟩

/-- Takes one step from a directory, making a directory if nothing is there. -/
def enter (v : Volume) (id : Nat) (step : Step) : Volume × Nat :=
  match v.walk true maxLinks id [step] with
  | .entry id => (v, id)
  | .absent directory name => (v.add directory name (.directory []), v.entries.size)
  | .link _ _ _ | .failed _ => (v, id)

/-- Makes the directories on a walk from a directory. -/
def makeDirectories (v : Volume) (id : Nat) (steps : List Step) : Volume × Nat :=
  steps.foldl (fun (v, id) step => v.enter id step) (v, id)

/-- Gives an entry other contents. -/
def write (v : Volume) (id : Nat) (node : Node) : Volume :=
  ⟨v.entries.modify id fun e => { e with node := node }⟩

/-- Puts an entry under a path as seen from a directory, with the directories above it. A file is
written through a link, to where the link leads; any other entry that is there stays. -/
def put (v : Volume) (directory : Nat) (t : Text) (node : Node) : Volume :=
  let steps := stepsOf t
  match node, steps.getLast? with
  | .file _, some (.name name) =>
    let (v, id) := v.makeDirectories directory steps.dropLast
    match v.walk true maxLinks id [.name name] with
    | .absent directory name => v.add directory name node
    | .entry id =>
      match v.node? id with
      | some (.file _) => v.write id node
      | _ => v
    | .link _ _ _ | .failed _ => v
  | .link _, some (.name name) =>
    let (v, id) := v.makeDirectories directory steps.dropLast
    match v.walk false maxLinks id [.name name] with
    | .absent directory name => v.add directory name node
    | _ => v
  | _, _ => (v.makeDirectories directory steps).1

end Volume

end Wardrobe
