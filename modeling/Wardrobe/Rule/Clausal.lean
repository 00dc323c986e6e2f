import Wardrobe.Rule.Basic

/-!
# Clausal rules

Lines of clauses `key=value` between colons, such as
`filterByFactions=Skyrim.esm|0x2816E:filterByGender=female:outfitDefault=MyMod.esp|0x800`. The
values of a clause are alternatives, and all clauses must hold. A section of a rule is a list of
alternatives, so the clauses of one section are multiplied out: `filterByNpcs=A,B` together with
`filterByFactions=F` gives the alternatives `A+F` and `B+F`.

A line may name several outfits; it gives one rule for each of them.
-/

namespace Wardrobe.Clausal

/-- What a clause says, told by its key. -/
inductive Topic where
  | formAlternatives
  | formExclusions
  | textAlternatives
  | textExclusions
  | gender
  | target (gift : Gift)
  | chance
  | other
  deriving DecidableEq

/-- The keys of clauses, in lower case. -/
def topics : List (Text × Topic) := [
  ("filterbynpcs".toList, .formAlternatives),
  ("filterbyfactions".toList, .formAlternatives),
  ("filterbyraces".toList, .formAlternatives),
  ("filterbyoutfits".toList, .formAlternatives),
  ("filterbynpcsexcluded".toList, .formExclusions),
  ("filterbyfactionsexcluded".toList, .formExclusions),
  ("filterbyracesexcluded".toList, .formExclusions),
  ("filterbyoutfitsexcluded".toList, .formExclusions),
  ("filterbykeywords".toList, .textAlternatives),
  ("filterbykeywordsexcluded".toList, .textExclusions),
  ("filterbygender".toList, .gender),
  ("outfitdefault".toList, .target .outfit),
  ("outfitsleep".toList, .target .sleepOutfit),
  ("chance".toList, .chance)]

/-- The topic of a key, without regard to the case of the letters `A` to `Z`. -/
def topicOf (key : Text) : Topic :=
  (topics.lookup (Text.asciiLower key)).getD .other

/-- One clause. -/
structure Clause where
  topic : Topic
  key : Text
  value : Text

/-- Reads a trimmed clause. -/
def Clause.ofText (t : Text) : Except Fault Clause :=
  match Text.cut '=' t with
  | none => .error (.badClause t)
  | some (key, value) => .ok ⟨topicOf (Text.trim key), Text.trim key, Text.trim value⟩

/-- The conditions between the commas of a value. -/
def alternatives (value : Text) : List Condition :=
  (value.splitOn ',').filterMap Condition.ofText?

/-- The conditions of a value, all of them negated. -/
def exclusions (value : Text) : List Condition :=
  (alternatives value).map fun c => { c with negated := true }

/-- The female trait that a gender asks for. -/
def genderOfText (value : Text) : Except Fault Bool :=
  if Text.sameAscii value "female".toList then .ok true
  else if Text.sameAscii value "male".toList then .ok false
  else .error (.badTrait value)

/-- An outfit that a line hands out. -/
structure Target where
  gift : Gift
  key : Text
  form : Text

/-- What the clauses read so far say. -/
structure Draft where
  textClauses : List (List Condition)
  formClauses : List (List Condition)
  textExclusions : List Condition
  formExclusions : List Condition
  traits : TraitDemand
  chance? : Option Nat
  targets : List Target

namespace Draft

/-- The draft of no clauses. -/
def empty : Draft :=
  ⟨[], [], [], [], .nothing, none, []⟩

/-- Reads one clause into a draft. Of two genders or chances the later counts. -/
def add (d : Draft) (c : Clause) : Except Fault Draft :=
  match c.topic with
  | .formAlternatives => .ok { d with formClauses := d.formClauses ++ [alternatives c.value] }
  | .formExclusions => .ok { d with formExclusions := d.formExclusions ++ exclusions c.value }
  | .textAlternatives => .ok { d with textClauses := d.textClauses ++ [alternatives c.value] }
  | .textExclusions => .ok { d with textExclusions := d.textExclusions ++ exclusions c.value }
  | .gender => do
    let female ← genderOfText c.value
    return { d with traits := d.traits.ask .female female }
  | .target gift => .ok { d with targets := d.targets ++ [⟨gift, c.key, c.value⟩] }
  | .chance => do
    let chance ← Chance.ofText c.value
    return { d with chance? := some chance }
  | .other => .ok d

end Draft

/-- Every choice of one condition from each clause, in the order of the first clause first. -/
def product : List (List Condition) → List (List Condition)
  | [] => [[]]
  | clause :: rest => clause.flatMap fun c => (product rest).map (c :: ·)

/-- The section that asks for one condition of each clause. Clauses without conditions ask
nothing. -/
def multiplyOut (clauses : List (List Condition)) (exclusions : List Condition) : Selection :=
  let clauses := clauses.filter (· ≠ [])
  let choices := if clauses = [] then [] else product clauses
  ⟨choices.map fun parts => ⟨parts, []⟩, exclusions⟩

/-- The rules of a complete draft. -/
def Draft.rules (d : Draft) (line : Text) : List Rule :=
  let texts := multiplyOut d.textClauses d.textExclusions
  let forms := multiplyOut d.formClauses d.formExclusions
  d.targets.map fun target => {
    dialect := .clausal
    gift := target.gift
    keyword := target.key
    form := target.form
    texts := texts
    forms := forms
    level := none
    levels := []
    traits := d.traits
    count := none
    chance := d.chance?.getD Chance.always
    source := line }

/-- The clauses of a line, trimmed; blank ones are skipped. -/
def clauseTexts (text : Text) : List Text :=
  ((text.splitOn ':').map Text.trim).filter (· ≠ [])

/-- Reads a line into one rule for each outfit that it names. -/
def rulesOfLine (line : Text) : Except Fault (List Rule) := do
  let text := Text.trim (Text.stripComment line)
  if text = [] then throw .empty
  let draft ← (clauseTexts text).foldlM (fun d t => do d.add (← Clause.ofText t)) Draft.empty
  if draft.targets.isEmpty then throw .noTarget
  return draft.rules line

end Wardrobe.Clausal
