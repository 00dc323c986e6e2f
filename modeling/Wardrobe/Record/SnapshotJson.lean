import Wardrobe.Form.Reference
import Wardrobe.Json.Reader
import Wardrobe.Record.Snapshot
import Wardrobe.Record.TraitText

/-!
# Snapshots as JSON

The document form of a snapshot. A structure is an object of its fields, or an array of them in
the order in which this module lists them. Unknown fields are ignored and repeated ones refused; a
missing field takes its default, if it has one; `null` is accepted only where a value is optional.
-/

namespace Wardrobe.Snapshot

/-! ### Reading -/

/-- The values of a structure's fields: `none` for one that is missing. -/
abbrev Fields := List (Option Json)

/-- Looks up the fields of an object; a name without text and a repeated field are refused. -/
def fieldsOfObject? (names : List Text) (object : List (Option Text × Json)) : Option Fields := do
  let given ← object.mapM fun (name, value) => name.map (·, value)
  names.mapM fun name =>
    match given.filter (·.1 == name) with
    | [] => some none
    | [(_, value)] => some (some value)
    | _ => none

/-- The fields of a structure, given by name or by position. -/
def fields? (names : List Text) : Json → Option Fields
  | .object object => fieldsOfObject? names object
  | .array items =>
    if names.length < items.length then none
    else some (items.map some ++ List.replicate (names.length - items.length) none)
  | _ => none

/-- Reads a field that must be there. -/
def required? {α : Type} (read : Json → Option α) (field : Option Json) : Option α :=
  field.bind read

/-- Reads a field that has a default. -/
def withDefault? {α : Type} (default : α) (read : Json → Option α) : Option Json → Option α
  | none => some default
  | some value => read value

/-- Reads an optional value, which may be missing or `null`. -/
def optional? {α : Type} (read : Json → Option α) : Option Json → Option (Option α)
  | none | some .null => some none
  | some value => (read value).map some

/-- Reads a string. -/
def text? : Json → Option Text
  | .string text => text
  | _ => none

/-- Reads an array. -/
def list? {α : Type} (read : Json → Option α) : Json → Option (List α)
  | .array items => items.mapM read
  | _ => none

/-- The whole number that a text spells, without fraction, exponent or negative zero. -/
def intOfText? : Text → Option Int
  | '-' :: digits =>
    if digits.all Text.isDigit ∧ digits ≠ ['0'] then some (-(Text.natOfDigits digits : Int))
    else none
  | digits => if digits.all Text.isDigit then some (Text.natOfDigits digits : Int) else none

/-- Reads a whole number between two bounds. -/
def int? (low high : Int) : Json → Option Int
  | .number text => (intOfText? text).bind fun n => if low ≤ n ∧ n ≤ high then some n else none
  | _ => none

/-- Reads a natural number up to a bound. -/
def nat? (high : Nat) (value : Json) : Option Nat :=
  (int? 0 high value).map Int.toNat

/-- Reads a form key. -/
def key? (value : Json) : Option FormKey :=
  (text? value).bind FormKey.ofText?

/-- Every category with its name. -/
def categoryNames : List (Category × Text) := [
  (.npc, "npc".toList),
  (.keyword, "keyword".toList),
  (.faction, "faction".toList),
  (.race, "race".toList),
  (.combatClass, "class".toList),
  (.combatStyle, "combat_style".toList),
  (.outfit, "outfit".toList),
  (.perk, "perk".toList),
  (.voiceType, "voice_type".toList),
  (.location, "location".toList),
  (.formList, "form_list".toList),
  (.spell, "spell".toList),
  (.item, "item".toList),
  (.package, "package".toList),
  (.shout, "shout".toList)]

/-- The category of a name. -/
def categoryOfText? (name : Text) : Option Category :=
  (categoryNames.find? (·.2 == name)).map (·.1)

/-- Reads a category: its name, or an object with that name as its only field and `null` in it. -/
def category? : Json → Option Category
  | .string (some name) => categoryOfText? name
  | .object [(some name, .null)] => categoryOfText? name
  | _ => none

/-- The fields of a record. -/
def recordFields : List Text :=
  ["kind".toList, "key".toList, "editor_id".toList, "name".toList]

/-- Reads a record. -/
def record? (value : Json) : Option Record := do
  let [category, key, editorId, name] ← fields? recordFields value | none
  let category ← required? category? category
  let key ← required? key? key
  let editorId ← optional? text? editorId
  let name ← optional? text? name
  return ⟨category, key, editorId, name⟩

/-- The fields of a mention. -/
def mentionFields : List Text :=
  ["key".toList, "editor_id".toList]

/-- Reads a mention. -/
def mention? (value : Json) : Option Mention := do
  let [key, editorId] ← fields? mentionFields value | none
  let key ← required? key? key
  let editorId ← optional? text? editorId
  return ⟨key, editorId⟩

/-- The fields of a membership. -/
def membershipFields : List Text :=
  ["key".toList, "editor_id".toList, "rank".toList]

/-- Reads a membership, whose rank is one signed byte. -/
def membership? (value : Json) : Option Membership := do
  let [key, editorId, rank] ← fields? membershipFields value | none
  let key ← required? key? key
  let editorId ← optional? text? editorId
  let rank ← withDefault? 0 (int? (-128) 127) rank
  return ⟨key, editorId, rank⟩

/-- Reads a trait set. -/
def traits? (value : Json) : Option TraitSet :=
  (text? value).bind TraitSet.ofText?

/-- The fields of an actor. -/
def actorFields : List Text :=
  ["key".toList, "editor_id".toList, "name".toList, "source".toList, "race".toList,
    "class".toList, "combat_style".toList, "voice".toList, "template".toList,
    "default_outfit".toList, "factions".toList, "keywords".toList, "race_keywords".toList,
    "traits".toList, "level".toList, "skills".toList]

/-- Reads an actor. -/
def actor? (value : Json) : Option Actor := do
  let [key, editorId, name, source, race, combatClass, combatStyle, voice, template, defaultOutfit,
    factions, keywords, raceKeywords, traits, level, skills] ← fields? actorFields value | none
  let key ← required? key? key
  let editorId ← required? text? editorId
  let name ← optional? text? name
  let source ← optional? text? source
  let race ← optional? mention? race
  let combatClass ← optional? mention? combatClass
  let combatStyle ← optional? mention? combatStyle
  let voice ← optional? mention? voice
  let template ← optional? mention? template
  let defaultOutfit ← optional? mention? defaultOutfit
  let factions ← withDefault? [] (list? membership?) factions
  let keywords ← withDefault? [] (list? text?) keywords
  let raceKeywords ← withDefault? [] (list? text?) raceKeywords
  let traits ← withDefault? ⟨0⟩ traits? traits
  let level ← withDefault? 0 (nat? 65535) level
  let skills ← withDefault? [] (list? (nat? 255)) skills
  return {
    key, editorId, name, source, race, combatClass, combatStyle, voice, template, defaultOutfit,
    factions, keywords, raceKeywords, traits, level, skills }

/-- The fields of a snapshot. -/
def snapshotFields : List Text :=
  ["records".toList, "characters".toList]

/-- Reads a snapshot from a JSON value. -/
def ofJson? (value : Json) : Option Snapshot := do
  let [records, actors] ← fields? snapshotFields value | none
  let records ← withDefault? [] (list? record?) records
  let actors ← withDefault? [] (list? actor?) actors
  return ⟨records, actors⟩

/-- Reads a snapshot from a document. -/
def ofText? (t : Text) : Option Snapshot :=
  (Json.ofText? t).bind ofJson?

/-! ### Writing -/

/-- The name of a category. -/
def categoryToText (category : Category) : Text :=
  ((categoryNames.find? (·.1 == category)).map (·.2)).getD []

/-- Writes a form key. -/
def keyToJson (key : FormKey) : Json :=
  .ofText key.toText

/-- Writes a record. -/
def recordToJson (r : Record) : Json :=
  .ofFields [
    ("kind", .ofText (categoryToText r.category)),
    ("key", keyToJson r.key),
    ("editor_id", .ofOption .ofText r.editorId),
    ("name", .ofOption .ofText r.name)]

/-- Writes a mention. -/
def mentionToJson (m : Mention) : Json :=
  .ofFields [("key", keyToJson m.key), ("editor_id", .ofOption .ofText m.editorId)]

/-- Writes a membership. -/
def membershipToJson (m : Membership) : Json :=
  .ofFields [
    ("key", keyToJson m.key),
    ("editor_id", .ofOption .ofText m.editorId),
    ("rank", .ofInt m.rank)]

/-- Writes an actor. -/
def actorToJson (a : Actor) : Json :=
  .ofFields [
    ("key", keyToJson a.key),
    ("editor_id", .ofText a.editorId),
    ("name", .ofOption .ofText a.name),
    ("source", .ofOption .ofText a.source),
    ("race", .ofOption mentionToJson a.race),
    ("class", .ofOption mentionToJson a.combatClass),
    ("combat_style", .ofOption mentionToJson a.combatStyle),
    ("voice", .ofOption mentionToJson a.voice),
    ("template", .ofOption mentionToJson a.template),
    ("default_outfit", .ofOption mentionToJson a.defaultOutfit),
    ("factions", .ofList membershipToJson a.factions),
    ("keywords", .ofList .ofText a.keywords),
    ("race_keywords", .ofList .ofText a.raceKeywords),
    ("traits", .ofText a.traits.toText),
    ("level", .ofNat a.level),
    ("skills", .ofList .ofNat a.skills)]

/-- Writes a snapshot, every field of it. -/
def toJson (s : Snapshot) : Json :=
  .ofFields [
    ("records", .ofList recordToJson s.records),
    ("characters", .ofList actorToJson s.actors)]

end Wardrobe.Snapshot
