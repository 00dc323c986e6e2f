import Wardrobe.Form.Key
import Wardrobe.Text.Casing

/-!
# Catalogs of records

A catalog holds the winning version of every record: inserting a record under a category and key
that are taken replaces the earlier one in its place. Beside the records it keeps two indexes: from
keys to the record under a key, and from editor ids, in lower case, to the record that took the id
last.
-/

namespace Wardrobe

/-- The categories of records. -/
inductive Category where
  | npc
  | keyword
  | faction
  | race
  | combatClass
  | combatStyle
  | outfit
  | perk
  | voiceType
  | location
  | formList
  | spell
  | item
  | package
  | shout
  deriving DecidableEq

/-- A record, as far as rules can name it. -/
structure Record where
  category : Category
  key : FormKey
  editorId : Option Text
  name : Option Text
  deriving DecidableEq

/-- The record's editor id in lower case. -/
def Record.idKey (r : Record) : Option Text :=
  r.editorId.map Text.lower

/-- One entry of the index of keys. -/
structure KeyEntry where
  category : Category
  /-- The key as the first record under it spells it. -/
  key : FormKey
  /-- The position of the record under the key. -/
  position : Nat
  deriving DecidableEq

/-- One entry of the index of editor ids. -/
structure IdEntry where
  category : Category
  /-- An editor id in lower case. -/
  id : Text
  /-- The position of the record that took the id last. -/
  position : Nat
  deriving DecidableEq

/-- Records in the order in which their keys first came, with an index of keys and one of editor
ids. -/
structure Catalog where
  records : List Record
  keys : List KeyEntry
  ids : List IdEntry

namespace Catalog

/-- The catalog without records. -/
def empty : Catalog :=
  ⟨[], [], []⟩

/-- The number of records. -/
def size (c : Catalog) : Nat :=
  c.records.length

/-- The position of the record under a category and key. -/
def position? (c : Catalog) (category : Category) (key : FormKey) : Option Nat :=
  (c.keys.find? fun e => e.category == category && e.key.same key).map (·.position)

/-- The record under a category and key. -/
def get? (c : Catalog) (category : Category) (key : FormKey) : Option Record :=
  (c.position? category key).bind (c.records[·]?)

/-- The position that an index holds for an editor id in lower case. -/
def idPosition? (ids : List IdEntry) (category : Category) (id : Text) : Option Nat :=
  (ids.find? fun e => e.category == category && e.id == id).map (·.position)

/-- The record of a category that took an editor id last; letter case does not count. -/
def withEditorId? (c : Catalog) (category : Category) (id : Text) : Option Record :=
  (idPosition? c.ids category (Text.lower id)).bind (c.records[·]?)

/-- The records of a category, in the order in which their keys first came. -/
def ofCategory (c : Catalog) (category : Category) : List Record :=
  c.records.filter (·.category == category)

/-- Takes an editor id out of an index. -/
def dropId (ids : List IdEntry) (category : Category) (id : Text) : List IdEntry :=
  ids.filter fun e => !(e.category == category && e.id == id)

/-- Gives an editor id to the record at a position. -/
def takeId (ids : List IdEntry) (category : Category) (id : Option Text) (position : Nat) :
    List IdEntry :=
  match id with
  | some id => ⟨category, id, position⟩ :: dropId ids category id
  | none => ids

/-- Takes from the record at a position its editor id. An id that another record has taken since
stays with that record. -/
def releaseId (ids : List IdEntry) (category : Category) (id : Option Text) (position : Nat) :
    List IdEntry :=
  match id with
  | some id => if idPosition? ids category id = some position then dropId ids category id else ids
  | none => ids

/-- Puts in a record. One with the same category and key gives way to it, place and editor id. -/
def insert (c : Catalog) (r : Record) : Catalog :=
  match c.position? r.category r.key with
  | some i =>
    let released := releaseId c.ids r.category ((c.records[i]?).bind Record.idKey) i
    { c with records := c.records.set i r, ids := takeId released r.category r.idKey i }
  | none => {
      records := c.records ++ [r]
      keys := ⟨r.category, r.key, c.size⟩ :: c.keys
      ids := takeId c.ids r.category r.idKey c.size }

/-- The catalog of a list of records, put in one after the other. -/
def ofList (records : List Record) : Catalog :=
  records.foldl insert empty

end Catalog

end Wardrobe
