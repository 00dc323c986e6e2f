import Wardrobe.Record.Actor
import Wardrobe.Record.Catalog

/-!
# Snapshots

Everything that a loader knows: a list of records and a list of actors. Every actor is a record
too, so that rules can name it: an actor without a listed record gets one.
-/

namespace Wardrobe

/-- Records and actors as a loader delivers them. -/
structure Snapshot where
  records : List Record
  actors : List Actor

/-- The record that stands for an actor. -/
def Actor.toRecord (a : Actor) : Record :=
  ⟨.npc, a.key, some a.editorId, a.name⟩

namespace Snapshot

/-- The snapshot of nothing. -/
def empty : Snapshot :=
  ⟨[], []⟩

/-- Registers an actor, unless a record holds its key. -/
def register (c : Catalog) (a : Actor) : Catalog :=
  if (c.get? .npc a.key).isSome then c else c.insert a.toRecord

/-- The catalog of the listed records and of the actors that have none. -/
def catalog (s : Snapshot) : Catalog :=
  s.actors.foldl register (.ofList s.records)

/-- What rules work on: the catalog, and the actors in their order. -/
def parts (s : Snapshot) : Catalog × List Actor :=
  (s.catalog, s.actors)

end Snapshot

end Wardrobe
