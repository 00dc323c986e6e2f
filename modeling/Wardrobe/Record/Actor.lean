import Wardrobe.Form.Key
import Wardrobe.Rule.Trait
import Wardrobe.Text.Casing

/-!
# Actors

The people and creatures to whom rules hand things out, each with the records it refers to.
-/

namespace Wardrobe

/-- A record that an actor refers to. -/
structure Mention where
  key : FormKey
  editorId : Option Text
  deriving DecidableEq

/-- An actor's place in a faction. -/
structure Membership where
  key : FormKey
  editorId : Option Text
  rank : Int
  deriving DecidableEq

/-- Traits as recorded, one bit each. -/
structure TraitSet where
  bits : UInt8
  deriving DecidableEq

/-- True when a trait is recorded. -/
def TraitSet.has (s : TraitSet) (trait : Trait) : Bool :=
  s.bits &&& trait.mask == trait.mask

/-- An actor. -/
structure Actor where
  key : FormKey
  editorId : Text
  name : Option Text
  /-- The plugin of the winning version, when it is not the plugin of the key. -/
  source : Option Text
  race : Option Mention
  combatClass : Option Mention
  combatStyle : Option Mention
  voice : Option Mention
  template : Option Mention
  defaultOutfit : Option Mention
  factions : List Membership
  keywords : List Text
  /-- Keywords that come with the race. -/
  raceKeywords : List Text
  traits : TraitSet
  level : Nat
  skills : List Nat
  deriving DecidableEq

namespace Actor

/-- An actor of which only the key and editor id are known; it has level one. -/
def ofKey (key : FormKey) (editorId : Text) : Actor where
  key := key
  editorId := editorId
  name := none
  source := none
  race := none
  combatClass := none
  combatStyle := none
  voice := none
  template := none
  defaultOutfit := none
  factions := []
  keywords := []
  raceKeywords := []
  traits := ⟨0⟩
  level := 1
  skills := []

/-- The plugin that decides what the actor is. -/
def sourcePlugin (a : Actor) : Text :=
  a.source.getD a.key.plugin

/-- Own and racial keywords, trimmed, in lower case, each once and in order. -/
def keywordSet (a : Actor) : List Text :=
  Text.sortedSet ((a.keywords ++ a.raceKeywords).map fun k => Text.lower (Text.trim k))

/-- The editor id of the actor's template. -/
def templateId (a : Actor) : Option Text :=
  a.template.bind (·.editorId)

/-- What the actor is called: its editor id, its name and the editor id of its template. -/
def titles (a : Actor) : List Text :=
  a.editorId :: (a.name.toList ++ a.templateId.toList)

/-- Every text by which a rule can name the actor exactly: keywords and titles in lower case. -/
def matchKeys (a : Actor) : List Text :=
  Text.sortedSet (a.keywordSet ++ a.titles.map Text.lower)

/-- The records that a form section tests, in order: the actor itself, race, class, factions,
combat style, voice, outfit and template. -/
def mentions (a : Actor) : List Mention :=
  ⟨a.key, some a.editorId⟩ ::
    (a.race.toList ++ a.combatClass.toList ++ a.factions.map (fun f => ⟨f.key, f.editorId⟩) ++
      a.combatStyle.toList ++ a.voice.toList ++ a.defaultOutfit.toList ++ a.template.toList)

end Actor

end Wardrobe
