import Wardrobe.Form.Reference
import Wardrobe.Record.Actor
import Wardrobe.Rule.Basic

/-!
# Which actors a rule selects

A rule selects an actor when its texts, forms, level and traits all hold. Text conditions look at
the actor's titles and keywords, form conditions at the records that it mentions. Keywords that an
actor gained along the way count like its own; they are given apart, in lower case.
-/

namespace Wardrobe

namespace Actor

/-- True when a text condition is hit. An exact value must be one of the actor's match keys or
gained keywords; an open one must occur in one of its titles or keywords. Which side of the value
is open makes no difference. -/
def textHit (a : Actor) (gained : List Text) (c : Condition) : Bool :=
  let needle := Text.lower c.value
  if c.isWildcard then
    (a.titles.map Text.lower ++ a.keywordSet ++ gained).any (Text.occursIn needle)
  else a.matchKeys.contains needle || gained.contains needle

/-- True when a mention is the record of an editor id, pinned to a plugin or not. -/
def mentionHasId (name : Text) (plugin? : Option Text) (m : Mention) : Bool :=
  m.editorId.any (Text.sameAscii · name) && plugin?.all (Text.sameAscii m.key.plugin)

/-- True when an actor is or mentions what a reference names. A plugin as a whole names the actors
that come from it. -/
def hasReference (a : Actor) : Reference → Bool
  | .pluginFile name => Text.sameAscii a.sourcePlugin name
  | .formKey key => a.mentions.any (·.key.same key)
  | .formId id => a.mentions.any (·.key.id == id)
  | .editorId name plugin? => a.mentions.any (mentionHasId name plugin?)

/-- True when a form condition is hit. An open value must occur in the editor id of a mention. -/
def formHit (a : Actor) (c : Condition) : Bool :=
  if c.isWildcard then
    let needle := Text.lower c.value
    a.mentions.any fun m => m.editorId.any fun id => Text.occursIn needle (Text.lower id)
  else (Reference.ofText? c.value).any a.hasReference

end Actor

/-- True when an actor has every trait as asked. -/
def TraitDemand.admits (d : TraitDemand) (traits : TraitSet) : Bool :=
  Trait.all.all fun trait => (d.get trait).all (traits.has trait == ·)

/-- True when a rule selects an actor that has gained some keywords. -/
def Rule.selects (r : Rule) (a : Actor) (gained : List Text) : Bool :=
  r.traits.admits a.traits && r.levels.all (LevelTest.admits a.level) &&
    r.texts.holds (a.textHit gained) && r.forms.holds a.formHit

end Wardrobe
