import Wardrobe.Form.Reference
import Wardrobe.Record.Catalog
import Wardrobe.Rule.Basic

/-!
# Resolving the texts of a rule

Every text of a rule is looked up in a catalog: the form that it hands out, and each condition of
its two sections. A text that names nothing there is kept as written.
-/

namespace Wardrobe

/-- What a text of a rule stands for. -/
inductive Resolution where
  | record (record : Record)
  | plugin (name : Text)
  /-- A keyword that only exists because some rule hands it out. -/
  | virtualKeyword (name : Text)
  /-- An open condition, which is matched but never looked up. -/
  | pattern (text : Text)
  /-- A text that names nothing. -/
  | unresolved (text : Text)
  deriving DecidableEq

/-- True for everything but a text that names nothing. -/
def Resolution.isResolved : Resolution → Bool
  | unresolved _ => false
  | _ => true

/-- The keywords that rules hand out, in lower case, each once and in order. -/
structure VirtualKeywords where
  names : List Text

namespace VirtualKeywords

/-- The keywords that some rules hand out. -/
def ofRules (rules : List Rule) : VirtualKeywords :=
  ⟨Text.sortedSet
    ((rules.filter (·.gift == .keyword)).map fun r => Text.lower (Text.trim r.form))⟩

/-- True when some rule hands out a keyword; blanks around it and letter case do not count. -/
def contains (v : VirtualKeywords) (name : Text) : Bool :=
  v.names.contains (Text.lower (Text.trim name))

end VirtualKeywords

/-- A condition with what it stands for. -/
structure ResolvedCondition where
  condition : Condition
  resolution : Resolution
  deriving DecidableEq

/-- A rule with what its texts stand for; conditions are listed with the exclusions first. -/
structure ResolvedRule where
  target : Resolution
  texts : List ResolvedCondition
  forms : List ResolvedCondition
  deriving DecidableEq

namespace ResolvedRule

/-- The target, then the text conditions, then the form conditions. -/
def resolutions (r : ResolvedRule) : List Resolution :=
  r.target :: (r.texts ++ r.forms).map (·.resolution)

/-- The texts that name nothing. -/
def residue (r : ResolvedRule) : List Text :=
  r.resolutions.filterMap fun
    | .unresolved text => some text
    | _ => none

end ResolvedRule

namespace Resolver

/-- The categories in which an editor id of a form section is looked up; the first hit counts. -/
def idCategories : List Category :=
  [.faction, .race, .combatClass, .combatStyle, .outfit, .perk, .voiceType, .location, .formList]

/-- The categories in which a key of a form section is looked up; a key says nothing about
them. -/
def keyCategories : List Category :=
  [.npc, .faction, .race, .combatClass, .combatStyle, .outfit, .perk, .voiceType, .location,
    .formList, .keyword]

/-- The category of the records that a gift consists of. -/
def categoryOf : Gift → Category
  | .spell | .levSpell => .spell
  | .perk => .perk
  | .item | .deathItem | .skin => .item
  | .shout => .shout
  | .package => .package
  | .outfit | .sleepOutfit => .outfit
  | .keyword => .keyword
  | .faction => .faction

/-- The first record of a category with an id, in whatever plugin. -/
def withId? (c : Catalog) (category : Category) (id : FormId) : Option Record :=
  (c.ofCategory category).find? (·.key.id == id)

/-- The record of a category with an editor id, if it comes from the plugin asked for. -/
def pinned? (c : Catalog) (category : Category) (name : Text) (plugin? : Option Text) :
    Option Record :=
  (c.withEditorId? category name).filter fun r => plugin?.all (Text.sameAscii r.key.plugin)

/-- The first npc with a name, up to the case of the letters `A` to `Z`. -/
def npcNamed? (c : Catalog) (name : Text) : Option Record :=
  (c.ofCategory .npc).find? fun r => r.name.any (Text.sameAscii · name)

/-- The record that an exact text condition names: an npc by editor id, else an npc by name, else a
keyword. -/
def textRecord? (c : Catalog) (value : Text) : Option Record :=
  ((c.withEditorId? .npc value).or (npcNamed? c value)).or (c.withEditorId? .keyword value)

/-- What a text condition stands for. -/
def text (c : Catalog) (v : VirtualKeywords) (condition : Condition) : Resolution :=
  let value := condition.value
  if condition.isWildcard then .pattern value
  else match textRecord? c value with
    | some r => .record r
    | none => if v.contains value then .virtualKeyword value else .unresolved value

/-- The record that a reference of a form section names. -/
def formRecord? (c : Catalog) : Reference → Option Record
  | .pluginFile _ => none
  | .formKey key => keyCategories.findSome? fun category => c.get? category key
  | .formId id => keyCategories.findSome? fun category => withId? c category id
  | .editorId name plugin? => idCategories.findSome? fun category => pinned? c category name plugin?

/-- What a form condition stands for. -/
def form (c : Catalog) (condition : Condition) : Resolution :=
  let value := condition.value
  if condition.isWildcard then .pattern value
  else match Reference.ofText? value with
    | some (.pluginFile name) => .plugin name
    | some reference => ((formRecord? c reference).map .record).getD (.unresolved value)
    | none => .unresolved value

/-- The record of a category that a reference names. -/
def targetRecord? (c : Catalog) (category : Category) : Reference → Option Record
  | .pluginFile _ => none
  | .formKey key => c.get? category key
  | .formId id => withId? c category id
  | .editorId name plugin? => pinned? c category name plugin?

/-- What the form of a rule stands for. -/
def target (c : Catalog) (v : VirtualKeywords) (r : Rule) : Resolution :=
  match (Reference.ofText? r.form).bind (targetRecord? c (categoryOf r.gift)) with
  | some record => .record record
  | none =>
    if r.gift = .keyword ∧ v.contains r.form then .virtualKeyword r.form else .unresolved r.form

/-- Looks up every text of a rule. -/
def rule (c : Catalog) (v : VirtualKeywords) (r : Rule) : ResolvedRule where
  target := target c v r
  texts := r.texts.conditions.map fun condition => ⟨condition, text c v condition⟩
  forms := r.forms.conditions.map fun condition => ⟨condition, form c condition⟩

end Resolver

end Wardrobe
