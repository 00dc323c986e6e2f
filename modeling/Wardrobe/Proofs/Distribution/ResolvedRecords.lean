import Mathlib
import Wardrobe.Proofs.Distribution.FormResolution
import Wardrobe.Sheet.Basic

/-!
# What the texts of a rule stand for

Three relations say what a text of a rule stands for, in the words of the catalog: `TextStandsFor`
for a text condition, `FormStandsFor` for a form condition and `TargetStandsFor` for the form that
is handed out.  A record is always one that the catalog holds and that the text names, and a way to
name it counts only when the ways before it have led to nothing.  A text that leads nowhere is kept
as written.  Which categories count, and in which order, is laid down by two tables: one for gifts
(`Gift.ConsistsOf`) and one for the references of form conditions (`Reference.TriedIn`).

The resolver keeps to these relations (`rule_standsFor`): each lookup is the search for a first
record (`targetRecord?_eq_some_iff`, `textRecord?_eq_some_iff`).
-/

namespace Wardrobe

/-- An element is the first one in a list that has a property. -/
def IsFirst {α : Type*} (p : α → Prop) (l : List α) (a : α) : Prop :=
  p a ∧ ∃ before after, l = before ++ a :: after ∧ ∀ b ∈ before, ¬ p b

/-- A rule hands out a keyword; blanks around it and letter case do not count. -/
def Rule.HandsOut (r : Rule) (t : Text) : Prop :=
  r.gift = .keyword ∧ Text.lower (Text.trim r.form) = Text.lower (Text.trim t)

/-- A record has a name, up to the case of the letters `A` to `Z`. -/
def Record.IsNamed (r : Record) (t : Text) : Prop :=
  r.name.any (Text.sameAscii · t) = true

/-- The category of the records that a gift consists of. -/
inductive Gift.ConsistsOf : Gift → Category → Prop
  | spell : ConsistsOf .spell .spell
  | levSpell : ConsistsOf .levSpell .spell
  | perk : ConsistsOf .perk .perk
  | item : ConsistsOf .item .item
  | deathItem : ConsistsOf .deathItem .item
  | skin : ConsistsOf .skin .item
  | shout : ConsistsOf .shout .shout
  | package : ConsistsOf .package .package
  | outfit : ConsistsOf .outfit .outfit
  | sleepOutfit : ConsistsOf .sleepOutfit .outfit
  | keyword : ConsistsOf .keyword .keyword
  | faction : ConsistsOf .faction .faction

/-- The categories in which the reference of a form condition is looked up, in order.  An editor id
is tried neither among the npcs nor among the keywords; a plugin is not looked up at all. -/
inductive Reference.TriedIn : Reference → List Category → Prop
  | formKey (key : FormKey) : TriedIn (.formKey key) [.npc, .faction, .race, .combatClass,
      .combatStyle, .outfit, .perk, .voiceType, .location, .formList, .keyword]
  | formId (id : FormId) : TriedIn (.formId id) [.npc, .faction, .race, .combatClass,
      .combatStyle, .outfit, .perk, .voiceType, .location, .formList, .keyword]
  | editorId (name : Text) (plugin? : Option Text) : TriedIn (.editorId name plugin?) [.faction,
      .race, .combatClass, .combatStyle, .outfit, .perk, .voiceType, .location, .formList]

namespace Resolver

/-- A text names a record. -/
inductive TextNames (c : Catalog) (value : Text) : Record → Prop
  /-- An npc that is found by the text as its editor id. -/
  | npcById {r : Record} (found : c.withEditorId? .npc value = some r)
      (held : r ∈ c.ofCategory .npc) (id : r.idKey = some (Text.lower value)) : TextNames c value r
  /-- If there is none, the first npc with that name. -/
  | npcByName {r : Record} (noId : c.withEditorId? .npc value = none)
      (first : IsFirst (·.IsNamed value) (c.ofCategory .npc) r) : TextNames c value r
  /-- If there is no npc at all, a keyword that is found by the text as its editor id. -/
  | keywordById {r : Record} (noId : c.withEditorId? .npc value = none)
      (noName : ∀ s ∈ c.ofCategory .npc, ¬ s.IsNamed value)
      (found : c.withEditorId? .keyword value = some r) (held : r ∈ c.ofCategory .keyword)
      (id : r.idKey = some (Text.lower value)) : TextNames c value r

/-- A reference finds a record in a category: the first of the candidates that it denotes. -/
structure FoundIn (c : Catalog) (category : Category) (ref : Reference) (r : Record) : Prop where
  held : r ∈ c.ofCategory category
  first : IsFirst (fun s => ref.Denotes s) (candidates c category ref) r

/-- A reference finds no record in a category. -/
def MissedIn (c : Catalog) (category : Category) (ref : Reference) : Prop :=
  ∀ s ∈ candidates c category ref, ¬ ref.Denotes s

/-- What a text condition stands for. -/
inductive TextStandsFor (c : Catalog) (rules : List Rule) (condition : Condition) :
    Resolution → Prop
  | pattern (wild : condition.isWildcard = true) :
      TextStandsFor c rules condition (.pattern condition.value)
  | record {r : Record} (closed : condition.isWildcard = false)
      (names : TextNames c condition.value r) : TextStandsFor c rules condition (.record r)
  /-- A keyword that only exists because some rule hands it out. -/
  | virtualKeyword {k : Rule} (closed : condition.isWildcard = false)
      (noRecord : ∀ r, ¬ TextNames c condition.value r) (rule : k ∈ rules)
      (handsOut : k.HandsOut condition.value) :
      TextStandsFor c rules condition (.virtualKeyword condition.value)
  | unresolved (closed : condition.isWildcard = false)
      (noRecord : ∀ r, ¬ TextNames c condition.value r)
      (noRule : ∀ k ∈ rules, ¬ k.HandsOut condition.value) :
      TextStandsFor c rules condition (.unresolved condition.value)

/-- What a form condition stands for. -/
inductive FormStandsFor (c : Catalog) (condition : Condition) : Resolution → Prop
  | pattern (wild : condition.isWildcard = true) :
      FormStandsFor c condition (.pattern condition.value)
  | plugin {name : Text} (closed : condition.isWildcard = false)
      (value : Reference.ofText? condition.value = some (.pluginFile name)) :
      FormStandsFor c condition (.plugin name)
  /-- A record in the first category in which the reference finds one. -/
  | record {ref : Reference} {r : Record} {category : Category} {before after : List Category}
      (closed : condition.isWildcard = false)
      (value : Reference.ofText? condition.value = some ref)
      (order : ref.TriedIn (before ++ category :: after))
      (missed : ∀ earlier ∈ before, MissedIn c earlier ref) (found : FoundIn c category ref r) :
      FormStandsFor c condition (.record r)
  | unresolved (closed : condition.isWildcard = false)
      (noPlugin : ∀ name, Reference.ofText? condition.value ≠ some (.pluginFile name))
      (missed : ∀ ref categories, Reference.ofText? condition.value = some ref →
        ref.TriedIn categories → ∀ category ∈ categories, MissedIn c category ref) :
      FormStandsFor c condition (.unresolved condition.value)

/-- What the form that a rule hands out stands for. -/
inductive TargetStandsFor (c : Catalog) (rules : List Rule) (r : Rule) : Resolution → Prop
  /-- A record of the category that belongs to the gift. -/
  | record {ref : Reference} {category : Category} {s : Record}
      (value : Reference.ofText? r.form = some ref) (gift : r.gift.ConsistsOf category)
      (found : FoundIn c category ref s) : TargetStandsFor c rules r (.record s)
  | virtualKeyword {k : Rule}
      (missed : ∀ ref category, Reference.ofText? r.form = some ref →
        r.gift.ConsistsOf category → MissedIn c category ref)
      (gift : r.gift = .keyword) (rule : k ∈ rules) (handsOut : k.HandsOut r.form) :
      TargetStandsFor c rules r (.virtualKeyword r.form)
  | unresolved
      (missed : ∀ ref category, Reference.ofText? r.form = some ref →
        r.gift.ConsistsOf category → MissedIn c category ref)
      (noRule : r.gift = .keyword → ∀ k ∈ rules, ¬ k.HandsOut r.form) :
      TargetStandsFor c rules r (.unresolved r.form)

/-- What it means that the texts of a rule are resolved. -/
structure RuleStandsFor (c : Catalog) (rules : List Rule) (r : Rule) (resolved : ResolvedRule) :
    Prop where
  target : TargetStandsFor c rules r resolved.target
  /-- Every text condition is resolved, in order. -/
  texts : List.Forall₂ (fun condition found => found.condition = condition ∧
    TextStandsFor c rules condition found.resolution) r.texts.conditions resolved.texts
  /-- Every form condition is resolved, in order. -/
  forms : List.Forall₂ (fun condition found => found.condition = condition ∧
    FormStandsFor c condition found.resolution) r.forms.conditions resolved.forms
  /-- Open conditions stand for themselves, whatever the catalog holds. -/
  pattern : ∀ found ∈ resolved.texts ++ resolved.forms, found.condition.isWildcard = true →
    found.resolution = .pattern found.condition.value

variable {history : List Record} {rules : List Rule} {c : Condition} {r : Record} {ref : Reference}
  {category : Category} {value t : Text} {catalog : Catalog} {res : Resolution}

/-! ## Tables -/

/-- The resolver takes the records of the category that a gift consists of. -/
lemma consistsOf_iff {g : Gift} : g.ConsistsOf category ↔ category = categoryOf g := by
  constructor
  · rintro ⟨⟩ <;> rfl
  · rintro rfl
    cases g <;> constructor

/-- The resolver tries a reference in the categories of the table, in their order. -/
lemma triedIn_categoriesFor (hplugin : ∀ name, ref ≠ .pluginFile name) :
    ref.TriedIn (categoriesFor ref) := by
  cases ref with
  | pluginFile name => exact absurd rfl (hplugin name)
  | formKey key => exact .formKey key
  | formId id => exact .formId id
  | editorId name plugin? => exact .editorId name plugin?

/-- The resolver tries a reference in no other categories. -/
lemma eq_categoriesFor_of_triedIn {categories : List Category} (h : ref.TriedIn categories) :
    categories = categoriesFor ref := by
  cases h <;> rfl

/-! ## Searching -/

/-- A search finds the first element that passes. -/
lemma find?_eq_some_iff_isFirst {α : Type*} {p : α → Prop} [DecidablePred p] {l : List α} {a : α} :
    l.find? (fun b => p b) = some a ↔ IsFirst p l a := by
  simp only [List.find?_eq_some_iff_append, IsFirst, decide_eq_true_eq, Bool.not_eq_true',
    decide_eq_false_iff_not]

/-- The virtual keywords of some rules are those that one of them hands out. -/
lemma contains_ofRules_iff :
    (VirtualKeywords.ofRules rules).contains t = true ↔ ∃ k ∈ rules, k.HandsOut t := by
  simp only [VirtualKeywords.contains, VirtualKeywords.ofRules, List.contains_eq_mem,
    decide_eq_true_eq, Text.mem_sortedSet, List.mem_map, List.mem_filter, beq_iff_eq, and_assoc,
    Rule.HandsOut]

/-- A lookup in one category finds what the reference finds there. -/
lemma targetRecord?_eq_some_iff :
    targetRecord? (.ofList history) category ref = some r ↔
      FoundIn (.ofList history) category ref r := by
  rw [targetRecord?_eq_find?, find?_eq_some_iff_isFirst]
  refine ⟨fun hfirst => ⟨?_, hfirst⟩, fun hfound => hfound.first⟩
  obtain ⟨-, before, after, hsplit, -⟩ := hfirst
  exact mem_ofCategory_of_mem_candidates
    (hsplit ▸ List.mem_append_right before List.mem_cons_self)

/-- A lookup in one category fails when the reference finds nothing there. -/
lemma targetRecord?_eq_none_iff :
    targetRecord? (.ofList history) category ref = none ↔
      MissedIn (.ofList history) category ref := by
  simp only [targetRecord?_eq_find?, List.find?_eq_none, decide_eq_true_eq, MissedIn]

/-- A lookup by an editor id finds a record of the category that carries the id. -/
lemma withEditorId?_ofList_mem
    (h : (Catalog.ofList history).withEditorId? category value = some r) :
    r ∈ (Catalog.ofList history).ofCategory category ∧ r.idKey = some (Text.lower value) :=
  (Catalog.ofList_refines history).withEditorId?_mem category value r h

/-- A text is looked up as the record that it names. -/
lemma textRecord?_eq_some_iff :
    textRecord? (.ofList history) value = some r ↔ TextNames (.ofList history) value r := by
  have hname : npcNamed? (.ofList history) value = some r ↔
      IsFirst (·.IsNamed value) ((Catalog.ofList history).ofCategory .npc) r := by
    rw [npcNamed?, List.find?_eq_some_iff_append]
    simp only [IsFirst, Record.IsNamed, Bool.not_eq_true', Bool.not_eq_true]
  have hnoName : npcNamed? (.ofList history) value = none ↔
      ∀ s ∈ (Catalog.ofList history).ofCategory .npc, ¬ s.IsNamed value := List.find?_eq_none
  rw [textRecord?, Option.or_eq_some_iff, Option.or_eq_some_iff, Option.or_eq_none_iff, hname,
    hnoName]
  constructor
  · rintro ((hfound | ⟨hnone, hfirst⟩) | ⟨⟨hnone, hnoName⟩, hfound⟩)
    · obtain ⟨hheld, hid⟩ := withEditorId?_ofList_mem hfound
      exact .npcById hfound hheld hid
    · exact .npcByName hnone hfirst
    · obtain ⟨hheld, hid⟩ := withEditorId?_ofList_mem hfound
      exact .keywordById hnone hnoName hfound hheld hid
  · rintro (⟨hfound, -, -⟩ | ⟨hnone, hfirst⟩ | ⟨hnone, hnoName, hfound, -, -⟩)
    · exact Or.inl (Or.inl hfound)
    · exact Or.inl (Or.inr ⟨hnone, hfirst⟩)
    · exact Or.inr ⟨⟨hnone, hnoName⟩, hfound⟩

/-! ## Resolving -/

/-- An open text condition is not looked up. -/
lemma text_eq_pattern (hc : c.isWildcard = true) (v : VirtualKeywords) :
    text catalog v c = .pattern c.value := by
  rw [text, hc, if_pos rfl]

/-- An open form condition is not looked up. -/
lemma form_eq_pattern (hc : c.isWildcard = true) : form catalog c = .pattern c.value := by
  rw [form, hc, if_pos rfl]

/-- An exact form condition stands for the record that its reference finds, or for itself. -/
lemma form_eq_getD (hc : c.isWildcard = false) (hvalue : Reference.ofText? c.value = some ref)
    (hplugin : ∀ name, ref ≠ .pluginFile name) :
    form catalog c = ((formRecord? catalog ref).map .record).getD (.unresolved c.value) := by
  unfold form
  rw [hc, if_neg Bool.false_ne_true, hvalue]
  cases ref with
  | pluginFile name => exact absurd rfl (hplugin name)
  | formKey key => rfl
  | formId id => rfl
  | editorId name plugin? => rfl

/-- A text condition is resolved to what it stands for. -/
lemma text_standsFor (history : List Record) (rules : List Rule) (c : Condition) :
    TextStandsFor (.ofList history) rules c (text (.ofList history) (.ofRules rules) c) := by
  cases hc : c.isWildcard with
  | true =>
    rw [text_eq_pattern hc]
    exact .pattern hc
  | false =>
    unfold text
    rw [hc, if_neg Bool.false_ne_true]
    cases hrecord : textRecord? (.ofList history) c.value with
    | some r => exact .record hc (textRecord?_eq_some_iff.mp hrecord)
    | none =>
      have hnone : ∀ r, ¬ TextNames (.ofList history) c.value r := by
        intro r hr
        rw [textRecord?_eq_some_iff.mpr hr] at hrecord
        cases hrecord
      dsimp only
      split
      · next hcontains =>
        obtain ⟨k, hk, hands⟩ := contains_ofRules_iff.mp hcontains
        exact .virtualKeyword hc hnone hk hands
      · next hmissing =>
        exact .unresolved hc hnone fun k hk hands =>
          hmissing (contains_ofRules_iff.mpr ⟨k, hk, hands⟩)

/-- A form condition is resolved to what it stands for. -/
lemma form_standsFor (history : List Record) (c : Condition) :
    FormStandsFor (.ofList history) c (form (.ofList history) c) := by
  cases hc : c.isWildcard with
  | true =>
    rw [form_eq_pattern hc]
    exact .pattern hc
  | false =>
    cases hvalue : Reference.ofText? c.value with
    | none =>
      rw [form, hc, if_neg Bool.false_ne_true, hvalue]
      exact .unresolved hc (by simp [hvalue]) (by simp [hvalue])
    | some ref =>
      by_cases hplugin : ∃ name, ref = .pluginFile name
      · obtain ⟨name, rfl⟩ := hplugin
        rw [form, hc, if_neg Bool.false_ne_true, hvalue]
        exact .plugin hc hvalue
      · rw [not_exists] at hplugin
        rw [form_eq_getD hc hvalue hplugin]
        cases hrecord : formRecord? (.ofList history) ref with
        | some r =>
          rw [formRecord?_eq_findSome?, List.findSome?_eq_some_iff] at hrecord
          obtain ⟨before, category, after, horder, hr, hmissed⟩ := hrecord
          exact .record hc hvalue (horder ▸ triedIn_categoriesFor hplugin)
            (fun earlier hearlier => targetRecord?_eq_none_iff.mp (hmissed earlier hearlier))
            (targetRecord?_eq_some_iff.mp hr)
        | none =>
          rw [formRecord?_eq_findSome?, List.findSome?_eq_none_iff] at hrecord
          refine .unresolved hc (fun name hname => ?_) fun ref' categories href' htried => ?_
          · exact hplugin name (Option.some.inj (hvalue.symm.trans hname))
          · obtain rfl := Option.some.inj (hvalue.symm.trans href')
            rw [eq_categoriesFor_of_triedIn htried]
            exact fun category hcategory => targetRecord?_eq_none_iff.mp (hrecord category hcategory)

/-- The form that a rule hands out is resolved to what it stands for. -/
lemma target_standsFor (history : List Record) (rules : List Rule) (r : Rule) :
    TargetStandsFor (.ofList history) rules r (target (.ofList history) (.ofRules rules) r) := by
  unfold target
  cases hrecord : (Reference.ofText? r.form).bind
      (targetRecord? (.ofList history) (categoryOf r.gift)) with
  | some s =>
    obtain ⟨ref, href, hs⟩ := Option.bind_eq_some_iff.mp hrecord
    exact .record href (consistsOf_iff.mpr rfl) (targetRecord?_eq_some_iff.mp hs)
  | none =>
    have hmissed : ∀ ref category, Reference.ofText? r.form = some ref →
        r.gift.ConsistsOf category → MissedIn (.ofList history) category ref := by
      intro ref category href hgift
      obtain rfl := consistsOf_iff.mp hgift
      rw [href, Option.bind_some] at hrecord
      exact targetRecord?_eq_none_iff.mp hrecord
    dsimp only
    split
    · next hkeyword =>
      obtain ⟨k, hk, hands⟩ := contains_ofRules_iff.mp hkeyword.2
      exact .virtualKeyword hmissed hkeyword.1 hk hands
    · next hmissing =>
      exact .unresolved hmissed fun hgift k hk hands =>
        hmissing ⟨hgift, contains_ofRules_iff.mpr ⟨k, hk, hands⟩⟩

/-- Whatever records a catalog was built from and whatever rules hand out keywords, the texts of a
rule are resolved to what they stand for. -/
theorem rule_standsFor (history : List Record) (rules : List Rule) (r : Rule) :
    RuleStandsFor (.ofList history) rules r (rule (.ofList history) (.ofRules rules) r) where
  target := target_standsFor history rules r
  texts := List.forall₂_map_right_iff.mpr
    (List.forall₂_same.mpr fun c _ => ⟨rfl, text_standsFor history rules c⟩)
  forms := List.forall₂_map_right_iff.mpr
    (List.forall₂_same.mpr fun c _ => ⟨rfl, form_standsFor history c⟩)
  pattern found hfound hwild := by
    rcases List.mem_append.mp hfound with hfound | hfound
    · obtain ⟨c, -, rfl⟩ := List.mem_map.mp hfound
      exact text_eq_pattern hwild _
    · obtain ⟨c, -, rfl⟩ := List.mem_map.mp hfound
      exact form_eq_pattern hwild

/-- References of every shape, under several gifts.  An outfit, an item and a spell share key and
editor id, and so do a race and a faction; an npc is also told by its name, and the keyword `Sly`
exists only because a rule hands it out. -/
theorem rule_standsFor_of_every_shape :
    let record (category : Category) (id : FormId) (editorId : String) : Record :=
      ⟨category, ⟨"S.esm".toList, id⟩, some editorId.toList, none⟩
    let silk (category : Category) : Record := record category 1 "Silk"
    let rebel (category : Category) : Record := record category 2 "Rebel"
    let guard : Record := { record .npc 3 "Guard" with name := some "Hadvar".toList }
    let brave : Record := record .keyword 4 "Brave"
    let history := [silk .outfit, silk .item, silk .spell, guard, rebel .race, rebel .faction, brave]
    let rules := [
      "Outfit = Silk|GUARD,hadvar,brave,sly,*Gua,Nobody|0x3~s.esm,0x4,rebel".toList,
      "Item = S.esm|0x1|NONE|0x2,-rebel~S.ESM,rebel~B.esp,S.esm,Guard+Brave,Silk,*bel".toList,
      "LevSpell = 0x1".toList, "Faction = rebel".toList, "SleepOutfit = S.esm".toList,
      "Keyword = Sly".toList, "Keyword = Silk".toList].flatMap fun line =>
        (Content.ofLine .barred .standard line).toRules
    rules.map (fun r => (rule (.ofList history) (.ofRules rules) r).resolutions) = [
      [.record (silk .outfit), .record guard, .record guard, .record brave,
        .virtualKeyword "sly".toList, .pattern "Gua".toList, .unresolved "Nobody".toList,
        .record guard, .record brave, .record (rebel .faction)],
      [.record (silk .item), .record (rebel .faction), .record (rebel .faction),
        .unresolved "rebel~B.esp".toList, .plugin "S.esm".toList, .unresolved "Guard".toList,
        .unresolved "Brave".toList, .record (silk .outfit), .pattern "bel".toList],
      [.record (silk .spell)], [.record (rebel .faction)], [.unresolved "S.esm".toList],
      [.virtualKeyword "Sly".toList], [.virtualKeyword "Silk".toList]] ∧
    ∀ r ∈ rules, RuleStandsFor (.ofList history) rules r
      (rule (.ofList history) (.ofRules rules) r) := by
  intro record silk rebel guard brave history rules
  exact ⟨by decide +kernel, fun r _ => rule_standsFor history rules r⟩

end Resolver

end Wardrobe
