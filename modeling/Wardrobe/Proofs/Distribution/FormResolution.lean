import Mathlib
import Wardrobe.Distribution.Resolution
import Wardrobe.Distribution.Selects
import Wardrobe.Proofs.Record.CatalogHistory

/-!
# Which record a form condition names

A form condition is read twice: the resolver looks its value up in the indexes of a catalog, and an
actor compares it with the records that it mentions.  Whatever the resolver finds denotes the value
(`denotes_of_formRecord?`), and an actor that mentions a record is hit by the values that denote it,
up to one thing (`hasReference_of_carries`): editor ids are looked up in lower case, and compared
up to the case of the letters `A` to `Z` only.  `form_hits_carriers_iff` says that nothing else
makes a difference.
-/

namespace Wardrobe

/-- A reference denotes a record: by its key, by its id, or by its editor id, where letter case does
not count, and its plugin. -/
def Reference.Denotes (r : Record) : Reference → Prop
  | .pluginFile _ => False
  | .formKey key => r.key.same key = true
  | .formId id => r.key.id = id
  | .editorId name plugin? => r.idKey = some (Text.lower name) ∧
      plugin?.all (Text.sameAscii r.key.plugin) = true

instance (r : Record) : DecidablePred (Reference.Denotes r)
  | .pluginFile _ => isFalse id
  | .formKey key => inferInstanceAs (Decidable (r.key.same key = true))
  | .formId id => inferInstanceAs (Decidable (r.key.id = id))
  | .editorId name plugin? => inferInstanceAs (Decidable (r.idKey = some (Text.lower name) ∧
      plugin?.all (Text.sameAscii r.key.plugin) = true))

/-- An editor id in a reference is that of a record, up to the case of the letters `A` to `Z`. -/
def Reference.Spells (r : Record) : Reference → Prop
  | .editorId name _ => r.editorId.any (Text.sameAscii · name) = true
  | _ => True

/-- A record is among those that an actor mentions, with its key and its editor id. -/
def Actor.Carries (a : Actor) (r : Record) : Prop :=
  ∃ m ∈ a.mentions, m.key.same r.key = true ∧ m.editorId = r.editorId

variable {history : List Record} {c : Condition} {r : Record} {a : Actor} {m : Mention}
  {ref : Reference}

/-! ## Looking up -/

namespace Resolver

/-- The categories in which a reference of a form section is looked up, in order. -/
def categoriesFor : Reference → List Category
  | .pluginFile _ => []
  | .formKey _ | .formId _ => keyCategories
  | .editorId _ _ => idCategories

/-- The records of a category that are compared with a reference: the one that an editor id leads
to, or all of them. -/
def candidates (c : Catalog) (category : Category) : Reference → List Record
  | .editorId name _ => (c.withEditorId? category name).toList
  | _ => c.ofCategory category

/-- The candidates of a category are records of the category. -/
lemma mem_ofCategory_of_mem_candidates {category : Category}
    (h : r ∈ candidates (.ofList history) category ref) :
    r ∈ (Catalog.ofList history).ofCategory category := by
  cases ref with
  | editorId name plugin? =>
    have hfound := Option.mem_toList.mp h
    exact ((Catalog.ofList_refines history).withEditorId?_mem category name r hfound).1
  | pluginFile name => exact h
  | formKey key => exact h
  | formId id => exact h

/-- The record under a key is the only one of its category with that key. -/
lemma get?_eq_find? (category : Category) (key : FormKey) :
    (Catalog.ofList history).get? category key =
      ((Catalog.ofList history).ofCategory category).find? (·.key.same key) := by
  have hrefines := Catalog.ofList_refines history
  have hslot : ∀ s ∈ (Catalog.ofList history).ofCategory category, s.key.same key = true →
      Catalog.latest? history (category, key.folded) = some s := by
    intro s hs hsame
    obtain ⟨hcategory, hlatest⟩ := (hrefines.mem_ofCategory category s).mp hs
    rwa [Catalog.slot_eq_iff.mpr ⟨hcategory, hsame⟩] at hlatest
  rw [hrefines.get?_eq]
  cases hfind : ((Catalog.ofList history).ofCategory category).find? (·.key.same key) with
  | some s =>
    have hsame := List.find?_some hfind
    exact hslot s (List.mem_of_find?_eq_some hfind) hsame
  | none =>
    rw [Option.eq_none_iff_forall_ne_some]
    intro s hlatest
    have hs := Catalog.slot_of_latest? hlatest
    obtain ⟨hcategory, hsame⟩ := Catalog.slot_eq_iff.mp hs
    have hmem := (hrefines.mem_ofCategory category s).mpr ⟨hcategory, hs ▸ hlatest⟩
    exact List.find?_eq_none.mp hfind s hmem hsame

/-- In one category a reference finds the first of the candidates that it denotes. -/
lemma targetRecord?_eq_find? (category : Category) (ref : Reference) :
    targetRecord? (.ofList history) category ref =
      (candidates (.ofList history) category ref).find? fun r => ref.Denotes r := by
  cases ref with
  | pluginFile name =>
    rw [targetRecord?, eq_comm, List.find?_eq_none]
    exact fun r _ h => of_decide_eq_true h
  | formKey key =>
    have hdecide : ∀ r : Record, r.key.same key = decide (Reference.Denotes r (.formKey key)) :=
      fun r => Bool.eq_iff_iff.mpr decide_eq_true_iff.symm
    simp only [targetRecord?, get?_eq_find?, candidates, hdecide]
  | formId id =>
    have hdecide : ∀ r : Record, (r.key.id == id) = decide (Reference.Denotes r (.formId id)) :=
      fun r => Bool.eq_iff_iff.mpr (beq_iff_eq.trans decide_eq_true_iff.symm)
    simp only [targetRecord?, withId?, candidates, hdecide]
  | editorId name plugin? =>
    rw [targetRecord?, pinned?, candidates]
    cases hfound : (Catalog.ofList history).withEditorId? category name with
    | none => rfl
    | some r =>
      have hid := ((Catalog.ofList_refines history).withEditorId?_mem category name r hfound).2
      have hdecide : decide (Reference.Denotes r (.editorId name plugin?)) =
          plugin?.all (Text.sameAscii r.key.plugin) :=
        Bool.eq_iff_iff.mpr (decide_eq_true_iff.trans (and_iff_right hid))
      rw [Option.toList_some, List.find?_singleton, hdecide, Option.filter_some]

/-- A form condition looks its reference up in one category after the other. -/
lemma formRecord?_eq_findSome? (catalog : Catalog) (ref : Reference) : formRecord? catalog ref =
    (categoriesFor ref).findSome? fun category => targetRecord? catalog category ref := by
  cases ref <;> rfl

/-- A record that is looked up by a reference is denoted by it. -/
lemma denotes_of_formRecord? (h : formRecord? (.ofList history) ref = some r) : ref.Denotes r := by
  rw [formRecord?_eq_findSome?] at h
  obtain ⟨category, -, hr⟩ := List.exists_of_findSome?_eq_some h
  rw [targetRecord?_eq_find?] at hr
  have hdenotes := List.find?_some hr
  exact of_decide_eq_true hdenotes

/-- An exact condition is resolved to the record that is looked up by its reference. -/
lemma form_eq_record_iff (hc : c.isWildcard = false) {catalog : Catalog} :
    form catalog c = .record r ↔
      ∃ ref, Reference.ofText? c.value = some ref ∧ formRecord? catalog ref = some r := by
  unfold form
  rw [hc, if_neg Bool.false_ne_true]
  cases Reference.ofText? c.value with
  | none => simp
  | some ref =>
    have hgetD : ∀ found : Option Record,
        (found.map Resolution.record).getD (.unresolved c.value) = .record r ↔ found = some r := by
      intro found
      cases found <;> simp
    cases ref with
    | pluginFile name => simp [formRecord?]
    | formKey key => simp [hgetD]
    | formId id => simp [hgetD]
    | editorId name plugin? => simp [hgetD]

end Resolver

/-! ## Comparing -/

/-- A mention of a record is told by a reference that denotes the record, unless that spells the
editor id in another way. -/
lemma Actor.hasReference_of_carries (ha : a.Carries r) (href : ref.Denotes r)
    (hspells : ref.Spells r) : a.hasReference ref = true := by
  obtain ⟨m, hm, hkey, hid⟩ := ha
  have hfolded := FormKey.same_iff.mp hkey
  cases ref with
  | pluginFile name => cases href
  | formKey key =>
    refine List.any_eq_true.mpr ⟨m, hm, FormKey.same_iff.mpr ?_⟩
    rw [hfolded]
    exact FormKey.same_iff.mp href
  | formId id =>
    refine List.any_eq_true.mpr ⟨m, hm, beq_iff_eq.mpr ?_⟩
    exact (congrArg FormKey.id hfolded).trans href
  | editorId name plugin? =>
    have hplugin : Text.sameAscii m.key.plugin = Text.sameAscii r.key.plugin := by
      funext t
      rw [Text.sameAscii, Text.sameAscii]
      exact congrArg (· == Text.asciiLower t) (congrArg FormKey.plugin hfolded)
    refine List.any_eq_true.mpr ⟨m, hm, ?_⟩
    rw [mentionHasId, hid, hplugin, Bool.and_eq_true]
    exact ⟨hspells, href.2⟩

/-- An actor that is the record itself has no other mention, so it is told by a reference only when
that spells the editor id. -/
lemma exists_carries_of_not_spells (href : ref.Denotes r) (hspells : ¬ ref.Spells r) :
    ∃ a : Actor, a.Carries r ∧ a.hasReference ref = false := by
  cases ref with
  | pluginFile name => cases href
  | formKey key => exact absurd trivial hspells
  | formId id => exact absurd trivial hspells
  | editorId name plugin? =>
    obtain ⟨id, hid, -⟩ := Option.map_eq_some_iff.mp href.1
    have hsame : FormKey.same r.key r.key = true := FormKey.same_iff.mpr rfl
    refine ⟨.ofKey r.key id, ⟨⟨r.key, some id⟩, List.mem_cons_self, hsame, hid.symm⟩, ?_⟩
    have hother : Text.sameAscii id name = false := by
      rw [Reference.Spells, hid, Option.any_some] at hspells
      exact Bool.eq_false_iff.mpr hspells
    simp [Actor.hasReference, Actor.mentions, Actor.ofKey, Actor.mentionHasId, hother]

/-- An exact form condition that is resolved to a record holds for every actor that carries the
record, or fails when it is negated, exactly when its value is no other spelling of the record's
editor id than one up to the case of the letters `A` to `Z`. -/
theorem form_hits_carriers_iff (hc : c.isWildcard = false)
    (hr : Resolver.form (.ofList history) c = .record r) :
    (∀ a : Actor, a.Carries r → c.holds a.formHit = !c.negated) ↔
      ∀ ref ∈ Reference.ofText? c.value, ref.Spells r := by
  obtain ⟨ref, hvalue, hfound⟩ := (Resolver.form_eq_record_iff hc).mp hr
  have href := Resolver.denotes_of_formRecord? hfound
  have hholds : ∀ a : Actor, c.holds a.formHit = !c.negated ↔ a.hasReference ref = true := by
    intro a
    rw [Condition.holds, Actor.formHit, hc, if_neg Bool.false_ne_true, hvalue, Option.any_some]
    cases a.hasReference ref <;> cases c.negated <;> decide
  simp only [hholds, hvalue, Option.mem_some_iff, forall_eq']
  constructor
  · intro hall
    by_contra hspells
    obtain ⟨a, ha, hmiss⟩ := exists_carries_of_not_spells href hspells
    rw [hall a ha] at hmiss
    cases hmiss
  · exact fun hspells a ha => a.hasReference_of_carries ha href hspells

/-- A pinned editor id whose letters have another case, and its plugin as well.  It is resolved to
the faction, and negated it shuts out everyone in the faction. -/
theorem form_hits_carriers_of_pinned : ∃ (bandits : Record) (history : List Record) (c : Condition)
    (thief : Actor),
    history = [⟨.race, ⟨"Mod.esp".toList, 32⟩, some "Bandit".toList, none⟩, bandits] ∧
    bandits = ⟨.faction, ⟨"Skyrim.esm".toList, 32⟩, some "BanditGang".toList, none⟩ ∧
    Condition.ofText? "-banditGANG ~ SKYRIM.esm".toList = some c ∧
    thief.factions = [⟨bandits.key, bandits.editorId, 1⟩] ∧
    c.isWildcard = false ∧ Resolver.form (.ofList history) c = .record bandits ∧
    (∀ a : Actor, a.Carries bandits → c.holds a.formHit = false) ∧
    thief.Carries bandits ∧ c.holds thief.formHit = false := by
  let bandits : Record := ⟨.faction, ⟨"Skyrim.esm".toList, 32⟩, some "BanditGang".toList, none⟩
  let history := [⟨.race, ⟨"Mod.esp".toList, 32⟩, some "Bandit".toList, none⟩, bandits]
  let c : Condition := ⟨"banditGANG ~ SKYRIM.esm".toList, true, .none⟩
  let thief : Actor := { Actor.ofKey ⟨"Skyrim.esm".toList, 16⟩ "Thief".toList with
    factions := [⟨bandits.key, bandits.editorId, 1⟩] }
  have hc : c.isWildcard = false := rfl
  have hr : Resolver.form (.ofList history) c = .record bandits := by decide +kernel
  have hvalue : Reference.ofText? c.value =
      some (.editorId "banditGANG".toList (some "SKYRIM.esm".toList)) := by decide +kernel
  have hspells : ∀ ref ∈ Reference.ofText? c.value, ref.Spells bandits := by
    simp only [hvalue, Option.mem_some_iff, forall_eq', Reference.Spells]
    decide +kernel
  have hall : ∀ a : Actor, a.Carries bandits → c.holds a.formHit = false :=
    (form_hits_carriers_iff hc hr).mpr hspells
  have hthief : thief.Carries bandits :=
    ⟨⟨bandits.key, bandits.editorId⟩, by decide +kernel, by decide +kernel, rfl⟩
  exact ⟨bandits, history, c, thief, rfl, rfl, by decide +kernel, rfl, hc, hr, hall, hthief,
    hall thief hthief⟩

/-- A race whose editor id begins with a letter outside ASCII is found in lower case as well, but an
actor of that race is not hit. -/
theorem not_form_hits_carriers_of_accent : ¬ ∀ (history : List Record) (c : Condition) (r : Record)
    (a : Actor), c.isWildcard = false → Resolver.form (.ofList history) c = .record r →
      a.Carries r → c.holds a.formHit = !c.negated := by
  intro h
  let race : Record := ⟨.race, ⟨"Skyrim.esm".toList, 32⟩, some "Élan".toList, none⟩
  let c : Condition := ⟨"élan".toList, false, .none⟩
  let a : Actor := { Actor.ofKey ⟨"Skyrim.esm".toList, 16⟩ "Guard".toList with
    race := some ⟨race.key, race.editorId⟩ }
  have hcarries : a.Carries race :=
    ⟨⟨race.key, race.editorId⟩, by decide +kernel, by decide +kernel, rfl⟩
  have hmiss : c.holds a.formHit = false := by decide +kernel
  have hhit := h [race] c race a rfl (by decide +kernel) hcarries
  rw [hmiss] at hhit
  cases hhit

end Wardrobe
