import Mathlib
import Wardrobe.Proofs.Distribution.ResolvedRecords
import Wardrobe.Proofs.Record.EditorId
import Wardrobe.Sheet.Basic

/-!
# Editor ids that are pinned to a plugin

Several plugins may bring a record with one editor id, and a rule can say which plugin it means.
The resolver asks the index of a catalog for the id and compares the plugin afterwards.  But the
index leads to one record of a category only, the one that took the id last.  So a record from the
right plugin is missed when one from another plugin took the id after it
(`not_reaches_of_shared_id`).  `pinned_reached_iff` says exactly when a record is reached.
-/

namespace Wardrobe

namespace Resolver

/-- A category holds a record that a reference denotes. -/
def HeldIn (c : Catalog) (ref : Reference) (category : Category) : Prop :=
  ∃ r ∈ c.ofCategory category, ref.Denotes r

instance (c : Catalog) (ref : Reference) : DecidablePred (HeldIn c ref) := fun category =>
  inferInstanceAs (Decidable (∃ r ∈ c.ofCategory category, ref.Denotes r))

/-- A resolution is a record that a reference denotes, from the first of some categories that holds
one. -/
def Reaches (c : Catalog) (ref : Reference) (categories : List Category) (res : Resolution) :
    Prop :=
  ∀ category, IsFirst (HeldIn c ref) categories category →
    ∃ r ∈ c.ofCategory category, ref.Denotes r ∧ res = .record r

/-- In the first of some categories that holds a record with an editor id from a plugin, the record
that took the id last is still there and comes from the plugin as well. -/
def TakenFrom (history : List Record) (name plugin : Text) (categories : List Category) : Prop :=
  ∀ category,
    IsFirst (HeldIn (.ofList history) (.editorId name (some plugin))) categories category →
      ∃ r ∈ (Catalog.ofList history).ofCategory category,
        Catalog.taker? history category (Text.lower name) = some r ∧
          Text.sameAscii r.key.plugin plugin = true

variable {history : List Record} {name plugin : Text} {ref : Reference} {r s : Record}
  {category : Category} {categories : List Category} {res : Resolution}

/-- A pinned editor id finds a record that took the id last, is still there, and comes from the
plugin. -/
lemma foundIn_pinned_iff :
    FoundIn (.ofList history) category (.editorId name (some plugin)) r ↔
      r ∈ (Catalog.ofList history).ofCategory category ∧
        Catalog.taker? history category (Text.lower name) = some r ∧
          Text.sameAscii r.key.plugin plugin = true := by
  rw [← targetRecord?_eq_some_iff, targetRecord?, pinned?, Option.filter_eq_some_iff,
    Catalog.withEditorId?_ofList_eq_some_iff, Option.all_some, and_assoc]

/-- A category without a record that a reference denotes has none to be found. -/
lemma missedIn_of_not_heldIn (h : ¬ HeldIn (.ofList history) ref category) :
    MissedIn (.ofList history) category ref :=
  fun r hr hdenotes => h ⟨r, mem_ofCategory_of_mem_candidates hr, hdenotes⟩

/-- What is looked up in some categories, one after the other, is reached exactly when it is found
in the first category that holds it. -/
lemma reaches_iff_foundIn (hres : ∀ r, res = .record r ↔
      (categories.findSome? fun k => targetRecord? (.ofList history) k ref) = some r) :
    Reaches (.ofList history) ref categories res ↔
      ∀ category, IsFirst (HeldIn (.ofList history) ref) categories category →
        ∃ r, FoundIn (.ofList history) category ref r := by
  refine forall₂_congr fun category hfirst => ?_
  constructor
  · rintro ⟨r, hr, -, hrecord⟩
    obtain ⟨before, found, after, -, hfound, -⟩ :=
      List.findSome?_eq_some_iff.mp ((hres r).mp hrecord)
    have hfoundIn := targetRecord?_eq_some_iff.mp hfound
    -- The record that was found lies in the first category that holds one, so it was found there.
    have hcategory : found = category :=
      (Catalog.mem_ofCategory_iff.mp hfoundIn.held).2.symm.trans
        (Catalog.mem_ofCategory_iff.mp hr).2
    exact ⟨r, hcategory ▸ hfoundIn⟩
  · rintro ⟨r, hfound⟩
    obtain ⟨-, before, after, hsplit, hempty⟩ := hfirst
    refine ⟨r, hfound.held, hfound.first.1, (hres r).mpr (List.findSome?_eq_some_iff.mpr ?_)⟩
    refine ⟨before, category, after, hsplit, targetRecord?_eq_some_iff.mpr hfound, fun k hk => ?_⟩
    exact targetRecord?_eq_none_iff.mpr (missedIn_of_not_heldIn (hempty k hk))

/-- A pinned editor id is reached when it was taken last from its plugin. -/
lemma reaches_iff_takenFrom (hres : ∀ r, res = .record r ↔ (categories.findSome? fun k =>
      targetRecord? (.ofList history) k (.editorId name (some plugin))) = some r) :
    Reaches (.ofList history) (.editorId name (some plugin)) categories res ↔
      TakenFrom history name plugin categories := by
  simp only [reaches_iff_foundIn hres, foundIn_pinned_iff, TakenFrom]

/-- The form that a rule hands out is resolved to the record that its reference finds. -/
lemma target_eq_record_iff {catalog : Catalog} {v : VirtualKeywords} {rule : Rule} :
    target catalog v rule = .record s ↔ (Reference.ofText? rule.form).bind
      (targetRecord? catalog (categoryOf rule.gift)) = some s := by
  unfold target
  cases (Reference.ofText? rule.form).bind (targetRecord? catalog (categoryOf rule.gift)) with
  | some t => simp
  | none =>
    refine iff_of_false (fun h => ?_) nofun
    dsimp only at h
    split at h <;> cases h

/-- A pinned editor id in a form section, or as the form of a rule, is resolved to a record from the
plugin in the first category that holds one exactly when the record of that category that took the
id last is still there and comes from the plugin. -/
theorem pinned_reached_iff (history : List Record) (name plugin : Text) :
    (∀ (c : Condition) (categories : List Category), c.isWildcard = false →
      Reference.ofText? c.value = some (.editorId name (some plugin)) →
      Reference.TriedIn (.editorId name (some plugin)) categories →
      (Reaches (.ofList history) (.editorId name (some plugin)) categories
        (form (.ofList history) c) ↔ TakenFrom history name plugin categories)) ∧
    ∀ (v : VirtualKeywords) (rule : Rule) (category : Category),
      Reference.ofText? rule.form = some (.editorId name (some plugin)) →
      rule.gift.ConsistsOf category →
      (Reaches (.ofList history) (.editorId name (some plugin)) [category]
        (target (.ofList history) v rule) ↔ TakenFrom history name plugin [category]) := by
  refine ⟨fun c categories hc hvalue htried => reaches_iff_takenFrom fun r => ?_,
    fun v rule category hform hgift => reaches_iff_takenFrom fun r => ?_⟩
  · rw [form_eq_record_iff hc, hvalue, eq_categoriesFor_of_triedIn htried]
    simp only [Option.some.injEq, exists_eq_left', formRecord?_eq_findSome?]
  · rw [target_eq_record_iff, hform, Option.bind_some, List.findSome?_singleton,
      consistsOf_iff.mp hgift]

/-- Races and outfits of two plugins share an editor id.  The plugin that a rule asks for has taken
it last, and no faction of the plugin has it. -/
theorem pinned_reached_of_last : ∃ (history : List Record) (rule : Rule) (c : Condition),
    history.map (fun r => (r.category, r.key.plugin)) = [(.faction, "A.esp".toList),
      (.race, "A.esp".toList), (.race, "Mod.esp".toList), (.outfit, "A.esp".toList),
      (.outfit, "Mod.esp".toList)] ∧
    Content.rulesOfLine .barred .standard "Outfit = rebels~MOD.esp|NONE|-rebels~MOD.esp".toList =
      .ok [rule] ∧
    rule.forms.conditions = [c] ∧ c.isWildcard = false ∧
    Reference.ofText? c.value = some (.editorId "rebels".toList (some "MOD.esp".toList)) ∧
    Reference.ofText? rule.form = some (.editorId "rebels".toList (some "MOD.esp".toList)) ∧
    (∃ r ∈ (Catalog.ofList history).ofCategory .race, form (.ofList history) c = .record r) ∧
    ∃ r ∈ (Catalog.ofList history).ofCategory .outfit,
      target (.ofList history) ⟨[]⟩ rule = .record r := by
  let rebels (category : Category) (plugin : String) (id : FormId) : Record :=
    ⟨category, ⟨plugin.toList, id⟩, some "Rebels".toList, none⟩
  let history := [rebels .faction "A.esp" 1, rebels .race "A.esp" 2, rebels .race "Mod.esp" 3,
    rebels .outfit "A.esp" 4, rebels .outfit "Mod.esp" 5]
  let c : Condition := ⟨"rebels~MOD.esp".toList, true, .none⟩
  let line := "Outfit = rebels~MOD.esp|NONE|-rebels~MOD.esp".toList
  let rule : Rule := ⟨.barred, .outfit, "Outfit".toList, "rebels~MOD.esp".toList, .everything,
    ⟨[], [c]⟩, none, [], .nothing, none, 100, line⟩
  let ref : Reference := .editorId "rebels".toList (some "MOD.esp".toList)
  have hc : c.isWildcard = false := rfl
  have hvalue : Reference.ofText? c.value = some ref := by decide +kernel
  have htaken : ∀ category, HeldIn (.ofList history) ref category →
      ∃ r ∈ (Catalog.ofList history).ofCategory category,
        Catalog.taker? history category (Text.lower "rebels".toList) = some r ∧
          Text.sameAscii r.key.plugin "MOD.esp".toList = true := by
    intro category
    cases category <;> decide +kernel
  have hrace : IsFirst (HeldIn (.ofList history) ref) [.faction, .race, .combatClass, .combatStyle,
      .outfit, .perk, .voiceType, .location, .formList] .race :=
    ⟨by decide +kernel, [.faction], _, rfl, by decide +kernel⟩
  have houtfit : IsFirst (HeldIn (.ofList history) ref) [.outfit] .outfit :=
    ⟨by decide +kernel, [], [], rfl, nofun⟩
  obtain ⟨hform, htarget⟩ := pinned_reached_iff history "rebels".toList "MOD.esp".toList
  obtain ⟨r, hr, -, hrecord⟩ :=
    (hform c _ hc hvalue (.editorId _ _)).mpr (fun category h => htaken category h.1) .race hrace
  obtain ⟨s, hs, -, hrecord'⟩ :=
    (htarget ⟨[]⟩ rule _ hvalue .outfit).mpr (fun category h => htaken category h.1) .outfit houtfit
  exact ⟨history, rule, c, rfl, by decide +kernel, rfl, hc, hvalue, hvalue, ⟨r, hr, hrecord⟩,
    ⟨s, hs, hrecord'⟩⟩

/-- Two plugins have a faction with the same editor id.  Asked for by the plugin that came first,
the id is not resolved, although the catalog holds the faction. -/
theorem not_reaches_of_shared_id : ¬ ∀ (history : List Record) (c : Condition) (name plugin : Text)
    (categories : List Category), (history.map Record.slot).Nodup → c.isWildcard = false →
    Reference.ofText? c.value = some (.editorId name (some plugin)) →
    Reference.TriedIn (.editorId name (some plugin)) categories →
      Reaches (.ofList history) (.editorId name (some plugin)) categories
        (form (.ofList history) c) := by
  intro h
  let bandits (plugin : String) (id : FormId) : Record :=
    ⟨.faction, ⟨plugin.toList, id⟩, some "Bandits".toList, none⟩
  let history := [bandits "A.esp" 1, bandits "B.esp" 2]
  let c : Condition := ⟨"Bandits~A.esp".toList, false, .none⟩
  have hheld : HeldIn (.ofList history)
      (.editorId "Bandits".toList (some "A.esp".toList)) .faction := by decide +kernel
  obtain ⟨r, -, -, hr⟩ := h history c "Bandits".toList "A.esp".toList _ (by decide +kernel) rfl
    (by decide +kernel) (.editorId _ _) .faction ⟨hheld, [], _, rfl, nofun⟩
  have hunresolved : form (.ofList history) c = .unresolved c.value := by decide +kernel
  rw [hunresolved] at hr
  cases hr

end Resolver

end Wardrobe
