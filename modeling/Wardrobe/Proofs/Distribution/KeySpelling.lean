import Mathlib
import Wardrobe.Distribution.Contest
import Wardrobe.Proofs.Distribution.GateSpacing
import Wardrobe.Proofs.Distribution.HandoutRun
import Wardrobe.Proofs.Record.CatalogHistory

/-!
# Letter case in the plugins of keys

Keys are the same whatever the letter case of their plugins, and rules select actors by their keys
up to that case (`Rule.selects_folded`).  The gate, however, hashes the key as it is spelled.  So
actors whose plugins are respelled are still selected by the same rules, but the verdict of a gate
is sure to stay only where it does not depend on the hash (`Gate.Unmoved`), and through the verdicts
the winners and the keywords that are gained may change (`Gate.verdicts_of_respelled`).
-/

namespace Wardrobe

/-! ## Letter case of plugins -/

namespace Text

variable {s t : Text} {c : Char}

lemma asciiLowerChar_asciiLowerChar (c : Char) :
    asciiLowerChar (asciiLowerChar c) = asciiLowerChar c := by
  by_cases h : 'A' ≤ c ∧ c ≤ 'Z'
  · have hletters : ∀ n < 26, asciiLowerChar (asciiLowerChar (Char.ofNat (65 + n))) =
        asciiLowerChar (Char.ofNat (65 + n)) := by decide
    obtain ⟨n, hn⟩ : ∃ n, c.toNat = 65 + n := Nat.exists_eq_add_of_le h.1
    have hlt : c.toNat ≤ 90 := h.2
    have hc : c = Char.ofNat (65 + n) := by rw [← hn, Char.ofNat_toNat]
    rw [hc]
    exact hletters n (by omega)
  · have hc : asciiLowerChar c = c := if_neg h
    rw [hc, hc]

@[simp] lemma asciiLower_asciiLower (t : Text) : asciiLower (asciiLower t) = asciiLower t := by
  simp only [asciiLower, List.map_map, List.map_inj_left, Function.comp_apply]
  exact fun c _ => asciiLowerChar_asciiLowerChar c

@[simp] lemma sameAscii_asciiLower (s t : Text) : sameAscii (asciiLower s) t = sameAscii s t := by
  rw [sameAscii, asciiLower_asciiLower, sameAscii]

end Text

/-- A key stays the same key when its plugin is folded. -/
@[simp] lemma FormKey.same_folded (key key' : FormKey) : key.folded.same key' = key.same key' := by
  rw [Bool.eq_iff_iff, FormKey.same_iff, FormKey.same_iff]
  simp [FormKey.folded]

/-! ## Actors up to letter case -/

/-- A mention with the plugin of its key folded. -/
def Mention.folded (m : Mention) : Mention :=
  { m with key := m.key.folded }

/-- A membership with the plugin of its key folded. -/
def Membership.folded (m : Membership) : Membership :=
  { m with key := m.key.folded }

namespace Actor

/-- An actor with every plugin folded that is named in it. -/
def folded (a : Actor) : Actor :=
  { a with
    key := a.key.folded
    source := a.source.map Text.asciiLower
    race := a.race.map Mention.folded
    combatClass := a.combatClass.map Mention.folded
    combatStyle := a.combatStyle.map Mention.folded
    voice := a.voice.map Mention.folded
    template := a.template.map Mention.folded
    defaultOutfit := a.defaultOutfit.map Mention.folded
    factions := a.factions.map Membership.folded }

/-- Actors that are the same but for the letter case of plugins. -/
def Respelled (a b : Actor) : Prop :=
  a.folded = b.folded

variable {a b : Actor}

lemma mentions_folded (a : Actor) : a.folded.mentions = a.mentions.map Mention.folded := by
  simp only [mentions, folded, List.map_cons, List.map_append, List.map_map, Option.toList_map]
  rfl

/-- The plugin that an actor comes from is folded. -/
lemma sourcePlugin_folded (a : Actor) : a.folded.sourcePlugin = Text.asciiLower a.sourcePlugin := by
  simp only [sourcePlugin, folded, FormKey.folded]
  cases a.source <;> rfl

/-- What an actor is called does not depend on plugins. -/
lemma titles_folded (a : Actor) : a.folded.titles = a.titles := by
  simp only [titles, templateId, folded]
  cases a.template <;> rfl

/-- A mention is the record of an editor id whatever the letter case of its plugin. -/
lemma mentionHasId_folded (name : Text) (plugin? : Option Text) (m : Mention) :
    mentionHasId name plugin? m.folded = mentionHasId name plugin? m := by
  have hplugin : Text.sameAscii m.folded.key.plugin = Text.sameAscii m.key.plugin :=
    funext (Text.sameAscii_asciiLower m.key.plugin)
  rw [mentionHasId, hplugin]
  rfl

/-- A reference names an actor whatever the letter case of plugins. -/
lemma hasReference_folded (a : Actor) (ref : Reference) :
    a.folded.hasReference ref = a.hasReference ref := by
  cases ref with
  | pluginFile name =>
    rw [hasReference, sourcePlugin_folded, Text.sameAscii_asciiLower, hasReference]
  | formKey key => simp [hasReference, mentions_folded, Function.comp_def, Mention.folded]
  | formId id => simp [hasReference, mentions_folded, Function.comp_def, Mention.folded,
      FormKey.folded]
  | editorId name plugin? => simp [hasReference, mentions_folded, Function.comp_def,
      mentionHasId_folded]

lemma formHit_folded (a : Actor) (c : Condition) : a.folded.formHit c = a.formHit c := by
  have hreference : a.folded.hasReference = a.hasReference := funext a.hasReference_folded
  simp only [formHit, mentions_folded, List.any_map, Function.comp_def, Mention.folded, hreference]

lemma textHit_folded (a : Actor) (gained : List Text) (c : Condition) :
    a.folded.textHit gained c = a.textHit gained c := by
  simp only [textHit, matchKeys, titles_folded]
  rfl

lemma Respelled.same_key (h : a.Respelled b) : a.key.same b.key = true :=
  FormKey.same_iff.mpr (congrArg Actor.key h)

lemma Respelled.editorId_eq (h : a.Respelled b) : a.editorId = b.editorId := by
  have hfolded : a.folded.editorId = b.folded.editorId := congrArg Actor.editorId h
  exact hfolded

lemma Respelled.keywordSet_eq (h : a.Respelled b) : a.keywordSet = b.keywordSet := by
  have hfolded : a.folded.keywordSet = b.folded.keywordSet := congrArg Actor.keywordSet h
  exact hfolded

end Actor

/-- A rule selects an actor whatever the letter case of plugins. -/
lemma Rule.selects_folded (r : Rule) (a : Actor) (gained : List Text) :
    r.selects a.folded gained = r.selects a gained := by
  have htexts : a.folded.textHit gained = a.textHit gained := funext (a.textHit_folded gained)
  have hforms : a.folded.formHit = a.formHit := funext a.formHit_folded
  rw [selects, selects, htexts, hforms]
  rfl

lemma Actor.Respelled.selects_eq {a b : Actor} (h : a.Respelled b) (r : Rule)
    (gained : List Text) : r.selects a gained = r.selects b gained := by
  rw [← r.selects_folded a, h, r.selects_folded b]

/-! ## Gates -/

namespace Gate

/-- The gate of a rule cannot tell the keys of two actors apart: they are spelled in the same way,
or the chance is certain. -/
def Unmoved (a b : Actor) (r : Rule) : Prop :=
  a.key.plugin = b.key.plugin ∨ r.chance = 0 ∨ 100 ≤ r.chance

variable {a b : Actor} {r : Rule}

/-- Under the same key the gate hashes the same text only for the same spelling. -/
lemma identity_eq_iff (h : a.key.same b.key = true) :
    identity a r = identity b r ↔ a.key.plugin = b.key.plugin := by
  have hid : a.key.folded.id = b.key.folded.id := congrArg FormKey.id (FormKey.same_iff.mp h)
  change a.key.id = b.key.id at hid
  rw [identity, identity, FormKey.toText, FormKey.toText, hid, List.append_cancel_right_eq,
    List.append_cancel_left_eq, List.cons_inj_right]

/-- Verdicts on actors with the same key are sure to be the same only where the gate is unmoved. -/
lemma forall_verdict_eq_iff_unmoved (h : a.key.same b.key = true) :
    (∀ hash, verdict hash a r = verdict hash b r) ↔ Unmoved a b r := by
  rw [forall_hash_verdict_eq_iff rfl, identity_eq_iff h, Unmoved]

lemma Unmoved.admits_eq (hmove : Unmoved a b r) (h : a.key.same b.key = true) :
    admits a r = admits b r := by
  rw [admits_eq_verdict, admits_eq_verdict]
  exact (forall_verdict_eq_iff_unmoved h).mpr hmove draw

end Gate

/-! ## Contests -/

namespace Contest

/-- Contests of the same contenders for the same actor. -/
structure SameOutcome (c c' : Contest) : Prop where
  actor : c.actor.same c'.actor = true
  editorId : c.editorId = c'.editorId
  contenders : c.contenders = c'.contenders

variable {a b : Actor} {as bs : List Actor} {rules : List PlacedRule}

/-- The contenders for a respelled actor are the same when no gate among them moves. -/
lemma contendersFor_eq_of_unmoved (h : a.Respelled b)
    (hgates : ∀ p ∈ rules, p.rule.selects a [] = true → Gate.Unmoved a b p.rule) :
    contendersFor rules a = contendersFor rules b := by
  unfold contendersFor
  refine List.filterMap_congr fun ⟨p, order⟩ hp => ?_
  have hmem : p ∈ rules := List.fst_mem_of_mem_zipIdx hp
  simp only [← h.selects_eq p.rule []]
  split
  · next hselects =>
    rw [contender, contender, (hgates p hmem hselects).admits_eq h.same_key]
  · rfl

/-- The contests for respelled actors have the same outcomes when no gate moves. -/
lemma forall₂_all_of_unmoved {gift : Gift} {sheets : List Sheet}
    (h : List.Forall₂ (fun a b => a.Respelled b ∧ ∀ p ∈ rulesFor gift sheets,
      p.rule.selects a [] = true → Gate.Unmoved a b p.rule) as bs) :
    List.Forall₂ SameOutcome (all gift sheets as) (all gift sheets bs) := by
  refine List.rel_filterMap ?_ h
  rintro a b ⟨hab, hgates⟩
  have hcontenders := contendersFor_eq_of_unmoved hab hgates
  unfold ofActor?
  rw [← hcontenders]
  split
  · exact Option.Rel.none
  · exact Option.Rel.some ⟨hab.same_key, hab.editorId_eq, rfl⟩

end Contest

/-! ## Handouts -/

namespace Holder

variable {a b : Actor} {steps : List (KeywordRule × Nat)}

/-- A respelled actor gains the same keywords when no gate moves. -/
lemma acquired_applyAll_eq (h : a.Respelled b)
    (hgates : ∀ s ∈ steps, Gate.Unmoved a b s.1.rule) (acquired : List Acquisition) :
    ((⟨a, acquired⟩ : Holder).applyAll steps).acquired =
      ((⟨b, acquired⟩ : Holder).applyAll steps).acquired := by
  induction steps generalizing acquired with
  | nil => rfl
  | cons s rest ih =>
    obtain ⟨hgate, hrest⟩ := List.forall_mem_cons.mp hgates
    have hheld : (⟨a, acquired⟩ : Holder).held = (⟨b, acquired⟩ : Holder).held :=
      congrArg (· ++ _) h.keywordSet_eq
    have hstep : ((⟨a, acquired⟩ : Holder).apply s.1 s.2).acquired =
        ((⟨b, acquired⟩ : Holder).apply s.1 s.2).acquired := by
      simp only [apply, Handout.enter, hheld, h.selects_eq, hgate.admits_eq h.same_key]
    have hnext := ih hrest ((⟨a, acquired⟩ : Holder).apply s.1 s.2).acquired
    rw [applyAll_cons, applyAll_cons]
    refine hnext.trans ?_
    rw [hstep]
    rfl

end Holder

/-- Respelled actors gain the same keywords from a chain when no gate moves. -/
lemma Handout.acquired_eq_of_unmoved {as bs : List Actor} {chain : Chain}
    (h : List.Forall₂ (fun a b => a.Respelled b ∧ ∀ k ∈ chain.ordered, Gate.Unmoved a b k.rule)
      as bs) : acquired chain as = acquired chain bs := by
  rw [acquired_eq_map, acquired_eq_map, ← List.forall₂_eq_eq_eq, List.forall₂_map_left_iff,
    List.forall₂_map_right_iff]
  refine h.imp fun a b hab => ?_
  exact Holder.acquired_applyAll_eq hab.1
    (fun s hs => hab.2 s.1 (List.fst_mem_of_mem_zipIdx hs)) []

/-! ## What the spelling changes -/

namespace Gate

/-- Of actors under the same keys, the gate hashes the same texts exactly when the keys are spelled
in the same way; that, or a chance that is certain, is what it takes for the verdicts to be the same
whatever the hash.  Where it is so for the rules in question, actors that are respelled meet the
same contenders with the same verdicts, and gain the same keywords. -/
theorem verdicts_of_respelled {as bs : List Actor}
    (h : List.Forall₂ (fun a b => a.key.same b.key = true) as bs) :
    List.Forall₂ (fun a b => ∀ r, (identity a r = identity b r ↔ a.key.plugin = b.key.plugin) ∧
      ((∀ hash, verdict hash a r = verdict hash b r) ↔ Unmoved a b r)) as bs ∧
    (∀ gift sheets, List.Forall₂ (fun a b => a.Respelled b ∧
        ∀ p ∈ Contest.rulesFor gift sheets, p.rule.selects a [] = true → Unmoved a b p.rule) as bs →
      List.Forall₂ Contest.SameOutcome (Contest.all gift sheets as) (Contest.all gift sheets bs)) ∧
    ∀ chain, List.Forall₂ (fun a b => a.Respelled b ∧ ∀ k ∈ chain.ordered, Unmoved a b k.rule)
      as bs → Handout.acquired chain as = Handout.acquired chain bs :=
  ⟨h.imp fun _ _ hkey _ => ⟨identity_eq_iff hkey, forall_verdict_eq_iff_unmoved hkey⟩,
    fun _ _ hgates => Contest.forall₂_all_of_unmoved hgates,
    fun _ hgates => Handout.acquired_eq_of_unmoved hgates⟩

/-- Two spellings of one plugin.  The gate of a rule with half a chance hashes different texts for
them, while a keyword that is handed out for certain is gained under both. -/
theorem verdicts_of_respelled_capitals : ∃ (a b : Actor) (r : Rule) (k : KeywordRule),
    a = .ofKey ⟨"Skyrim.esm".toList, 16⟩ "Guard".toList ∧
    b = .ofKey ⟨"SKYRIM.ESM".toList, 16⟩ "Guard".toList ∧ a.key.same b.key = true ∧
    Barred.ruleOfLine .standard "Outfit = X||||||50".toList = .ok r ∧
    (Barred.ruleOfLine .standard "Keyword = K|Guard".toList).toOption.bind KeywordRule.ofRule? =
      some k ∧
    identity a r ≠ identity b r ∧ (∃ hash, verdict hash a r ≠ verdict hash b r) ∧
    Handout.acquired ⟨[k], []⟩ [a] = [[⟨"K".toList, 0⟩]] ∧
    Handout.acquired ⟨[k], []⟩ [b] = [[⟨"K".toList, 0⟩]] := by
  let a : Actor := .ofKey ⟨"Skyrim.esm".toList, 16⟩ "Guard".toList
  let b : Actor := .ofKey ⟨"SKYRIM.ESM".toList, 16⟩ "Guard".toList
  let r : Rule := ⟨.barred, .outfit, "Outfit".toList, "X".toList, .everything, .everything, none,
    [], .nothing, none, 50, "Outfit = X||||||50".toList⟩
  let k : KeywordRule := ⟨⟨.barred, .keyword, "Keyword".toList, "K".toList, .ofText "Guard".toList,
    .everything, none, [], .nothing, none, 100, "Keyword = K|Guard".toList⟩, "K".toList,
    ["guard".toList]⟩
  have hkey : a.key.same b.key = true := by decide +kernel
  have hrespelled : a.folded = b.folded := by decide +kernel
  have hplugin : a.key.plugin ≠ b.key.plugin := by decide +kernel
  obtain ⟨hgates, -, hgained⟩ := verdicts_of_respelled (List.Forall₂.cons hkey .nil)
  obtain ⟨hidentity, hverdict⟩ := (List.forall₂_cons.mp hgates).1 r
  have hunmoved : ¬ Unmoved a b r := by
    rintro (h | h | h)
    · exact hplugin h
    · exact absurd h (by decide)
    · exact absurd h (by decide)
  have hcertain : ∀ k' ∈ [k], Unmoved a b k'.rule :=
    List.forall_mem_singleton.mpr (Or.inr (Or.inr le_rfl))
  have hacquired : Handout.acquired ⟨[k], []⟩ [a] = [[⟨"K".toList, 0⟩]] := by decide +kernel
  refine ⟨a, b, r, k, rfl, rfl, hkey, by decide +kernel, by decide +kernel, mt hidentity.mp hplugin,
    not_forall.mp (mt hverdict.mp hunmoved), hacquired, ?_⟩
  rw [← hgained ⟨[k], []⟩ (.cons ⟨hrespelled, hcertain⟩ .nil), hacquired]

/-- One letter case of a plugin lets an actor pass a gate, and another does not. -/
theorem not_admits_of_capitals : ¬ ∀ (a b : Actor) (r : Rule), a.key.same b.key = true →
    identity a r = identity b r ∧ admits a r = admits b r := by
  intro hall
  let a : Actor := .ofKey ⟨"Skyrim.esm".toList, 16⟩ "Guard".toList
  let b : Actor := .ofKey ⟨"SKYRIM.ESM".toList, 16⟩ "Guard".toList
  let r : Rule := ⟨.barred, .outfit, "Outfit".toList, "X".toList, .everything, .everything, none,
    [], .nothing, none, 50, "Outfit = X||||||50".toList⟩
  have hadmits := (hall a b r (by decide +kernel)).2
  have hpasses : admits a r = true := by decide +kernel
  have hfails : admits b r = false := by decide +kernel
  rw [hpasses, hfails] at hadmits
  cases hadmits

end Gate

end Wardrobe
