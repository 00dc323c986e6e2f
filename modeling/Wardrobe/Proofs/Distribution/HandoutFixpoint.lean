import Mathlib
import Wardrobe.Proofs.Distribution.HandoutReading
import Wardrobe.Rule.Barred

/-!
# A handout as a fixpoint

A rule is judged when its turn comes, but the answer is the one that the end of the run gives.
When the text sections of the rules hold exact values only, a rule reads nothing but its references,
so that the chain is settled (`Chain.settled_of_readsReferences`). Hence the final keywords are a
fixpoint of the rules, judged all at once (`Handout.mem_final_iff`).
-/

namespace Wardrobe

/-- A rule whose text section holds exact values only, all of them among its references. -/
def KeywordRule.ReadsReferences (k : KeywordRule) : Prop :=
  ∀ c ∈ k.rule.texts.conditions, c.isWildcard = false ∧ Text.lower c.value ∈ k.references

/-! ## Exact values -/

/-- Only rules for keywords are taken as keyword rules. -/
lemma KeywordRule.gift_of_ofRule {r : Rule} {k : KeywordRule} (hk : ofRule? r = some k) :
    r.gift = .keyword := by
  unfold ofRule? at hk
  split at hk
  · assumption
  · cases hk

/-- A keyword rule keeps the rule that it was taken from. -/
lemma KeywordRule.rule_of_ofRule {r : Rule} {k : KeywordRule} (hk : ofRule? r = some k) :
    k.rule = r := by
  unfold ofRule? at hk
  split at hk
  · cases hk
    rfl
  · cases hk

/-- A rule taken as a keyword rule reads its references alone, when its text section holds exact
values only. -/
lemma KeywordRule.readsReferences_of_ofRule {r : Rule} {k : KeywordRule} (hk : ofRule? r = some k)
    (hexact : ∀ c ∈ r.texts.conditions, c.isWildcard = false) : k.ReadsReferences := by
  have hrule := rule_of_ofRule hk
  intro c hc
  have hopen : c.isWildcard = false := hexact c (hrule ▸ hc)
  exact ⟨hopen, lower_mem_references hk hc hopen⟩

/-- A chain of such rules is settled. -/
lemma Chain.settled_of_readsReferences {rules : List KeywordRule}
    (hreads : ∀ k ∈ rules, k.ReadsReferences) : Settled rules := by
  rintro k hk k' hk' ⟨c, hc, hread⟩ hne
  have hmem := (mem_ordered_iff.mp hk).1
  have hmem' := (mem_ordered_iff.mp hk').1
  obtain ⟨hexact, href⟩ := hreads k hmem c hc
  exact .single (feeds_of_reads hmem hmem' hread hexact href hne)

namespace Handout

/-- A set of keywords that an actor holds is a fixpoint of the rules of a chain: beyond what is
stored it has exactly the keywords for which some rule accepts the actor, judged by all the others.
-/
def IsFixpoint (chain : Chain) (a : Actor) (held : List Text) : Prop :=
  ∀ x, x ∉ a.keywordSet →
    (x ∈ held ↔ ∃ k ∈ chain.ordered, k.key = x ∧ k.Accepts a (held.filter (· != x)))

/-! ## The fixpoint -/

/-- When the rules read their references alone, a keyword that is not stored is held in the end
exactly if some rule of the chain for it accepts the actor, judged by the other keywords held. -/
lemma mem_final_iff {rules : List KeywordRule} {a : Actor}
    (hreads : ∀ k ∈ rules, k.ReadsReferences) {x : Text} (hx : x ∉ a.keywordSet) :
    x ∈ (final rules a).held ↔ ∃ k ∈ (Chain.ofRules rules).ordered, k.key = x ∧
      k.Accepts a ((final rules a).held.filter (· != x)) :=
  mem_final_iff_of_settled (Chain.settled_of_readsReferences hreads) hx

/-- When the keyword rules ask for exact texts only, an uncancelled handout gives every actor its
gains, and the keywords that it then holds are a fixpoint of the rules of the chain. -/
theorem acquired_isFixpoint (filters : List Rule) (actors : List Actor)
    (hexact : ∀ r ∈ filters, r.gift = .keyword →
      ∀ c ∈ r.texts.conditions, c.isWildcard = false) :
    let chain := Chain.ofRules (filters.filterMap KeywordRule.ofRule?)
    ∃ gains, acquiredUnless false chain actors = .ok gains ∧
      List.Forall₂ (fun a gain => IsFixpoint chain a (Holder.mk a gain).held) actors gains := by
  intro chain
  have hreads : ∀ k ∈ filters.filterMap KeywordRule.ofRule?, k.ReadsReferences := by
    intro k hk
    obtain ⟨r, hr, hkr⟩ := List.mem_filterMap.mp hk
    exact KeywordRule.readsReferences_of_ofRule hkr
      (hexact r hr (KeywordRule.gift_of_ofRule hkr))
  refine ⟨_, acquiredUnless_false chain actors, ?_⟩
  rw [List.forall₂_map_right_iff, List.forall₂_same]
  intro a _
  have hheld : (Holder.mk a ((fresh a).applyAll chain.ordered.zipIdx).acquired).held =
      (final (filters.filterMap KeywordRule.ofRule?) a).held := by
    rw [Holder.held, Holder.held, final, Holder.actor_applyAll]
    rfl
  rw [hheld]
  exact fun x hx => mem_final_iff hreads hx

/-- Two rules in the wrong order, one of which asks for a keyword to be missing.  The guard gains
`K1` and then `K2`; the citizen has the keyword and gains nothing. -/
theorem acquired_isFixpoint_of_negation :
    let filters := ["Keyword = K2|K1", "Keyword = K1|-ActorTypeNPC"].filterMap fun line =>
      (Barred.ruleOfLine .standard line.toList).toOption
    let guard := Actor.ofKey ⟨"Skyrim.esm".toList, 16⟩ "Guard".toList
    let citizen := { guard with keywords := ["ActorTypeNPC".toList] }
    let chain := Chain.ofRules (filters.filterMap KeywordRule.ofRule?)
    let gains := [[⟨"K1".toList, 0⟩, ⟨"K2".toList, 1⟩], []]
    filters.length = 2 ∧
      (∀ r ∈ filters, r.gift = .keyword → ∀ c ∈ r.texts.conditions, c.isWildcard = false) ∧
      acquiredUnless false chain [guard, citizen] = .ok gains ∧
      List.Forall₂ (fun a gain => IsFixpoint chain a (Holder.mk a gain).held) [guard, citizen]
        gains := by
  intro filters guard citizen chain gains
  have hexact : ∀ r ∈ filters, r.gift = .keyword →
      ∀ c ∈ r.texts.conditions, c.isWildcard = false := by decide +kernel
  have hgains : acquiredUnless false chain [guard, citizen] = .ok gains := by
    rw [acquiredUnless_false]
    exact congrArg Except.ok (by decide +kernel)
  obtain ⟨gains', hrun, hfixpoint⟩ := acquired_isFixpoint filters [guard, citizen] hexact
  obtain rfl : gains = gains' := Except.ok.inj (hgains.symm.trans hrun)
  exact ⟨by decide +kernel, hexact, hgains, hfixpoint⟩

end Handout

end Wardrobe
