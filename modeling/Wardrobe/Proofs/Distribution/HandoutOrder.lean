import Mathlib
import Wardrobe.Proofs.Distribution.HandoutReading
import Wardrobe.Rule.Barred

/-!
# The order in which keyword rules are given

A settled chain leaves every actor with the same keywords in whatever order its rules are given: the
equation of a keyword (`mem_final_iff_of_settled`) mentions only keywords of smaller rank, so it has
one solution (`mem_final_congr`).

References are exact values, so an open condition may read a keyword on which its rule does not
depend.  Then the order counts.  A chain is settled when no open condition does so
(`Chain.OpenSettled`).
-/

namespace Wardrobe

namespace Chain

/-- Whenever an open text condition of a rule of the chain occurs in the keyword of another one,
dependencies lead from that keyword to the keyword of the rule. -/
def OpenSettled (rules : List KeywordRule) : Prop :=
  ∀ k ∈ (ofRules rules).ordered, ∀ c ∈ k.rule.texts.conditions, c.isWildcard = true →
    ∀ k' ∈ (ofRules rules).ordered, k'.key ≠ k.key →
      Text.occursIn (Text.lower c.value) k'.key = true →
        Relation.TransGen (Feeds rules) k'.key k.key

variable {rules rules' : List KeywordRule}

/-- Rules taken as keyword rules form a settled chain when their open conditions do. -/
lemma settled_of_openSettled {filters : List Rule}
    (hopen : OpenSettled (filters.filterMap KeywordRule.ofRule?)) :
    Settled (filters.filterMap KeywordRule.ofRule?) := by
  rintro k hk k' hk' ⟨c, hc, hread⟩ hne
  cases hw : c.isWildcard with
  | true =>
    have hoccurs : Text.occursIn (Text.lower c.value) k'.key = true := by
      unfold Condition.Reads at hread
      simpa only [hw, if_true] using hread
    exact hopen k hk c hc hw k' hk' hne hoccurs
  | false =>
    have hmem := (mem_ordered_iff.mp hk).1
    have hmem' := (mem_ordered_iff.mp hk').1
    obtain ⟨r, -, hr⟩ := List.mem_filterMap.mp hmem
    have href := KeywordRule.lower_mem_references hr hc hw
    exact .single (feeds_of_reads hmem hmem' hread hw href hne)

/-! ## The same rules in another order -/

/-- Dependencies do not see the order of the rules. -/
lemma feeds_congr (hmem : ∀ k, k ∈ rules ↔ k ∈ rules') : Feeds rules = Feeds rules' := by
  funext a b
  simp only [Feeds, Emits, hmem]

/-- The rules of the chain are the same. -/
lemma mem_ordered_congr (hmem : ∀ k, k ∈ rules ↔ k ∈ rules') (k : KeywordRule) :
    k ∈ (ofRules rules).ordered ↔ k ∈ (ofRules rules').ordered := by
  rw [mem_ordered_iff, mem_ordered_iff, BehindCycle, BehindCycle, feeds_congr hmem, hmem]

/-- A chain stays settled. -/
lemma Settled.congr (hsettled : Settled rules) (hmem : ∀ k, k ∈ rules ↔ k ∈ rules') :
    Settled rules' := by
  intro k hk k' hk' hread hne
  rw [← mem_ordered_congr hmem] at hk hk'
  rw [← feeds_congr hmem]
  exact hsettled k hk k' hk' hread hne

end Chain

namespace Handout

/-- The keywords that each actor holds after its gains. -/
def holdings (actors : List Actor) (gains : List (List Acquisition)) : List (Set Text) :=
  List.zipWith (fun a gain => {x | x ∈ (Holder.mk a gain).held}) actors gains

variable {rules rules' : List KeywordRule} {a : Actor}

/-- A rule accepts an actor in the same cases at the end of two runs, if they agree on the other
keywords of the chain that it reads. -/
lemma accepts_final_congr (hmem : ∀ k, k ∈ rules ↔ k ∈ rules') {k : KeywordRule} {x : Text}
    (hagree : ∀ k' ∈ (Chain.ofRules rules).ordered, k.Reads k'.key → k'.key ≠ x →
      (k'.key ∈ (final rules a).held ↔ k'.key ∈ (final rules' a).held)) :
    k.Accepts a ((final rules a).held.filter (· != x)) ↔
      k.Accepts a ((final rules' a).held.filter (· != x)) := by
  refine KeywordRule.accepts_congr fun y hy => ?_
  rw [List.mem_filter, List.mem_filter, bne_iff_ne]
  refine and_congr_left fun hne => ?_
  by_cases hstored : y ∈ a.keywordSet
  · have h : y ∈ (final rules a).held := mem_final_of_mem_keywordSet hstored
    have h' : y ∈ (final rules' a).held := mem_final_of_mem_keywordSet hstored
    exact iff_of_true h h'
  · constructor
    · intro h
      obtain ⟨k', hk', rfl⟩ := exists_key_of_mem_final h hstored
      exact (hagree k' hk' hy hne).mp h
    · intro h
      obtain ⟨k', hk', rfl⟩ := exists_key_of_mem_final h hstored
      rw [← Chain.mem_ordered_congr hmem] at hk'
      exact (hagree k' hk' hy hne).mpr h

/-- A settled chain leaves an actor with the same keywords when its rules are given in another
order. -/
lemma mem_final_congr (hmem : ∀ k, k ∈ rules ↔ k ∈ rules') (hsettled : Chain.Settled rules)
    (x : Text) : x ∈ (final rules a).held ↔ x ∈ (final rules' a).held := by
  -- by induction on the rank of the keyword: its equation reads keywords of smaller rank
  induction hrank : (Chain.sortedKeys rules).idxOf x using Nat.strong_induction_on
    generalizing x with
  | _ n ih =>
    by_cases hx : x ∈ a.keywordSet
    · have h : x ∈ (final rules a).held := mem_final_of_mem_keywordSet hx
      have h' : x ∈ (final rules' a).held := mem_final_of_mem_keywordSet hx
      exact iff_of_true h h'
    · have hsettled' : Chain.Settled rules' := hsettled.congr hmem
      rw [mem_final_iff_of_settled hsettled hx, mem_final_iff_of_settled hsettled' hx]
      refine exists_congr fun k => ?_
      rw [← Chain.mem_ordered_congr hmem]
      refine and_congr_right fun hk => and_congr_right fun hkey => ?_
      obtain ⟨hkmem, hfree⟩ := Chain.mem_ordered_iff.mp hk
      have hsorted : k.key ∈ Chain.sortedKeys rules :=
        Chain.mem_sortedKeys_iff.mpr ⟨⟨k, hkmem, rfl⟩, hfree⟩
      refine accepts_final_congr hmem fun k' hk' hread hne => ?_
      have hdepends := hsettled k hk k' hk' hread (hkey ▸ hne)
      have hlt := (Chain.idxOf_lt_of_transGen hdepends hsorted).2
      rw [hkey, hrank] at hlt
      exact ih _ hlt _ rfl

/-- What the actors hold after an uncancelled handout. -/
lemma holdings_acquired (rules : List KeywordRule) (actors : List Actor) :
    ∃ gains, acquiredUnless false (Chain.ofRules rules) actors = .ok gains ∧
      gains.length = actors.length ∧
        holdings actors gains = actors.map fun a => {x | x ∈ (final rules a).held} := by
  refine ⟨_, acquiredUnless_false _ actors, List.length_map _, ?_⟩
  unfold holdings
  rw [List.zipWith_map_right, List.zipWith_self]
  refine List.map_congr_left fun a _ => ?_
  unfold Holder.held final
  rw [Holder.actor_applyAll]
  rfl

/-- When open conditions read only keywords on which their rules depend, an uncancelled handout
leaves every actor with the same keywords in whatever order the rules are given. -/
theorem holdings_perm {filters filters' : List Rule} (hperm : filters.Perm filters')
    (hopen : Chain.OpenSettled (filters.filterMap KeywordRule.ofRule?)) (actors : List Actor) :
    ∃ gains gains',
      acquiredUnless false (.ofRules (filters.filterMap KeywordRule.ofRule?)) actors = .ok gains ∧
      acquiredUnless false (.ofRules (filters'.filterMap KeywordRule.ofRule?)) actors =
        .ok gains' ∧
      gains.length = actors.length ∧ gains'.length = actors.length ∧
      holdings actors gains = holdings actors gains' := by
  obtain ⟨gains, hrun, hlength, hheld⟩ :=
    holdings_acquired (filters.filterMap KeywordRule.ofRule?) actors
  obtain ⟨gains', hrun', hlength', hheld'⟩ :=
    holdings_acquired (filters'.filterMap KeywordRule.ofRule?) actors
  refine ⟨gains, gains', hrun, hrun', hlength, hlength', ?_⟩
  have hmem : ∀ k, k ∈ filters.filterMap KeywordRule.ofRule? ↔
      k ∈ filters'.filterMap KeywordRule.ofRule? := fun k =>
    (hperm.filterMap KeywordRule.ofRule?).mem_iff
  have hsettled := Chain.settled_of_openSettled hopen
  rw [hheld, hheld']
  refine List.map_congr_left fun a _ => ?_
  ext x
  exact mem_final_congr hmem hsettled x

/-- An open condition beside an exact one, which names the keyword that it occurs in. -/
theorem holdings_perm_of_exact_beside_open :
    let filters := ["Keyword = Watch|Duty+*Dut", "Keyword = Duty|-ActorTypeAnimal"].filterMap
      fun line => (Barred.ruleOfLine .standard line.toList).toOption
    let actors := [Actor.ofKey ⟨"Skyrim.esm".toList, 16⟩ "Nazeem".toList]
    filters.length = 2 ∧ filters.Perm filters.reverse ∧
      Chain.OpenSettled (filters.filterMap KeywordRule.ofRule?) ∧
      ∃ gains gains',
        acquiredUnless false (.ofRules (filters.filterMap KeywordRule.ofRule?)) actors =
          .ok gains ∧
        acquiredUnless false (.ofRules (filters.reverse.filterMap KeywordRule.ofRule?)) actors =
          .ok gains' ∧
        gains.length = actors.length ∧ gains'.length = actors.length ∧
        holdings actors gains = holdings actors gains' := by
  intro filters actors
  have href : ∀ k ∈ filters.filterMap KeywordRule.ofRule?,
      ∀ k' ∈ filters.filterMap KeywordRule.ofRule?, k'.key ≠ k.key →
        (∃ c ∈ k.rule.texts.conditions, c.isWildcard = true ∧
          Text.occursIn (Text.lower c.value) k'.key = true) → k'.key ∈ k.references := by
    decide +kernel
  have hopen : Chain.OpenSettled (filters.filterMap KeywordRule.ofRule?) := by
    intro k hk c hc hw k' hk' hne hoccurs
    have hmem := (Chain.mem_ordered_iff.mp hk).1
    have hmem' := (Chain.mem_ordered_iff.mp hk').1
    have hk'ref := href k hmem k' hmem' hne ⟨c, hc, hw, hoccurs⟩
    exact .single ⟨hne, ⟨k', hmem', rfl⟩, k, hmem, rfl, hk'ref⟩
  have hperm : filters.Perm filters.reverse := (List.reverse_perm filters).symm
  exact ⟨by decide +kernel, hperm, hopen, holdings_perm hperm hopen actors⟩

/-- Without that hypothesis the order counts: an open condition is no reference, so its rule may be
judged before the keyword that it reads is handed out. -/
theorem holdings_ne_of_open_condition :
    let filters := ["Keyword = FooBar", "Keyword = K1|*Foo"].filterMap
      fun line => (Barred.ruleOfLine .standard line.toList).toOption
    let actors := [Actor.ofKey ⟨"Skyrim.esm".toList, 16⟩ "Guard".toList]
    filters.length = 2 ∧ filters.Perm filters.reverse ∧
      ∃ gains gains',
        acquiredUnless false (.ofRules (filters.filterMap KeywordRule.ofRule?)) actors =
          .ok gains ∧
        acquiredUnless false (.ofRules (filters.reverse.filterMap KeywordRule.ofRule?)) actors =
          .ok gains' ∧
        holdings actors gains ≠ holdings actors gains' := by
  intro filters actors
  refine ⟨by decide +kernel, (List.reverse_perm filters).symm,
    [[⟨"FooBar".toList, 0⟩, ⟨"K1".toList, 1⟩]], [[⟨"FooBar".toList, 1⟩]],
    by decide +kernel, by decide +kernel, fun heq => ?_⟩
  have hmem : "k1".toList ∈
      (Holder.mk (Actor.ofKey ⟨"Skyrim.esm".toList, 16⟩ "Guard".toList)
        [⟨"FooBar".toList, 1⟩]).held := by
    have hset := (List.cons.inj heq).1
    have hfirst : "k1".toList ∈
        (Holder.mk (Actor.ofKey ⟨"Skyrim.esm".toList, 16⟩ "Guard".toList)
          [⟨"FooBar".toList, 0⟩, ⟨"K1".toList, 1⟩]).held := by
      decide +kernel
    exact (Set.ext_iff.mp hset _).mp hfirst
  revert hmem
  decide +kernel

end Handout

end Wardrobe
