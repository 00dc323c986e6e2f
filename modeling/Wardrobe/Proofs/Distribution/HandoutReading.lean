import Mathlib
import Wardrobe.Proofs.Distribution.ChainOrder
import Wardrobe.Proofs.Distribution.HandoutRun

/-!
# What a rule reads at its turn

Of the keywords that an actor holds, a rule sees those that its text section reads: an exact value
reads one keyword, an open one every keyword in which it occurs (`KeywordRule.Reads`).  A chain is
settled when dependencies lead to a rule from every other keyword of the chain that it reads
(`Chain.Settled`).  Then all rules for such a keyword stand before it, so that a rule which is not
passed over is judged at its turn as at the end of the run (`accepts_iff_final`).  Hence the
keywords held in the end satisfy one equation for each keyword, in which the order of the rules does
not occur (`mem_final_iff_of_settled`).
-/

namespace Wardrobe

/-- A text condition reads a keyword: its value is the keyword or, when a side is open, occurs in
it. -/
def Condition.Reads (c : Condition) (x : Text) : Prop :=
  if c.isWildcard then Text.occursIn (Text.lower c.value) x = true else x = Text.lower c.value

/-- A rule reads a keyword when a condition of its text section does. -/
def KeywordRule.Reads (k : KeywordRule) (x : Text) : Prop :=
  ∃ c ∈ k.rule.texts.conditions, c.Reads x

/-- From every other keyword of the chain that a rule of the chain reads, dependencies lead to the
keyword of the rule. -/
def Chain.Settled (rules : List KeywordRule) : Prop :=
  ∀ k ∈ (ofRules rules).ordered, ∀ k' ∈ (ofRules rules).ordered,
    k.Reads k'.key → k'.key ≠ k.key → Relation.TransGen (Feeds rules) k'.key k.key

/-! ## Reading -/

/-- A selection holds in the same cases when its conditions are hit in the same cases. -/
lemma Selection.holds_congr {s : Selection} {hit hit' : Condition → Bool}
    (h : ∀ c ∈ s.conditions, hit c = hit' c) : s.holds hit = s.holds hit' := by
  have hholds : ∀ c ∈ s.conditions, c.holds hit = c.holds hit' := fun c hc => by
    rw [Condition.holds, Condition.holds, h c hc]
  have hall : ∀ cs ⊆ s.conditions,
      cs.all (Condition.holds hit) = cs.all (Condition.holds hit') := by
    intro cs hcs
    rw [Bool.eq_iff_iff, List.all_eq_true, List.all_eq_true]
    exact forall₂_congr fun c hc => by rw [hholds c (hcs hc)]
  have hexcl := hall s.exclusions (List.subset_append_left _ _)
  have hgroups : s.groups.any (groupHolds hit) = s.groups.any (groupHolds hit') := by
    rw [Bool.eq_iff_iff, List.any_eq_true, List.any_eq_true]
    refine exists_congr fun g => and_congr_right fun hg => ?_
    rw [groupHolds, groupHolds, hall g.conditions fun c hc =>
      List.mem_append_right _ (List.mem_flatMap.mpr ⟨g, hg, hc⟩)]
  rw [holds, holds, hexcl, hgroups]

/-- A condition is hit in the same cases when the keywords that it reads are held in the same
cases. -/
lemma Actor.textHit_congr {a : Actor} {c : Condition} {held held' : List Text}
    (h : ∀ x, c.Reads x → (x ∈ held ↔ x ∈ held')) : a.textHit held c = a.textHit held' c := by
  unfold Condition.Reads at h
  unfold textHit
  cases hc : c.isWildcard with
  | false =>
    simp only [hc, Bool.false_eq_true, if_false, forall_eq] at h ⊢
    simp only [List.contains_eq_mem, h]
  | true =>
    simp only [hc, if_true] at h ⊢
    have hany : held.any (Text.occursIn (Text.lower c.value)) =
        held'.any (Text.occursIn (Text.lower c.value)) := by
      rw [Bool.eq_iff_iff, List.any_eq_true, List.any_eq_true]
      exact exists_congr fun x => and_congr_left fun hx => h x hx
    simp only [List.any_append, hany]

/-- A rule accepts an actor in the same cases when the keywords that it reads are held in the same
cases. -/
lemma KeywordRule.accepts_congr {k : KeywordRule} {a : Actor} {held held' : List Text}
    (h : ∀ x, k.Reads x → (x ∈ held ↔ x ∈ held')) : k.Accepts a held ↔ k.Accepts a held' := by
  have htexts : k.rule.texts.holds (a.textHit held) = k.rule.texts.holds (a.textHit held') := by
    refine Selection.holds_congr fun c hc => Actor.textHit_congr fun x hx => ?_
    exact h x ⟨c, hc, hx⟩
  have hselects : k.rule.selects a held = k.rule.selects a held' := by
    unfold Rule.selects
    rw [htexts]
  unfold Accepts
  rw [hselects]

/-- The exact values of a keyword rule's text section are its references. -/
lemma KeywordRule.lower_mem_references {r : Rule} {k : KeywordRule} (hk : ofRule? r = some k)
    {c : Condition} (hc : c ∈ k.rule.texts.conditions) (hexact : c.isWildcard = false) :
    Text.lower c.value ∈ k.references := by
  unfold ofRule? at hk
  split at hk
  · cases hk
    have hmem : c ∈ r.texts.conditions.filter fun c => !c.isWildcard := by
      rw [List.mem_filter, hexact]
      exact ⟨hc, rfl⟩
    exact Text.mem_sortedSet.mpr (List.mem_map_of_mem hmem)
  · cases hk

/-- A rule depends on a keyword that it reads by an exact value. -/
lemma Chain.feeds_of_reads {rules : List KeywordRule} {k k' : KeywordRule} (hk : k ∈ rules)
    (hk' : k' ∈ rules) {c : Condition} (hread : c.Reads k'.key) (hexact : c.isWildcard = false)
    (href : Text.lower c.value ∈ k.references) (hne : k'.key ≠ k.key) :
    Feeds rules k'.key k.key := by
  unfold Condition.Reads at hread
  simp only [hexact, Bool.false_eq_true, if_false] at hread
  exact ⟨hne, ⟨k', hk', rfl⟩, k, hk, rfl, hread ▸ href⟩

namespace Handout

variable {rules : List KeywordRule} {a : Actor} {before after : List (KeywordRule × Nat)}
  {s : KeywordRule × Nat} {x : Text}

/-- The holder at the end of a run over a chain. -/
def final (rules : List KeywordRule) (a : Actor) : Holder :=
  (fresh a).applyAll (Chain.ofRules rules).ordered.zipIdx

/-- Stored keywords are held in the end. -/
lemma mem_final_of_mem_keywordSet (hx : x ∈ a.keywordSet) : x ∈ (final rules a).held := by
  have hstart : x ∈ (fresh a).held := by rwa [held_fresh]
  exact Holder.held_subset_applyAll _ _ hstart

/-- Whatever else is held in the end is the keyword of a rule of the chain. -/
lemma exists_key_of_mem_final (h : x ∈ (final rules a).held) (hx : x ∉ a.keywordSet) :
    ∃ k ∈ (Chain.ofRules rules).ordered, k.key = x := by
  have hnew : x ∉ (fresh a).held := by rwa [held_fresh]
  obtain ⟨s, hs, hkey⟩ := Holder.exists_key_of_mem_held h hnew
  exact ⟨s.1, List.fst_mem_of_mem_zipIdx hs, hkey⟩

/-! ## The turn of a rule and the end of the run -/

/-- At the turn of a rule the other keywords that it reads are held exactly if they are in the
end. -/
lemma mem_held_iff_mem_final (hsettled : Chain.Settled rules)
    (hsplit : (Chain.ofRules rules).ordered.zipIdx = before ++ s :: after)
    (hx : s.1.Reads x) (hne : x ≠ s.1.key) :
    x ∈ ((fresh a).applyAll before).held ↔ x ∈ (final rules a).held := by
  have hfinal : final rules a = ((fresh a).applyAll before).applyAll (s :: after) := by
    rw [final, hsplit, Holder.applyAll_append]
  have hordered : (Chain.ofRules rules).ordered = (before ++ s :: after).map Prod.fst := by
    rw [← hsplit, List.zipIdx_map_fst]
  rw [hfinal]
  constructor
  · intro h
    exact Holder.held_subset_applyAll _ _ h
  · intro h
    by_contra hnew
    obtain ⟨s', hs', rfl⟩ := Holder.exists_key_of_mem_held h hnew
    rcases List.mem_cons.mp hs' with rfl | hs'
    · exact hne rfl
    · -- a rule that comes later hands out `x`, but dependencies lead from `x` to `s`
      have hk : s.1 ∈ (Chain.ofRules rules).ordered := by
        rw [hordered]
        exact List.mem_map_of_mem (List.mem_append_right _ List.mem_cons_self)
      have hk' : s'.1 ∈ (Chain.ofRules rules).ordered := by
        rw [hordered]
        exact List.mem_map_of_mem (List.mem_append_right _ (List.mem_cons_of_mem _ hs'))
      have hpair := Chain.ordered_pairwise_transGen rules
      rw [hordered, List.pairwise_map, List.pairwise_append, List.pairwise_cons] at hpair
      exact hpair.2.1.1 s' hs' (hsettled _ hk _ hk' hx hne)

/-- A rule whose keyword is not held at its turn is judged as at the end of the run, its own keyword
aside. -/
lemma accepts_iff_final (hsettled : Chain.Settled rules)
    (hsplit : (Chain.ofRules rules).ordered.zipIdx = before ++ s :: after)
    (hnew : s.1.key ∉ ((fresh a).applyAll before).held) :
    s.1.Accepts a ((fresh a).applyAll before).held ↔
      s.1.Accepts a ((final rules a).held.filter (· != s.1.key)) := by
  refine KeywordRule.accepts_congr fun x hx => ?_
  rw [List.mem_filter, bne_iff_ne]
  by_cases hne : x = s.1.key
  · subst hne
    simp only [hnew, ne_eq, not_true_eq_false, and_false]
  · rw [mem_held_iff_mem_final hsettled hsplit hx hne]
    simp only [ne_eq, hne, not_false_eq_true, and_true]

/-- In the end a keyword that is not stored is held exactly if some rule of the chain for it accepts
the actor, judged by the other keywords held in the end. -/
lemma mem_final_iff_of_settled (hsettled : Chain.Settled rules) (hx : x ∉ a.keywordSet) :
    x ∈ (final rules a).held ↔ ∃ k ∈ (Chain.ofRules rules).ordered, k.key = x ∧
      k.Accepts a ((final rules a).held.filter (· != x)) := by
  constructor
  · intro h
    have hstart : x ∉ (fresh a).held := by rwa [held_fresh]
    obtain ⟨before, s, after, hsplit, rfl, hnew, haccept⟩ :=
      Holder.exists_accepted_of_mem_held h hstart
    have hs : s ∈ (Chain.ofRules rules).ordered.zipIdx := by
      rw [hsplit]
      exact List.mem_append_right _ List.mem_cons_self
    exact ⟨s.1, List.fst_mem_of_mem_zipIdx hs, rfl,
      (accepts_iff_final hsettled hsplit hnew).mp haccept⟩
  · rintro ⟨k, hk, rfl, haccept⟩
    rw [← List.zipIdx_map_fst 0 (Chain.ofRules rules).ordered, List.mem_map] at hk
    obtain ⟨s, hs, rfl⟩ := hk
    obtain ⟨before, after, hsplit⟩ := List.append_of_mem hs
    have hfinal : final rules a =
        (((fresh a).applyAll before).apply s.1 s.2).applyAll after := by
      rw [final, hsplit, Holder.applyAll_append, Holder.applyAll_cons]
    rw [hfinal]
    refine Holder.held_subset_applyAll _ _ (Holder.mem_held_apply.mpr ?_)
    by_cases hold : s.1.key ∈ ((fresh a).applyAll before).held
    · exact Or.inl hold
    · rw [Holder.actor_applyAll]
      exact Or.inr ⟨rfl, (accepts_iff_final hsettled hsplit hold).mpr haccept⟩

end Handout

end Wardrobe
