import Mathlib
import Wardrobe.Proofs.Distribution.HandoutRun

/-!
# The books of a handout

After any number of rules the books say what happened.  `Earned` lists what has to be true of the
entries of one actor: the keywords that it has are those stored on it and those it gained, each of
them once, and it gained exactly from the rules that accepted it at their turn, judged by the
keywords from before.  A rule keeps this (`Earned.apply`), so it holds after every run
(`earned_applyAll`) and of the books of a whole population at every point of its run
(`booksAfter_areSound`).
-/

namespace Wardrobe.Handout

/-- The keywords that an actor had before the rule at some position: the stored ones and those
gained at smaller positions. -/
def heldBefore (a : Actor) (acquired : List Acquisition) (step : Nat) : List Text :=
  a.keywordSet ++ (acquired.filter (·.step < step)).map fun g => Text.lower g.keyword

/-- What it means that an actor came by its entries through some rules. -/
structure Earned (rules : List KeywordRule) (a : Actor) (held : List Text)
    (acquired : List Acquisition) : Prop where
  /-- The actor has its stored keywords and the gained ones in lower case. -/
  mem_held_iff : ∀ x, x ∈ held ↔ x ∈ a.keywordSet ∨ ∃ g ∈ acquired, Text.lower g.keyword = x
  /-- No gained keyword is stored. -/
  not_stored : ∀ g ∈ acquired, Text.lower g.keyword ∉ a.keywordSet
  /-- No keyword is gained twice. -/
  distinct : (acquired.map fun g => Text.lower g.keyword).Nodup
  /-- Gains stand in the order of the rules, at most one for each. -/
  ascending : acquired.Pairwise fun g g' => g.step < g'.step
  /-- The rule at the step of a gain hands out its keyword, and the gate and the rule admitted the
  actor with the keywords that it had before. -/
  granted : ∀ g ∈ acquired, ∃ k, rules[g.step]? = some k ∧ k.keyword = g.keyword ∧
    k.Accepts a (heldBefore a acquired g.step)
  /-- Every rule that accepted the actor when it did not have the keyword made a gain. -/
  complete : ∀ i k, rules[i]? = some k → k.key ∉ heldBefore a acquired i →
    k.Accepts a (heldBefore a acquired i) → ∃ g ∈ acquired, g.step = i

/-- The books of a population after the first `n` rules of a chain. -/
def booksAfter (chain : Chain) (actors : List Actor) (n : Nat) : Books :=
  (chain.ordered.zipIdx.take n).foldl (applyRule actors) (start actors)

/-- What it means that books are right for each actor of a population. -/
structure Books.AreSound (rules : List KeywordRule) (actors : List Actor) (books : Books) :
    Prop where
  length_held : books.held.length = actors.length
  length_acquired : books.acquired.length = actors.length
  earned : ∀ (i : Nat) (a : Actor) (held : List Text) (acquired : List Acquisition),
    actors[i]? = some a → books.held[i]? = some held → books.acquired[i]? = some acquired →
      Earned rules a held acquired

variable {rules : List KeywordRule} {h : Holder} {g : Acquisition} {a : Actor} {n : Nat}

/-! ## One rule -/

namespace Earned

/-- A gain was made at the position of a rule. -/
lemma step_lt (he : Earned rules h.actor h.held h.acquired) (hg : g ∈ h.acquired) :
    g.step < rules.length := by
  obtain ⟨k, hk, -⟩ := he.granted g hg
  exact (List.getElem?_eq_some_iff.mp hk).1

/-- Before the next rule an actor has all that it gained. -/
lemma heldBefore_length (he : Earned rules h.actor h.held h.acquired) :
    heldBefore h.actor h.acquired rules.length = h.held := by
  have hall : h.acquired.filter (·.step < rules.length) = h.acquired :=
    List.filter_eq_self.mpr fun g hg => decide_eq_true (he.step_lt hg)
  rw [heldBefore, hall]
  rfl

/-- A gain at the next rule does not count for the rules before. -/
lemma heldBefore_gain (keyword : Text) (hn : n ≤ rules.length) :
    heldBefore h.actor (h.gain ⟨keyword, rules.length⟩).acquired n =
      heldBefore h.actor h.acquired n := by
  have hnew : [(⟨keyword, rules.length⟩ : Acquisition)].filter (·.step < n) = [] := by
    simpa using hn
  rw [heldBefore, Holder.gain, List.filter_append, hnew, List.append_nil, heldBefore]

/-- A gain goes back to the same rule when one more rule follows. -/
lemma granted_concat (he : Earned rules h.actor h.held h.acquired) (k : KeywordRule) :
    ∀ g ∈ h.acquired, ∃ k', (rules ++ [k])[g.step]? = some k' ∧ k'.keyword = g.keyword ∧
      k'.Accepts h.actor (heldBefore h.actor h.acquired g.step) := by
  intro g hg
  obtain ⟨k', hk', hgrant⟩ := he.granted g hg
  exact ⟨k', by rwa [List.getElem?_append_left (he.step_lt hg)], hgrant⟩

/-- The position of a rule is one of the old ones or the next. -/
lemma lt_or_eq_of_concat {i : Nat} {k k' : KeywordRule} (hk' : (rules ++ [k])[i]? = some k') :
    i < rules.length ∧ rules[i]? = some k' ∨ i = rules.length ∧ k' = k := by
  have hi : i < (rules ++ [k]).length := (List.getElem?_eq_some_iff.mp hk').1
  rw [List.length_append, List.length_singleton, Nat.lt_succ_iff] at hi
  rcases hi.lt_or_eq with hlt | rfl
  · rw [List.getElem?_append_left hlt] at hk'
    exact Or.inl ⟨hlt, hk'⟩
  · rw [List.getElem?_concat_length, Option.some.injEq] at hk'
    exact Or.inr ⟨rfl, hk'.symm⟩

/-- A rule that is passed over or refused leaves the entries right. -/
lemma pass (he : Earned rules h.actor h.held h.acquired) {k : KeywordRule}
    (hpass : k.key ∈ h.held ∨ ¬k.Accepts h.actor h.held) :
    Earned (rules ++ [k]) h.actor h.held h.acquired where
  mem_held_iff := he.mem_held_iff
  not_stored := he.not_stored
  distinct := he.distinct
  ascending := he.ascending
  granted := he.granted_concat k
  complete := by
    intro i k' hk' hnew haccept
    obtain ⟨-, hk'⟩ | ⟨rfl, rfl⟩ := lt_or_eq_of_concat hk'
    · exact he.complete i k' hk' hnew haccept
    · rw [he.heldBefore_length] at hnew haccept
      exact (hpass.elim hnew fun hrefuse => hrefuse haccept).elim

/-- An actor comes by a gain through a rule that accepts it. -/
lemma gain (he : Earned rules h.actor h.held h.acquired) {k : KeywordRule}
    (hnew : k.key ∉ h.held) (haccept : k.Accepts h.actor h.held) :
    Earned (rules ++ [k]) h.actor (h.gain ⟨k.keyword, rules.length⟩).held
      (h.gain ⟨k.keyword, rules.length⟩).acquired where
  mem_held_iff := by
    intro x
    rw [Holder.held_gain, Holder.gain, List.mem_append, he.mem_held_iff, or_assoc]
    simp only [List.mem_append, List.mem_singleton, or_and_right, exists_or, exists_eq_left,
      eq_comm]
  not_stored := by
    have hstored : k.key ∉ h.actor.keywordSet := fun hk => hnew (List.mem_append_left _ hk)
    exact List.forall_mem_append.mpr ⟨he.not_stored, List.forall_mem_singleton.mpr hstored⟩
  distinct := by
    have hgained : k.key ∉ h.gained := fun hk => hnew (List.mem_append_right _ hk)
    rw [Holder.gain, List.map_append, List.map_singleton]
    refine List.nodup_append.mpr ⟨he.distinct, List.nodup_singleton _, ?_⟩
    rintro x hx y hy rfl
    obtain rfl : x = k.key := List.mem_singleton.mp hy
    exact hgained hx
  ascending := by
    refine List.pairwise_append.mpr ⟨he.ascending, List.pairwise_singleton _ _, ?_⟩
    intro g hg g' hg'
    rw [List.mem_singleton.mp hg']
    exact he.step_lt hg
  granted := by
    refine List.forall_mem_append.mpr ⟨fun g hg => ?_, List.forall_mem_singleton.mpr ?_⟩
    · rw [heldBefore_gain k.keyword (he.step_lt hg).le]
      exact he.granted_concat k g hg
    · rw [heldBefore_gain k.keyword le_rfl, he.heldBefore_length]
      exact ⟨k, List.getElem?_concat_length, rfl, haccept⟩
  complete := by
    intro i k' hk' hnew' haccept'
    obtain ⟨hi, hk'⟩ | ⟨rfl, -⟩ := lt_or_eq_of_concat hk'
    · rw [heldBefore_gain k.keyword hi.le] at hnew' haccept'
      obtain ⟨g, hg, hstep⟩ := he.complete i k' hk' hnew' haccept'
      exact ⟨g, List.mem_append_left _ hg, hstep⟩
    · exact ⟨_, List.mem_append_right _ List.mem_cons_self, rfl⟩

/-- A rule that is applied at its position keeps the entries of an actor right. -/
lemma apply (he : Earned rules h.actor h.held h.acquired) (k : KeywordRule) :
    Earned (rules ++ [k]) h.actor (h.apply k rules.length).held
      (h.apply k rules.length).acquired := by
  obtain ⟨hheld, hstep⟩ | ⟨-, hrefuse, hstep⟩ | ⟨hnew, haccept, hstep⟩ :=
    h.apply_cases k rules.length
  · rw [hstep]
    exact he.pass (Or.inl hheld)
  · rw [hstep]
    exact he.pass (Or.inr hrefuse)
  · rw [hstep]
    exact he.gain hnew haccept

end Earned

/-! ## Many rules -/

/-- An actor comes by its entries through the rules that were applied. -/
lemma earned_applyAll (rules : List KeywordRule) (a : Actor) :
    Earned rules a ((fresh a).applyAll rules.zipIdx).held
      ((fresh a).applyAll rules.zipIdx).acquired := by
  induction rules using List.reverseRecOn with
  | nil =>
    refine ⟨fun x => ?_, nofun, List.nodup_nil, List.Pairwise.nil, nofun, fun i k hk => ?_⟩
    · simp [fresh, Holder.held, Holder.gained]
    · rw [List.getElem?_nil] at hk
      cases hk
  | append_singleton rules k ih =>
    have hactor : ((fresh a).applyAll rules.zipIdx).actor = a := Holder.actor_applyAll _ _
    have hstep := Earned.apply (h := (fresh a).applyAll rules.zipIdx) (by rwa [hactor]) k
    rw [List.zipIdx_append, Holder.applyAll_append, Nat.zero_add]
    rwa [hactor] at hstep

/-- The books after some rules are those of the actors, each after a run of its own. -/
lemma booksAfter_eq (chain : Chain) (actors : List Actor) (n : Nat) :
    booksAfter chain actors n =
      .ofHolders (actors.map fun a => (fresh a).applyAll (chain.ordered.take n).zipIdx) := by
  have htake : chain.ordered.zipIdx.take n = (chain.ordered.take n).zipIdx := by
    refine List.ext_getElem? fun i => ?_
    rw [List.getElem?_take, List.getElem?_zipIdx, List.getElem?_zipIdx, List.getElem?_take]
    split <;> rfl
  rw [booksAfter, foldl_applyRule_start, htake]

/-- The books of a run are right after any number of rules.  At the end they give what is acquired:
a list for each actor, whose lengths add up to the total. -/
theorem booksAfter_areSound (chain : Chain) (actors : List Actor) :
    (∀ n, (booksAfter chain actors n).AreSound (chain.ordered.take n) actors) ∧
      ∃ gains, acquiredUnless false chain actors = .ok gains ∧
        gains = (booksAfter chain actors chain.ordered.length).acquired ∧
        gains.length = actors.length ∧ total gains = (gains.map List.length).sum := by
  refine ⟨fun n => ?_, _, rfl, ?_, ?_, ?_⟩
  · rw [booksAfter_eq]
    refine ⟨by simp [Books.ofHolders], by simp [Books.ofHolders], ?_⟩
    intro i a held acquired ha hheld hacquired
    simp only [Books.ofHolders, List.getElem?_map, ha, Option.map_some, Option.some.injEq]
      at hheld hacquired
    rw [← hheld, ← hacquired]
    exact earned_applyAll _ a
  · rw [booksAfter, List.take_of_length_le (List.length_zipIdx.le)]
    rfl
  · rw [acquired_eq_map, List.length_map]
  · rw [total, List.length_flatten]

end Wardrobe.Handout
