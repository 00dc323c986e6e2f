import Mathlib
import Wardrobe.Distribution.Handout

/-!
# Runs of a handout

The rules of a chain reach every actor on its own.  A *holder* is an actor with what it has gained;
its entry among the held keywords is `Holder.held`, so that the books of a population are those of
its holders (`Handout.run_eq_map`).  What one rule does to a holder is said once, by `apply_cases`;
from it follow the facts about whole runs, which only ever add keywords (`held_subset_applyAll`),
and only keywords of rules that accepted the actor at their turn (`exists_accepted_of_mem_held`).
-/

namespace Wardrobe

/-- An actor with the keywords that it has gained so far. -/
structure Holder where
  actor : Actor
  acquired : List Acquisition

/-- A rule selects an actor that holds some keywords, and the gate lets it pass. -/
def KeywordRule.Accepts (k : KeywordRule) (a : Actor) (held : List Text) : Prop :=
  Gate.admits a k.rule = true ∧ k.rule.selects a held = true

namespace Holder

/-- The gained keywords in lower case. -/
def gained (h : Holder) : List Text :=
  h.acquired.map fun a => Text.lower a.keyword

/-- Every keyword held, stored or gained. -/
def held (h : Holder) : List Text :=
  h.actor.keywordSet ++ h.gained

/-- A holder with one more gain. -/
def gain (h : Holder) (g : Acquisition) : Holder :=
  { h with acquired := h.acquired ++ [g] }

/-- Applies one rule. -/
def apply (h : Holder) (k : KeywordRule) (step : Nat) : Holder :=
  { h with acquired := (Handout.enter k step h.actor h.held h.acquired).2 }

/-- A holder after some numbered rules. -/
def applyAll (h : Holder) (steps : List (KeywordRule × Nat)) : Holder :=
  steps.foldl (fun h s => h.apply s.1 s.2) h

variable {h : Holder} {k : KeywordRule} {n : Nat} {steps : List (KeywordRule × Nat)} {x : Text}

/-! ## One rule -/

/-- A gained keyword is held. -/
lemma held_gain (h : Holder) (g : Acquisition) :
    (h.gain g).held = h.held ++ [Text.lower g.keyword] := by
  simp [held, gained, gain]

/-- A rule is passed over when its keyword is held, refused when it does not accept the actor, and
adds its keyword otherwise. -/
lemma apply_cases (h : Holder) (k : KeywordRule) (n : Nat) :
    k.key ∈ h.held ∧ h.apply k n = h ∨
      k.key ∉ h.held ∧ ¬k.Accepts h.actor h.held ∧ h.apply k n = h ∨
      k.key ∉ h.held ∧ k.Accepts h.actor h.held ∧ h.apply k n = h.gain ⟨k.keyword, n⟩ := by
  unfold apply Handout.enter KeywordRule.Accepts
  split
  · next hheld => exact Or.inl ⟨List.contains_iff_mem.mp hheld, rfl⟩
  · next hnew =>
    rw [List.contains_iff_mem] at hnew
    split
    · next haccept =>
      rw [Bool.and_eq_true] at haccept
      exact Or.inr (Or.inr ⟨hnew, haccept.symm, rfl⟩)
    · next hrefuse =>
      rw [Bool.and_eq_true] at hrefuse
      exact Or.inr (Or.inl ⟨hnew, fun h => hrefuse h.symm, rfl⟩)

/-- A rule leaves the actor as it is. -/
@[simp] lemma actor_apply (h : Holder) (k : KeywordRule) (n : Nat) :
    (h.apply k n).actor = h.actor := rfl

/-- The entries that a rule makes for a holder are those of the holder behind it. -/
lemma enter_eq (h : Holder) (k : KeywordRule) (n : Nat) :
    Handout.enter k n h.actor h.held h.acquired = ((h.apply k n).held, (h.apply k n).acquired) := by
  refine Prod.ext ?_ rfl
  unfold apply Handout.enter
  split
  · rfl
  · split
    · exact (held_gain h ⟨k.keyword, n⟩).symm
    · rfl

/-- After a rule a holder has the keywords from before, and that of the rule if it accepts. -/
lemma mem_held_apply :
    x ∈ (h.apply k n).held ↔ x ∈ h.held ∨ x = k.key ∧ k.Accepts h.actor h.held := by
  obtain ⟨hheld, hstep⟩ | ⟨-, hrefuse, hstep⟩ | ⟨-, haccept, hstep⟩ := apply_cases h k n
  · rw [hstep]
    exact ⟨Or.inl, fun hx => hx.elim id fun hx => hx.1 ▸ hheld⟩
  · rw [hstep]
    exact ⟨Or.inl, fun hx => hx.elim id fun hx => absurd hx.2 hrefuse⟩
  · rw [hstep, held_gain, List.mem_append, List.mem_singleton]
    exact or_congr_right ⟨fun hx => ⟨hx, haccept⟩, And.left⟩

/-! ## Many rules -/

@[simp] lemma applyAll_nil (h : Holder) : h.applyAll [] = h := rfl

@[simp] lemma applyAll_cons (h : Holder) (s : KeywordRule × Nat)
    (steps : List (KeywordRule × Nat)) :
    h.applyAll (s :: steps) = (h.apply s.1 s.2).applyAll steps := rfl

lemma applyAll_append (h : Holder) (steps steps' : List (KeywordRule × Nat)) :
    h.applyAll (steps ++ steps') = (h.applyAll steps).applyAll steps' :=
  List.foldl_append

@[simp] lemma actor_applyAll (h : Holder) (steps : List (KeywordRule × Nat)) :
    (h.applyAll steps).actor = h.actor := by
  induction steps generalizing h with
  | nil => rfl
  | cons s rest ih => rw [applyAll_cons, ih, actor_apply]

/-- Held keywords stay held. -/
lemma held_subset_applyAll (h : Holder) (steps : List (KeywordRule × Nat)) :
    h.held ⊆ (h.applyAll steps).held := by
  induction steps generalizing h with
  | nil => exact List.Subset.refl _
  | cons s rest ih =>
    intro x hx
    exact ih _ (mem_held_apply.mpr (Or.inl hx))

/-- A keyword that comes to be held is that of some rule which accepted the actor at its turn, when
the keyword was not yet held. -/
lemma exists_accepted_of_mem_held (hx : x ∈ (h.applyAll steps).held) (hnew : x ∉ h.held) :
    ∃ before s after, steps = before ++ s :: after ∧ s.1.key = x ∧
      x ∉ (h.applyAll before).held ∧ s.1.Accepts h.actor (h.applyAll before).held := by
  induction steps generalizing h with
  | nil => exact absurd hx hnew
  | cons s rest ih =>
    by_cases hfirst : x ∈ (h.apply s.1 s.2).held
    · rcases mem_held_apply.mp hfirst with hold | ⟨rfl, haccept⟩
      · exact absurd hold hnew
      · exact ⟨[], s, rest, rfl, rfl, hnew, haccept⟩
    · obtain ⟨before, s', after, hsplit, hkey, hnot, haccept⟩ := ih hx hfirst
      rw [actor_apply] at haccept
      exact ⟨s :: before, s', after, by rw [hsplit]; rfl, hkey, hnot, haccept⟩

/-- Whatever comes to be held is the keyword of one of the rules. -/
lemma exists_key_of_mem_held (hx : x ∈ (h.applyAll steps).held) (hnew : x ∉ h.held) :
    ∃ s ∈ steps, s.1.key = x := by
  obtain ⟨before, s, after, hsplit, hkey, -, -⟩ := exists_accepted_of_mem_held hx hnew
  exact ⟨s, hsplit ▸ List.mem_append_right _ List.mem_cons_self, hkey⟩

end Holder

namespace Handout

/-- An actor that has gained nothing. -/
def fresh (a : Actor) : Holder :=
  ⟨a, []⟩

/-- At the start an actor holds the keywords stored on it. -/
@[simp] lemma held_fresh (a : Actor) : (fresh a).held = a.keywordSet :=
  List.append_nil _

/-- The books that hold the entries of some holders. -/
def Books.ofHolders (holders : List Holder) : Books :=
  ⟨holders.map Holder.held, holders.map Holder.acquired⟩

/-- A rule that is applied to a population is applied to each holder. -/
lemma applyRule_ofHolders (holders : List Holder) (s : KeywordRule × Nat) :
    applyRule (holders.map Holder.actor) (.ofHolders holders) s =
      .ofHolders (holders.map fun h => h.apply s.1 s.2) := by
  unfold applyRule Books.ofHolders
  simp only [List.zip_map', List.map_map, Function.comp_def, Holder.enter_eq]

/-- Rules that are applied to a population one after the other are applied to each holder. -/
lemma foldl_applyRule_ofHolders (steps : List (KeywordRule × Nat)) (holders : List Holder) :
    steps.foldl (applyRule (holders.map Holder.actor)) (.ofHolders holders) =
      .ofHolders (holders.map fun h => h.applyAll steps) := by
  induction steps generalizing holders with
  | nil => simp
  | cons s rest ih =>
    have hactors : holders.map Holder.actor =
        (holders.map fun h => h.apply s.1 s.2).map Holder.actor := by
      simp [Function.comp_def]
    rw [List.foldl_cons, applyRule_ofHolders, hactors, ih, List.map_map]
    rfl

/-- Rules that are applied to a population are applied to each of its actors. -/
lemma foldl_applyRule_start (steps : List (KeywordRule × Nat)) (actors : List Actor) :
    steps.foldl (applyRule actors) (start actors) =
      .ofHolders (actors.map fun a => (fresh a).applyAll steps) := by
  have hactors : (actors.map fresh).map Holder.actor = actors := by
    rw [List.map_map]
    exact List.map_id actors
  have hstart : Books.ofHolders (actors.map fresh) = start actors := by
    simp only [Books.ofHolders, start, List.map_map, Function.comp_def, held_fresh]
    rfl
  have hrun := foldl_applyRule_ofHolders steps (actors.map fresh)
  rwa [hactors, hstart, List.map_map] at hrun

/-- The books of a population are those of its actors, each after a run of its own. -/
lemma run_eq_map (rules : List KeywordRule) (actors : List Actor) :
    run rules actors = .ofHolders (actors.map fun a => (fresh a).applyAll rules.zipIdx) :=
  foldl_applyRule_start rules.zipIdx actors

/-- What each actor gains from a chain is what it gains in the run of its own. -/
lemma acquired_eq_map (chain : Chain) (actors : List Actor) :
    acquired chain actors =
      actors.map fun a => ((fresh a).applyAll chain.ordered.zipIdx).acquired := by
  rw [acquired, run_eq_map]
  exact List.map_map

/-- What each actor gains in a run that is not cancelled. -/
lemma acquiredUnless_false (chain : Chain) (actors : List Actor) :
    acquiredUnless false chain actors =
      .ok (actors.map fun a => ((fresh a).applyAll chain.ordered.zipIdx).acquired) := by
  rw [acquiredUnless, acquired_eq_map]
  rfl

end Handout

end Wardrobe
