import Mathlib
import Wardrobe.Proofs.Distribution.HandoutRun

/-!
# The actors of a handout do not influence each other

A run goes through the rules one by one and applies each to the whole population, but the entry of
an actor in the books is only ever read for that actor.  So the loop over the rules may be done for
each actor apart (`Handout.acquired_eq_map`), and what an actor gains does not depend on who else is
in the population (`Handout.Separate`).
-/

namespace Wardrobe.Handout

/-- What it means that each actor of a population gains what it does whoever the others are. -/
structure Separate (chain : Chain) (actors : List Actor) (gains : List (List Acquisition)) :
    Prop where
  /-- An actor gains what it gains when it is the whole population. -/
  alone : List.Forall₂ (fun a gain => acquiredUnless false chain [a] = .ok [gain]) actors gains
  /-- Any of the actors, in any order, take their gains along. -/
  picked : ∀ picks ⊆ actors.zip gains,
    acquiredUnless false chain (picks.map Prod.fst) = .ok (picks.map Prod.snd)
  /-- Actors that join the population at some place change nothing for those before and behind. -/
  joined : ∀ place more, ∃ moreGains, acquiredUnless false chain more = .ok moreGains ∧
    acquiredUnless false chain (actors.take place ++ more ++ actors.drop place) =
      .ok (gains.take place ++ moreGains ++ gains.drop place)

variable {chain : Chain} {actors : List Actor}

/-- An actor stands beside its own gains. -/
lemma snd_eq_of_mem_zip {p : Actor × List Acquisition}
    (hp : p ∈ actors.zip (acquired chain actors)) :
    ((fresh p.1).applyAll chain.ordered.zipIdx).acquired = p.2 := by
  rw [acquired_eq_map, ← List.map_prod_left_eq_zip, List.mem_map] at hp
  obtain ⟨a, -, rfl⟩ := hp
  rfl

/-- A handout that is not cancelled gives every actor what it gains apart from the others. -/
theorem acquired_separate (chain : Chain) (actors : List Actor) :
    ∃ gains, acquiredUnless false chain actors = .ok gains ∧ Separate chain actors gains := by
  refine ⟨acquired chain actors, rfl, ?_, ?_, ?_⟩
  · rw [acquired_eq_map, List.forall₂_map_right_iff, List.forall₂_same]
    exact fun a _ => acquiredUnless_false chain [a]
  · intro picks hpicks
    rw [acquiredUnless_false, List.map_map]
    exact congrArg Except.ok (List.map_congr_left fun p hp => snd_eq_of_mem_zip (hpicks hp))
  · intro place more
    refine ⟨acquired chain more, rfl, ?_⟩
    rw [acquiredUnless_false, acquired_eq_map, acquired_eq_map]
    simp only [List.map_append, List.map_take, List.map_drop]

end Wardrobe.Handout
