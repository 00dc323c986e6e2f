import Mathlib
import Wardrobe.Proofs.Distribution.GainedKeywords
import Wardrobe.Proofs.Text.FinalSigma

/-!
# Literal occurrences of open conditions

An open text condition is tested by containment, after its value and the actor's texts went to lower
case each by itself.  So a value that stands in a title or keyword of an actor letter for letter is
hit as long as it has the same lower case there (`Actor.textHit_of_infix`).  That is certain for
every value that settles its sigmas, and for no other value (`Actor.textHit_of_literal_iff`): an
actor called `ΟΔΥΣΣΕΑΣ` is not hit by `*ΟΔΥΣ*`, which ends in `ς` by itself.
-/

namespace Wardrobe

namespace Actor

variable {a : Actor} {c : Condition} {gained : List Text}

/-- The texts of an actor that open conditions are tested against, in their own case: the titles and
the trimmed keywords, those of the race among them. -/
def literals (a : Actor) : List Text :=
  a.titles ++ (a.keywords ++ a.raceKeywords).map Text.trim

/-- The lower case of a literal is a title in lower case or a stored keyword. -/
lemma mem_literals_map_lower {x : Text} :
    x ∈ a.literals.map Text.lower ↔ x ∈ a.titles.map Text.lower ∨ x ∈ a.keywordSet := by
  rw [mem_keywordSet, literals, List.map_append, List.map_map, List.mem_append]
  exact or_congr_right List.mem_map

/-- An open condition is hit when its value occurs in a literal or a gained keyword, with the value
and the literals in lower case. -/
lemma textHit_iff_of_isWildcard (hc : c.isWildcard = true) : a.textHit gained c = true ↔
    ∃ x ∈ a.literals.map Text.lower ++ gained, Text.occursIn (Text.lower c.value) x = true := by
  simp only [textHit_iff, List.mem_append, mem_literals_map_lower, or_assoc, Condition.Reads, hc,
    if_true]

/-- A value that settles its sigmas is hit wherever it occurs. -/
lemma textHit_of_infix (hc : c.isWildcard = true) (hsettled : Text.isSettled c.value = true)
    {t : Text} (ht : t ∈ a.literals) (hpiece : c.value <:+: t) (gained : List Text) :
    a.textHit gained c = true := by
  obtain ⟨u, w, rfl⟩ := hpiece
  refine (textHit_iff_of_isWildcard hc).mpr ⟨Text.lower (u ++ c.value ++ w), ?_, ?_⟩
  · exact List.mem_append_left _ (List.mem_map_of_mem ht)
  · exact Text.occursIn_lower_iff.mpr hsettled u w

/-- An actor with an editor id alone is hit when the value occurs in it in lower case. -/
lemma textHit_ofKey (hc : c.isWildcard = true) (key : FormKey) (t : Text) :
    (ofKey key t).textHit [] c = true ↔
      Text.occursIn (Text.lower c.value) (Text.lower t) = true := by
  have hliterals : (ofKey key t).literals = [t] := rfl
  simp only [textHit_iff_of_isWildcard hc, hliterals, List.map_singleton, List.append_nil,
    List.mem_singleton, exists_eq_left]

/-- An open condition is hit by every actor with its value in a title or keyword, whatever the actor
gained, exactly when the value settles its sigmas. -/
theorem textHit_of_literal_iff (hc : c.isWildcard = true) :
    (∀ a : Actor, (∃ t ∈ a.literals, c.value <:+: t) → ∀ gained, a.textHit gained c = true) ↔
      Text.isSettled c.value = true := by
  constructor
  · intro hhit
    refine Text.occursIn_lower_iff.mp fun u w => ?_
    have hliteral : u ++ c.value ++ w ∈ (ofKey ⟨[], 0⟩ (u ++ c.value ++ w)).literals :=
      List.mem_cons_self
    exact (textHit_ofKey hc ⟨[], 0⟩ _).mp
      (hhit _ ⟨_, hliteral, List.infix_append _ _ _⟩ [])
  · rintro hsettled a ⟨t, ht, hpiece⟩ gained
    exact textHit_of_infix hc hsettled ht hpiece gained

/-- The sigmas of the value stand before other letters: an actor whose race bears the value within a
keyword is hit. -/
theorem textHit_of_inner_sigma : ∃ (c : Condition) (a : Actor), c.value = "ΟΔΥΣΣΕΑ".toList ∧
    a.raceKeywords = [" ΟΔΥΣΣΕΑΣ ".toList] ∧ c.isWildcard = true ∧
    Text.isSettled c.value = true ∧ (∃ t ∈ a.literals, c.value <:+: t) ∧
    ∀ gained, a.textHit gained c = true := by
  let c : Condition := ⟨"ΟΔΥΣΣΕΑ".toList, false, .back⟩
  let a : Actor := { ofKey ⟨"Skyrim.esm".toList, 16⟩ "Lydia".toList with
    raceKeywords := [" ΟΔΥΣΣΕΑΣ ".toList] }
  have hc : c.isWildcard = true := rfl
  have hsettled : Text.isSettled c.value = true := by decide +kernel
  have hliteral : ∃ t ∈ a.literals, c.value <:+: t :=
    ⟨"ΟΔΥΣΣΕΑΣ".toList, by decide +kernel, [], ['Σ'], rfl⟩
  exact ⟨c, a, rfl, rfl, hc, hsettled, hliteral,
    (textHit_of_literal_iff hc).mpr hsettled a hliteral⟩

/-- A value may end in a sigma that does not end the word in the actor's editor id. -/
theorem not_textHit_of_final_sigma : ¬ ∀ (a : Actor) (c : Condition), c.isWildcard = true →
    (∃ t ∈ a.literals, c.value <:+: t) → ∀ gained, a.textHit gained c = true := by
  intro h
  let a : Actor := ofKey ⟨"Skyrim.esm".toList, 16⟩ "ΟΔΥΣΣΕΑΣ".toList
  let c : Condition := ⟨"ΟΔΥΣ".toList, false, .both⟩
  have hliteral : ∃ t ∈ a.literals, c.value <:+: t :=
    ⟨_, List.mem_cons_self, [], "ΣΕΑΣ".toList, by decide⟩
  have hmissed : a.textHit [] c = false := by decide +kernel
  rw [h a c rfl hliteral []] at hmissed
  cases hmissed

end Actor

end Wardrobe
