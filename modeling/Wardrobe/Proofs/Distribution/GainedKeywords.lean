import Mathlib
import Wardrobe.Proofs.Distribution.HandoutReading

/-!
# Gained keywords count like stored ones

Keywords that an actor gained reach a condition beside the stored ones, and not through the actor's
match keys and keyword set.  `Actor.textHit_iff` says that this makes no difference: a condition is
hit when it reads a title, a stored keyword or a gained one.  So a rule selects an actor with some
gained keywords exactly when it selects the actor that has them as keywords of its own
(`Rule.selects_gained`), under whatever negations and exclusions they are tested.
-/

namespace Wardrobe

namespace Actor

/-- An actor with some more keywords of its own. -/
def withKeywords (a : Actor) (more : List Text) : Actor :=
  { a with keywords := a.keywords ++ more }

variable {a : Actor} {c : Condition} {gained more : List Text} {x : Text}

/-- A condition is hit when it reads a title, a stored keyword or a gained one. -/
lemma textHit_iff : a.textHit gained c = true ↔
    ∃ x, (x ∈ a.titles.map Text.lower ∨ x ∈ a.keywordSet ∨ x ∈ gained) ∧ c.Reads x := by
  unfold textHit Condition.Reads
  cases c.isWildcard with
  | false =>
    have hexact : a.matchKeys.contains (Text.lower c.value) = true ↔
        Text.lower c.value ∈ a.titles.map Text.lower ∨ Text.lower c.value ∈ a.keywordSet := by
      rw [List.contains_iff_mem, matchKeys, Text.mem_sortedSet, List.mem_append, or_comm]
    simp only [Bool.false_eq_true, if_false, exists_eq_right, Bool.or_eq_true, hexact,
      List.contains_iff_mem, or_assoc]
  | true =>
    simp only [if_true, List.any_eq_true, List.mem_append]
    exact exists_congr fun x => and_congr_left fun _ => or_assoc

/-- A stored keyword is one of the actor's own or of its race, trimmed and in lower case. -/
lemma mem_keywordSet :
    x ∈ a.keywordSet ↔ ∃ k ∈ a.keywords ++ a.raceKeywords, Text.lower (Text.trim k) = x := by
  rw [keywordSet, Text.mem_sortedSet, List.mem_map]

/-- Keywords that are trimmed and in lower case are stored as they are. -/
lemma mem_keywordSet_withKeywords (hmore : ∀ k ∈ more, Text.lower (Text.trim k) = k) :
    x ∈ (a.withKeywords more).keywordSet ↔ x ∈ a.keywordSet ∨ x ∈ more := by
  have hstored : (∃ k ∈ more, Text.lower (Text.trim k) = x) ↔ x ∈ more := by
    constructor
    · rintro ⟨k, hk, rfl⟩
      rwa [hmore k hk]
    · exact fun hx => ⟨x, hx, hmore x hx⟩
  have hkeywords : x ∈ (a.withKeywords more).keywordSet ↔
      ∃ k ∈ a.keywords ++ more ++ a.raceKeywords, Text.lower (Text.trim k) = x := mem_keywordSet
  rw [hkeywords, mem_keywordSet, ← hstored]
  simp only [List.mem_append, or_and_right, exists_or]
  exact or_right_comm

end Actor

/-- A rule selects in the same cases when its text conditions are hit in the same cases. -/
lemma Rule.selects_congr {r : Rule} {a b : Actor} {gained gained' : List Text}
    (hforms : a.formHit = b.formHit) (htraits : a.traits = b.traits) (hlevel : a.level = b.level)
    (htexts : a.textHit gained = b.textHit gained') :
    r.selects a gained = r.selects b gained' := by
  unfold selects
  rw [hforms, htraits, hlevel, htexts]

/-- Gained keywords that are trimmed and in lower case count like keywords of the actor's own, and
those that the actor has anyway do not count. -/
theorem Rule.selects_gained (r : Rule) (a : Actor) (gained : List Text) :
    ((∀ k ∈ gained, Text.lower (Text.trim k) = k) →
      r.selects a gained = r.selects (a.withKeywords gained) []) ∧
    (gained ⊆ a.keywordSet → r.selects a gained = r.selects a []) := by
  constructor
  · intro hgained
    refine selects_congr rfl rfl rfl (funext fun c => ?_)
    have htitles : (a.withKeywords gained).titles = a.titles := rfl
    rw [Bool.eq_iff_iff, Actor.textHit_iff, Actor.textHit_iff, htitles]
    simp only [Actor.mem_keywordSet_withKeywords hgained, List.not_mem_nil, or_false]
  · intro hgained
    refine selects_congr rfl rfl rfl (funext fun c => ?_)
    rw [Bool.eq_iff_iff, Actor.textHit_iff, Actor.textHit_iff]
    refine exists_congr fun x => and_congr_left fun _ => or_congr_right ?_
    rw [or_iff_left List.not_mem_nil, or_iff_left_of_imp fun hx => hgained hx]

/-- An open condition beside an exclusion.  The rule selects Lydia when she gains `city guard`, and
does not when she gains `dead` as well; gaining a keyword of her own changes nothing. -/
theorem Rule.selects_gained_of_exclusion : ∃ (r : Rule) (a : Actor),
    r.texts = Selection.ofText "-Dead,*guard+-Ban*".toList ∧
    a = (Actor.ofKey ⟨"Skyrim.esm".toList, 16⟩ "Lydia".toList).withKeywords ["Nord ".toList] ∧
    (∀ k ∈ ["city guard".toList], Text.lower (Text.trim k) = k) ∧
    r.selects a ["city guard".toList] = r.selects (a.withKeywords ["city guard".toList]) [] ∧
    r.selects a ["city guard".toList] = true ∧
    r.selects a ["city guard".toList, "dead".toList] = false ∧
    ["nord".toList] ⊆ a.keywordSet ∧
    r.selects a ["nord".toList] = r.selects a [] := by
  let r : Rule := ⟨.barred, .keyword, "Keyword".toList, "K2".toList,
    .ofText "-Dead,*guard+-Ban*".toList, .everything, none, [], .nothing, none, Chance.always, []⟩
  let a := (Actor.ofKey ⟨"Skyrim.esm".toList, 16⟩ "Lydia".toList).withKeywords ["Nord ".toList]
  have hgained : ∀ k ∈ ["city guard".toList], Text.lower (Text.trim k) = k := by decide +kernel
  have hstored : ["nord".toList] ⊆ a.keywordSet := by decide +kernel
  exact ⟨r, a, rfl, rfl, hgained, (Rule.selects_gained r a _).1 hgained, by decide +kernel,
    by decide +kernel, hstored, (Rule.selects_gained r a _).2 hstored⟩

end Wardrobe
