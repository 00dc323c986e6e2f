import Mathlib
import Wardrobe.Proofs.Record.CatalogHistory

/-!
# Finding records by editor id

Several records of a category may carry one editor id, and the index of a catalog has room for one
of them: the record that took the id last.  When that record is replaced by one with another id, the
others that carry the id are not found any more.  `findsHolder_iff` says that nothing else goes
wrong.
-/

namespace Wardrobe.Catalog

/-- Of the records of a category that carry an editor id, in lower case, the one put in last. -/
def holder? (history : List Record) (category : Category) (id : Text) : Option Record :=
  history.reverse.find? fun r => r ∈ (ofList history).ofCategory category ∧ r.idKey = some id

/-- An editor id leads to a record exactly when a record of the category carries it, and then to the
one of these that was put in last. -/
structure FindsHolder (history : List Record) (category : Category) (name : Text) : Prop where
  isSome_iff : ((ofList history).withEditorId? category name).isSome ↔
    ∃ r ∈ (ofList history).ofCategory category, r.idKey = some (Text.lower name)
  holder : ∀ r, (ofList history).withEditorId? category name = some r →
    holder? history category (Text.lower name) = some r

variable {history : List Record} {category : Category} {name id : Text} {r : Record}

/-- A record is found when it took its editor id last and is still there. -/
lemma withEditorId?_ofList_eq_some_iff :
    (ofList history).withEditorId? category name = some r ↔
      r ∈ (ofList history).ofCategory category ∧
        taker? history category (Text.lower name) = some r := by
  rw [(tracks_ofList history).withEditorId?_eq_some_iff, mem_ofCategory_iff, and_assoc]
  exact and_congr_right fun _ => (and_iff_right_of_imp fun h => (idKey_of_taker? h).1).symm

/-- Who took an editor id last and is still there was put in last of those that carry it. -/
lemma holder?_eq_of_taker? (htaker : taker? history category id = some r)
    (hr : r ∈ (ofList history).ofCategory category) : holder? history category id = some r := by
  have hid := (idKey_of_taker? htaker).2
  rw [taker?, List.find?_eq_some_iff_append] at htaker
  obtain ⟨-, later, earlier, hhistory, hlater⟩ := htaker
  rw [holder?, List.find?_eq_some_iff_append]
  refine ⟨decide_eq_true ⟨hr, hid⟩, later, earlier, hhistory, fun s hs => ?_⟩
  have hother : ¬ (s.category = category ∧ s.idKey = some id) := not_and_or.mpr
    (by simpa using hlater s hs)
  have hholds : ¬ (s ∈ (ofList history).ofCategory category ∧ s.idKey = some id) :=
    fun h => hother ⟨(mem_ofCategory_iff.mp h.1).2, h.2⟩
  rw [decide_eq_false hholds]
  rfl

/-- An editor id finds its holder exactly when no record carries it, or the record that took it last
has not been replaced. -/
theorem findsHolder_iff : FindsHolder history category name ↔
    (∀ r ∈ (ofList history).ofCategory category, r.idKey ≠ some (Text.lower name)) ∨
      ∃ r ∈ (ofList history).ofCategory category,
        taker? history category (Text.lower name) = some r := by
  constructor
  · intro h
    by_cases hholds : ∃ r ∈ (ofList history).ofCategory category, r.idKey = some (Text.lower name)
    · obtain ⟨r, hr⟩ := Option.isSome_iff_exists.mp (h.isSome_iff.mpr hholds)
      obtain ⟨hmem, htaker⟩ := withEditorId?_ofList_eq_some_iff.mp hr
      exact Or.inr ⟨r, hmem, htaker⟩
    · exact Or.inl fun r hr hid => hholds ⟨r, hr, hid⟩
  · rintro (hnone | ⟨r, hr, htaker⟩)
    · have hfound : (ofList history).withEditorId? category name = none := by
        rw [Option.eq_none_iff_forall_ne_some]
        intro r hr
        obtain ⟨hmem, htaker⟩ := withEditorId?_ofList_eq_some_iff.mp hr
        exact hnone r hmem (idKey_of_taker? htaker).2
      refine ⟨iff_of_false (by simp [hfound]) ?_, fun r hr => ?_⟩
      · rintro ⟨r, hr, hid⟩
        exact hnone r hr hid
      · rw [hfound] at hr
        cases hr
    · have hfound : (ofList history).withEditorId? category name = some r :=
        withEditorId?_ofList_eq_some_iff.mpr ⟨hr, htaker⟩
      refine ⟨iff_of_true (by rw [hfound]; rfl) ⟨r, hr, (idKey_of_taker? htaker).2⟩, fun s hs => ?_⟩
      rw [hfound, Option.some.injEq] at hs
      exact hs ▸ holder?_eq_of_taker? htaker hr

/-- Two outfits share an editor id until the later one is renamed; the other one, which still
carries the id, is not found by it. -/
theorem not_findsHolder_of_renamed : ¬ ∀ (history : List Record) (category : Category)
    (name : Text), FindsHolder history category name := by
  intro h
  let skyrim (id : FormId) : FormKey := ⟨"Skyrim.esm".toList, id⟩
  let history : List Record := [
    ⟨.outfit, skyrim 1, some "Shared".toList, none⟩,
    ⟨.outfit, skyrim 2, some "Shared".toList, none⟩,
    ⟨.outfit, skyrim 2, some "Other".toList, none⟩]
  have hfound : ((ofList history).withEditorId? .outfit "Shared".toList).isSome :=
    (h history .outfit _).isSome_iff.mpr
      ⟨⟨.outfit, skyrim 1, some "Shared".toList, none⟩, by decide +kernel, by decide +kernel⟩
  have hnone : ((ofList history).withEditorId? .outfit "Shared".toList).isSome = false := by
    decide +kernel
  rw [hnone] at hfound
  cases hfound

end Wardrobe.Catalog
