import Mathlib
import Wardrobe.Proofs.Text.Pieces
import Wardrobe.Rule.Trait

/-!
# Writing and reading trait demands

A demand is written as one code for each trait that it asks for.  Every code asks for its own trait
(`addCode_code`) and leaves the others (`get_ask`), so reading the codes gives the demand back
(`ofText_toText`).
-/

namespace Wardrobe.TraitDemand

variable {d e : TraitDemand} {trait other : Trait} {value : Bool}

/-! ## Asking -/

lemma get_nothing (trait : Trait) : nothing.get trait = none := by
  cases trait <;> rfl

/-- Asking for a trait settles it and leaves the others. -/
lemma get_ask (d : TraitDemand) (trait other : Trait) (value : Bool) :
    (d.ask trait value).get other = if other = trait then some value else d.get other := by
  cases trait <;> cases other <;> rfl

/-- A demand is what it asks of each trait. -/
lemma ext_get (h : ∀ trait, d.get trait = e.get trait) : d = e := by
  cases d
  cases e
  simp only [mk.injEq]
  exact ⟨h .female, h .unique, h .summonable, h .child, h .leveled, h .teammate, h .dead⟩

lemma mem_all (trait : Trait) : trait ∈ Trait.all := by
  cases trait <;> decide

/-- Asks in addition what another demand asks of some traits. -/
def merge (d e : TraitDemand) (traits : List Trait) : TraitDemand :=
  traits.foldl (fun e trait => (d.get trait).elim e (e.ask trait)) e

/-- What is asked in addition counts. -/
lemma get_merge (d e : TraitDemand) (traits : List Trait) (other : Trait) :
    (d.merge e traits).get other = if other ∈ traits then (d.get other).or (e.get other)
      else e.get other := by
  induction traits generalizing e with
  | nil => rfl
  | cons trait rest ih =>
    have hstep : d.merge e (trait :: rest) =
        d.merge ((d.get trait).elim e (e.ask trait)) rest := rfl
    rw [hstep, ih]
    cases hget : d.get trait with
    | none =>
      by_cases hother : other = trait
      · subst hother
        simp [hget]
      · simp [hother]
    | some value =>
      rw [Option.elim_some, get_ask]
      by_cases hother : other = trait
      · subst hother
        simp [hget]
      · simp [hother]

/-- Asking for everything that a demand asks gives the demand. -/
lemma merge_all (d : TraitDemand) : d.merge nothing Trait.all = d := by
  refine ext_get fun trait => ?_
  rw [get_merge, if_pos (mem_all trait), get_nothing, Option.or_none]

/-! ## Codes -/

/-- A code asks for its trait. -/
lemma addCode_code (d : TraitDemand) (trait : Trait) (value : Bool) :
    d.addCode (code trait value) = .ok (d.ask trait value) := by
  cases trait <;> cases value <;> rfl

/-- The characters of codes. -/
def codeLetters : List Char :=
  ['-', 'F', 'M', 'U', 'S', 'C', 'L', 'T', 'D']

/-- A code is a text of code letters, and not empty. -/
lemma code_spec (trait : Trait) (value : Bool) :
    code trait value ≠ [] ∧ ∀ c ∈ code trait value, c ∈ codeLetters := by
  cases trait <;> cases value <;> simp [code, codeLetters]

/-- The codes of a demand. -/
def codes (d : TraitDemand) : List Text :=
  Trait.all.filterMap fun trait => (d.get trait).map (code trait)

lemma mem_codes {t : Text} (h : t ∈ d.codes) : ∃ trait value, t = code trait value := by
  obtain ⟨trait, -, h⟩ := List.mem_filterMap.mp h
  obtain ⟨value, -, h⟩ := Option.map_eq_some_iff.mp h
  exact ⟨trait, value, h.symm⟩

/-- Only the demand for nothing has no codes. -/
lemma codes_ne_nil (hd : d ≠ nothing) : d.codes ≠ [] := by
  intro hnil
  refine hd (ext_get fun trait => ?_)
  have hnone := List.filterMap_eq_nil_iff.mp hnil trait (mem_all trait)
  rw [Option.map_eq_none_iff.mp hnone, get_nothing]

/-- Reading codes asks for what they stand for. -/
lemma foldlM_addCode (d e : TraitDemand) (traits : List Trait) :
    (traits.filterMap fun trait => (d.get trait).map (code trait)).foldlM addCode e =
      .ok (d.merge e traits) := by
  induction traits generalizing e with
  | nil => rfl
  | cons trait rest ih =>
    cases hget : d.get trait with
    | none =>
      rw [List.filterMap_cons_none (by rw [hget]; rfl), ih]
      simp [merge, hget]
    | some value =>
      rw [List.filterMap_cons_some (by rw [hget]; rfl), List.foldlM_cons, addCode_code]
      refine (ih (e.ask trait value)).trans ?_
      simp [merge, hget]

/-! ## The section -/

/-- What is written for a demand consists of code letters and slashes. -/
lemma mem_toText {c : Char} (h : c ∈ d.toText) : c = '/' ∨ c ∈ codeLetters := by
  refine (Text.mem_join h).imp_right ?_
  rintro ⟨t, ht, hc⟩
  obtain ⟨trait, value, rfl⟩ := mem_codes ht
  exact (code_spec trait value).2 c hc

lemma toText_ne_nil (hd : d ≠ nothing) : d.toText ≠ [] := by
  refine Text.join_ne_nil _ (fun t ht => ?_) (codes_ne_nil hd)
  obtain ⟨trait, value, rfl⟩ := mem_codes ht
  exact (code_spec trait value).1

/-- A demand is read back from what is written for it. -/
theorem ofText_toText (hd : d ≠ nothing) : ofText d.toText = .ok d := by
  have hslash : ∀ t ∈ d.codes, '/' ∉ t := by
    intro t ht hmem
    obtain ⟨trait, value, rfl⟩ := mem_codes ht
    exact absurd ((code_spec trait value).2 _ hmem) (by decide)
  have hsplit : d.toText.splitOn '/' = d.codes := Text.splitOn_join hslash (codes_ne_nil hd)
  rw [ofText, hsplit, codes, foldlM_addCode, merge_all]

end Wardrobe.TraitDemand
