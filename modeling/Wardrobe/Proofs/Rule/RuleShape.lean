import Mathlib
import Wardrobe.Proofs.Rule.BarredReading
import Wardrobe.Proofs.Rule.ClausalMeaning

/-!
# The shape of accepted rules

Whoever evaluates a rule relies on its shape: no condition asks for a blank value, every alternative
has a condition, and what is attached to an alternative or excludes is negated.  Both dialects read
into the same type, but conditions come into it in different ways.  A barred section is taken apart
at commas and plus signs; the selections that result are legible (`Selection.Legible.isBuilt`).  The
clauses of a clausal line are multiplied out, so each of their alternatives takes one condition from
each clause (`mem_product_iff`, `isBuilt_multiplyOut`).  Either way the rules of an accepted line
are shaped (`Barred.isShaped_of_ruleOfLine`, `Clausal.isShaped_of_rulesOfLine`).

The form of a rule is another matter.  A barred line is accepted only with a form that refers to a
record (`Barred.namesForm_of_ruleOfLine`), the value of a clause becomes a form as it stands
(`Clausal.namesForm_iff_of_rulesOfLine`).
-/

namespace Wardrobe

/-- The characters at which a value ends in a dialect. -/
def Dialect.breaks : Dialect → List Char
  | .barred => [',', '+', '|']
  | .clausal => [',']

/-- The value of a condition is one that can be read in a dialect: it is not blank, has no blanks
around it, and holds no character that would have ended it. -/
structure Condition.IsWhole (dialect : Dialect) (c : Condition) : Prop where
  ne_nil : c.value ≠ []
  trimmed : Text.Trimmed c.value
  unbroken : ∀ x ∈ dialect.breaks, x ∉ c.value

/-- Every condition of a selection is whole, every alternative has one, and what is attached or
excludes is negated. -/
structure Selection.IsBuilt (dialect : Dialect) (s : Selection) : Prop where
  whole : ∀ c ∈ s.conditions, c.IsWhole dialect
  parts_ne_nil : ∀ g ∈ s.groups, g.parts ≠ []
  attached_negated : ∀ g ∈ s.groups, ∀ c ∈ g.attached, c.negated = true
  exclusions_negated : ∀ c ∈ s.exclusions, c.negated = true

/-- What holds of a rule that was read in a dialect from a line. -/
structure Rule.IsShaped (dialect : Dialect) (line : Text) (r : Rule) : Prop where
  dialect_eq : r.dialect = dialect
  chance_le : r.chance ≤ 100
  texts : r.texts.IsBuilt dialect
  forms : r.forms.IsBuilt dialect
  source_eq : r.source = line

/-- The form of a rule refers to a record. -/
structure Rule.NamesForm (r : Rule) : Prop where
  ne_nil : r.form ≠ []
  isReference : (Reference.ofText? r.form).isSome = true

/-- The outfits that the clauses of a line name refer to records. -/
def Clausal.NamesForms (line : Text) : Prop :=
  ∀ c ∈ clausesOf line, (c.isNamed outfitWords || c.isNamed sleepOutfitWords) = true →
    (Reference.ofText? c.value).isSome = true

/-- The conditions of a selection are its exclusions and those of its groups. -/
lemma Selection.forall_mem_conditions_iff {s : Selection} {p : Condition → Prop} :
    (∀ c ∈ s.conditions, p c) ↔ (∀ c ∈ s.exclusions, p c) ∧
      ∀ g ∈ s.groups, (∀ c ∈ g.parts, p c) ∧ ∀ c ∈ g.attached, p c := by
  simp only [conditions, Group.conditions, List.forall_mem_append, List.forall_mem_flatMap]

/-- A form that refers to a record is not blank. -/
lemma Rule.namesForm_iff {r : Rule} :
    r.NamesForm ↔ (Reference.ofText? r.form).isSome = true := by
  refine ⟨NamesForm.isReference, fun h => ⟨fun hnil => ?_, h⟩⟩
  rw [hnil] at h
  cases h

/-! ## Barred rules -/

/-- A plain condition is whole. -/
lemma Condition.Plain.isWhole {c : Condition} (hc : c.Plain) : c.IsWhole .barred where
  ne_nil := hc.ne_nil
  trimmed := hc.trimmed
  unbroken := by
    simp only [Dialect.breaks, List.forall_mem_cons]
    exact ⟨hc.no_comma, hc.no_plus, fun hbar => (hc.unbroken _ hbar).1 rfl,
      List.forall_mem_nil _⟩

/-- A legible selection is built. -/
lemma Selection.Legible.isBuilt {s : Selection} (hs : s.Legible) : s.IsBuilt .barred where
  whole := by
    refine Selection.forall_mem_conditions_iff.mpr ⟨?_, fun g hg => ⟨?_, ?_⟩⟩
    · exact fun c hc => (hs.exclusions c hc).1.isWhole
    · exact fun c hc => (hs.parts g hg c hc).isWhole
    · exact fun c hc => (hs.attached g hg c hc).1.isWhole
  parts_ne_nil := hs.parts_ne_nil
  attached_negated := fun g hg c hc => (hs.attached g hg c hc).2
  exclusions_negated := fun c hc => (hs.exclusions c hc).2

namespace Barred

variable {v : Vocabulary} {line : Text} {r : Rule}

/-- A barred line that is accepted gives a shaped rule. -/
lemma isShaped_of_ruleOfLine (h : ruleOfLine v line = .ok r) : r.IsShaped .barred line := by
  have hr := wellFormed_of_ruleOfLine h
  obtain ⟨_, _, _, _, -, -, -, -, hread⟩ := ruleOfLine_eq_ok_iff.mp h
  exact ⟨hr.dialect, hr.chance, hr.texts.isBuilt, hr.forms.isBuilt, hread.source⟩

/-- The rule of a barred line names a form. -/
lemma namesForm_of_ruleOfLine (h : ruleOfLine v line = .ok r) : r.NamesForm :=
  ⟨(wellFormed_of_ruleOfLine h).form.ne_nil, (wellFormed_of_ruleOfLine h).form.isReference⟩

end Barred

/-! ## Clausal rules -/

namespace Clausal

variable {line value : Text} {rules : List Rule} {clauses : List Clause} {d : Draft} {r : Rule}
  {choices : List (List Condition)} {parts excluded : List Condition} {c : Condition}

/-- A choice takes one condition from each clause. -/
lemma mem_product_iff : parts ∈ product choices ↔ List.Forall₂ (· ∈ ·) parts choices := by
  induction choices generalizing parts with
  | nil => rw [product, List.mem_singleton, List.forall₂_nil_right_iff]
  | cons clause rest ih =>
    rw [product, List.forall₂_cons_right_iff]
    simp only [List.mem_flatMap, List.mem_map, ih]
    constructor
    · rintro ⟨c, hc, tail, htail, rfl⟩
      exact ⟨c, tail, hc, htail, rfl⟩
    · rintro ⟨c, tail, hc, htail, rfl⟩
      exact ⟨c, hc, tail, htail, rfl⟩

/-- What stands between the commas of a clause is whole. -/
lemma isWhole_of_mem_alternatives (hc : c ∈ alternatives value) : c.IsWhole .clausal := by
  obtain ⟨piece, hpiece, hread⟩ := List.mem_filterMap.mp hc
  have hlegible := Condition.legible_of_ofText? hread
  have hcomma : ',' ∉ piece := (Text.mem_of_mem_splitOn hpiece).2
  refine ⟨hlegible.ne_nil, hlegible.trimmed, ?_⟩
  simp only [Dialect.breaks, List.forall_mem_singleton]
  exact fun h => hcomma (Condition.mem_of_mem_value hread h)

/-- What a clause rules out is whole and negated. -/
lemma isWhole_of_mem_exclusions (hc : c ∈ exclusions value) :
    c.IsWhole .clausal ∧ c.negated = true := by
  obtain ⟨asked, hasked, rfl⟩ := List.mem_map.mp hc
  have hwhole := isWhole_of_mem_alternatives hasked
  exact ⟨⟨hwhole.ne_nil, hwhole.trimmed, hwhole.unbroken⟩, rfl⟩

/-- The alternatives of a section are choices from the clauses that have conditions, of which there
is one, and nothing is attached to them. -/
lemma mem_groups_multiplyOut {g : Group} (hg : g ∈ (multiplyOut choices excluded).groups) :
    choices.filter (· ≠ []) ≠ [] ∧
      List.Forall₂ (· ∈ ·) g.parts (choices.filter (· ≠ [])) ∧ g.attached = [] := by
  obtain ⟨parts, hparts, rfl⟩ := List.mem_map.mp hg
  split_ifs at hparts with hnil
  · exact absurd hparts List.not_mem_nil
  · exact ⟨hnil, mem_product_iff.mp hparts, rfl⟩

/-- Clauses of whole conditions are multiplied out into a built section. -/
lemma isBuilt_multiplyOut (hchoices : ∀ choice ∈ choices, ∀ c ∈ choice, c.IsWhole .clausal)
    (hexcluded : ∀ c ∈ excluded, c.IsWhole .clausal ∧ c.negated = true) :
    (multiplyOut choices excluded).IsBuilt .clausal where
  whole := by
    refine Selection.forall_mem_conditions_iff.mpr ⟨fun c hc => (hexcluded c hc).1, ?_⟩
    intro g hg
    obtain ⟨-, hparts, hattached⟩ := mem_groups_multiplyOut hg
    refine ⟨fun c hc => ?_, by simp [hattached]⟩
    -- the part is one of the conditions of the clause at its position
    obtain ⟨i, hi, rfl⟩ := List.getElem_of_mem hc
    have hchoice := List.mem_of_mem_filter (List.getElem_mem (hparts.length_eq ▸ hi))
    exact hchoices _ hchoice _ (hparts.get hi (hparts.length_eq ▸ hi))
  parts_ne_nil := by
    intro g hg hnil
    obtain ⟨hne, hparts, -⟩ := mem_groups_multiplyOut hg
    rw [hnil, List.forall₂_nil_left_iff] at hparts
    exact hne hparts
  attached_negated := by
    intro g hg c hc
    rw [(mem_groups_multiplyOut hg).2.2] at hc
    exact absurd hc List.not_mem_nil
  exclusions_negated := fun c hc => (hexcluded c hc).2

/-- The sections of a draft that was read are built. -/
lemma isBuilt_multiplyOut_clauses (named excluded : List String) :
    (multiplyOut ((clauses.filter (Clause.isNamed named)).map fun c => alternatives c.value)
      ((clauses.filter (Clause.isNamed excluded)).flatMap fun c => exclusions c.value)).IsBuilt
        .clausal := by
  refine isBuilt_multiplyOut ?_ ?_
  · exact List.forall_mem_map.mpr fun _ _ _ => isWhole_of_mem_alternatives
  · exact List.forall_mem_flatMap.mpr fun _ _ _ => isWhole_of_mem_exclusions

/-- The chance that clauses give is one. -/
lemma Draft.Reads.chance_le (h : d.Reads clauses) : d.chance?.getD Chance.always ≤ 100 := by
  obtain ⟨-, hnone⟩ | ⟨_, chance, -, hgiven, hread⟩ := mapM_eq_ok h.chance
  · rw [hnone]
    exact le_rfl
  · rw [hgiven]
    exact Barred.le_always_of_ofText hread

/-- A clausal line that is accepted gives shaped rules. -/
lemma isShaped_of_rulesOfLine (h : rulesOfLine line = .ok rules) (hr : r ∈ rules) :
    r.IsShaped .clausal line := by
  obtain ⟨d, hd, rfl, -⟩ := reads_of_rulesOfLine h
  obtain ⟨target, -, rfl⟩ := List.mem_map.mp hr
  refine ⟨rfl, hd.chance_le, ?_, ?_, rfl⟩
  · simp only [hd.textClauses, hd.textExclusions]
    exact isBuilt_multiplyOut_clauses _ _
  · simp only [hd.formClauses, hd.formExclusions]
    exact isBuilt_multiplyOut_clauses _ _

/-- The rules of a line hand out the outfits that its clauses name. -/
lemma map_target_of_rulesOfLine (h : rulesOfLine line = .ok rules) :
    rules.map Rule.target = targetsOf (clausesOf line) := by
  obtain ⟨d, hd, rfl, -⟩ := reads_of_rulesOfLine h
  rw [← hd.targets, Draft.rules, List.map_map]
  exact List.map_id' _

/-- The forms among the targets of clauses are the values of those that name outfits. -/
lemma forall_mem_targetsOf_iff (p : Text → Prop) :
    (∀ target ∈ targetsOf clauses, p target.form) ↔
      ∀ c ∈ clauses, (c.isNamed outfitWords || c.isNamed sleepOutfitWords) = true → p c.value := by
  simp only [targetsOf, List.forall_mem_filterMap]
  refine forall₂_congr fun c _ => ?_
  cases c.isNamed outfitWords <;> cases c.isNamed sleepOutfitWords <;> simp

/-- The rules of a clausal line name forms when the values of its clauses do. -/
lemma namesForm_iff_of_rulesOfLine (h : rulesOfLine line = .ok rules) :
    (∀ r ∈ rules, r.NamesForm) ↔ NamesForms line := by
  simp only [Rule.namesForm_iff]
  rw [NamesForms, ← forall_mem_targetsOf_iff fun form => (Reference.ofText? form).isSome = true,
    ← map_target_of_rulesOfLine h, List.forall_mem_map]
  rfl

end Clausal

end Wardrobe
