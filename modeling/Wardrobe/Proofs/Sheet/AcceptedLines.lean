import Mathlib
import Wardrobe.Proofs.Rule.RuleShape
import Wardrobe.Sheet.Basic

/-!
# The accepted lines of a sheet

A line of a sheet holds rules only when the reader of the sheet's dialect accepted it
(`rulesOfLine_of_mem_lines`).  So what the readers promise holds of every rule of every sheet: the
rules are shaped, and a line with rules has one (`isShaped_of_mem_lines`).  That their forms refer to
records is promised of barred lines only; `namesForms_iff` says what that leaves to be asked of a
clausal sheet.
-/

namespace Wardrobe

variable {path : Path} {dialect : Dialect} {v : Vocabulary} {source t : Text} {rules : List Rule}
  {line : SheetLine} {r : Rule}

/-! ## Texts that are accepted -/

namespace Content

/-- A text holds rules only if it is accepted with them. -/
lemma rulesOfLine_of_ofLine (h : ofLine dialect v source = .rules rules) :
    rulesOfLine dialect v source = .ok rules := by
  unfold ofLine at h
  split at h
  · cases h
  split at h
  · cases h
  split at h
  · next found hfound =>
    obtain rfl := Content.rules.inj h
    exact hfound
  · cases h

/-- The rules of a content are those that it holds, if it holds rules. -/
lemma mem_toRules_iff {content : Content} :
    r ∈ content.toRules ↔ ∃ rules, content = .rules rules ∧ r ∈ rules := by
  cases content <;> simp [toRules]

/-- A barred text is accepted with its one rule. -/
lemma rulesOfLine_barred_iff : rulesOfLine .barred v source = .ok rules ↔
    ∃ r, Barred.ruleOfLine v source = .ok r ∧ rules = [r] := by
  unfold rulesOfLine
  cases Barred.ruleOfLine v source with
  | error fault => simp [Except.map]
  | ok r => simp [Except.map, eq_comm]

/-- A text that is accepted gives a rule, and shaped ones only. -/
lemma isShaped_of_rulesOfLine (h : rulesOfLine dialect v source = .ok rules) :
    rules ≠ [] ∧ ∀ r ∈ rules, r.IsShaped dialect source := by
  cases dialect with
  | barred =>
    obtain ⟨r, hr, rfl⟩ := rulesOfLine_barred_iff.mp h
    exact ⟨List.cons_ne_nil _ _,
      List.forall_mem_singleton.mpr (Barred.isShaped_of_ruleOfLine hr)⟩
  | clausal =>
    exact ⟨Clausal.rulesOfLine_ne_nil h, fun r hr => Clausal.isShaped_of_rulesOfLine h hr⟩

end Content

/-! ## The shape of the rules -/

namespace Sheet

/-- A line of a sheet holds what is read from its text. -/
lemma content_of_mem_lines (hline : line ∈ (ofText path dialect v t).lines) :
    line.content = Content.ofLine dialect v line.source := by
  obtain ⟨⟨source, i⟩, -, rfl⟩ := List.mem_map.mp hline
  rfl

/-- A line of a sheet holds rules only if its text is accepted with them. -/
lemma rulesOfLine_of_mem_lines (hline : line ∈ (ofText path dialect v t).lines)
    (hrules : line.content = .rules rules) :
    Content.rulesOfLine dialect v line.source = .ok rules :=
  Content.rulesOfLine_of_ofLine ((content_of_mem_lines hline).symm.trans hrules)

/-- A line with rules has at least one, and all of them have the shape of rules that were read from
this line in the dialect of the sheet. -/
theorem isShaped_of_mem_lines (hline : line ∈ (ofText path dialect v t).lines)
    (hrules : line.content = .rules rules) :
    rules ≠ [] ∧ ∀ r ∈ rules, r.IsShaped dialect line.source :=
  Content.isShaped_of_rulesOfLine (rulesOfLine_of_mem_lines hline hrules)

/-- A sheet with a comment and a rule.  The rule has an exclusion in front, an attached negation and
a chance beyond the largest. -/
theorem isShaped_of_exclusion_and_attached : ∃ line rules,
    line ∈ (ofText ⟨"a_DISTR.ini".toList⟩ .barred .standard
      "; guards\nOutfit = X|-C,A+*B, -D|NONE|NONE|NONE|NONE|250".toList).lines ∧
    line.content = .rules rules ∧ rules ≠ [] ∧
    ∀ r ∈ rules, r.IsShaped .barred line.source ∧ r.texts.exclusions.length = 1 ∧
      r.texts.groups.map (fun g => (g.parts.length, g.attached.length)) = [(2, 1)] := by
  have hany : (ofText ⟨"a_DISTR.ini".toList⟩ .barred .standard
      "; guards\nOutfit = X|-C,A+*B, -D|NONE|NONE|NONE|NONE|250".toList).lines.any (fun line =>
        line.content.toRules ≠ [] ∧ ∀ r ∈ line.content.toRules, r.texts.exclusions.length = 1 ∧
          r.texts.groups.map (fun g => (g.parts.length, g.attached.length)) = [(2, 1)]) = true := by
    decide +kernel
  obtain ⟨line, hline, hholds⟩ := List.any_eq_true.mp hany
  obtain ⟨hne, hcounts⟩ := of_decide_eq_true hholds
  obtain ⟨r, hr⟩ := List.exists_mem_of_ne_nil _ hne
  obtain ⟨rules, hrules, -⟩ := Content.mem_toRules_iff.mp hr
  obtain ⟨hne, hshaped⟩ := isShaped_of_mem_lines hline hrules
  rw [hrules] at hcounts
  exact ⟨line, rules, hline, hrules, hne, fun r hr => ⟨hshaped r hr, hcounts r hr⟩⟩

/-! ## The forms of the rules -/

/-- Every rule of a sheet names a form. -/
def NamesForms (s : Sheet) : Prop :=
  ∀ line ∈ s.lines, ∀ r ∈ line.content.toRules, r.NamesForm

/-- What is asked of the rules of a sheet is asked of its accepted lines. -/
lemma namesForms_iff_rules {s : Sheet} : s.NamesForms ↔
    ∀ line ∈ s.lines, ∀ rules, line.content = .rules rules → ∀ r ∈ rules, r.NamesForm := by
  simp only [NamesForms, Content.mem_toRules_iff]
  constructor
  · exact fun h line hline rules hrules r hr => h line hline r ⟨rules, hrules, hr⟩
  · rintro h line hline r ⟨rules, hrules, hr⟩
    exact h line hline rules hrules r hr

/-- Every rule of a sheet names a form exactly when the sheet is barred, or the clauses on each of
its accepted lines name forms. -/
theorem namesForms_iff : (ofText path dialect v t).NamesForms ↔ dialect = .barred ∨
    ∀ line ∈ (ofText path dialect v t).lines, ∀ rules, line.content = .rules rules →
      Clausal.NamesForms line.source := by
  rw [namesForms_iff_rules]
  cases dialect with
  | barred =>
    refine iff_of_true (fun line hline rules hrules => ?_) (Or.inl rfl)
    obtain ⟨r, hr, rfl⟩ :=
      Content.rulesOfLine_barred_iff.mp (rulesOfLine_of_mem_lines hline hrules)
    exact List.forall_mem_singleton.mpr (Barred.namesForm_of_ruleOfLine hr)
  | clausal =>
    rw [or_iff_right Dialect.noConfusion]
    refine forall₂_congr fun line hline => forall₂_congr fun rules hrules => ?_
    exact Clausal.namesForm_iff_of_rulesOfLine (rulesOfLine_of_mem_lines hline hrules)

/-- A clausal line is accepted with an outfit that has no value. -/
theorem not_namesForms_of_blank_outfit : ¬ ∀ path dialect v t,
    (ofText path dialect v t).NamesForms := by
  intro h
  have hany : (ofText ⟨"a.ini".toList⟩ .clausal .standard "outfitDefault=".toList).lines.any
      (fun line => line.content.toRules.any fun r => r.form = []) = true := by
    decide +kernel
  obtain ⟨line, hline, hany⟩ := List.any_eq_true.mp hany
  obtain ⟨r, hr, hform⟩ := List.any_eq_true.mp hany
  exact (h _ _ _ _ line hline r hr).ne_nil (of_decide_eq_true hform)

end Sheet

end Wardrobe
