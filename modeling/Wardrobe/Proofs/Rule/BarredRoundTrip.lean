import Mathlib
import Wardrobe.Proofs.Rule.BarredWriting

/-!
# Writing a barred rule and reading it again

Three things may go wrong when an accepted rule is written and read.  A text section may join the
form in front of it, as in `0x800|Mod.esp`; when it does not, the rule is `Detached` and is read
again as `reread` (`ruleOfLine_toText`).  A section may say `NONE`, and is then read as one that
asks nothing.  And a lone negation opens no alternative (`Selection.regrouped`).  Nothing else is
lost.
-/

namespace Wardrobe

open Barred
open Text (Trimmed Unbroken)

/-- What is read of a selection that was written into a section. -/
def Selection.reread (s : Selection) : Selection :=
  if Text.sameAscii s.toText Rule.noneWord then everything else s.regrouped

namespace Rule

/-- What is read of a rule that was written, as long as no section joins its form. -/
def reread (r : Rule) : Rule :=
  { r with texts := r.texts.reread, forms := r.forms.reread, source := r.toText }

/-- The text section of a rule does not join its form. -/
def Detached (r : Rule) : Prop :=
  '~' ∈ r.form ∨ '|' ∈ r.form ∨ r.texts.isEmpty = true ∨
    ¬ (Plugin.isFileName r.form = true ∧ (FormId.ofText? r.texts.toText).isSome = true) ∧
      ¬ (Plugin.isFileName r.form = false ∧ Plugin.isFileName r.texts.toText = true)

/-- The form and the sections as they are written. -/
def value (r : Rule) : Text :=
  Text.join ['|'] (r.form :: r.written)

variable {v : Vocabulary} {r r' : Rule} {s : Selection} {line t : Text}

/-! ## The form -/

/-- The first section is the text section, or the word in its place. -/
lemma written_eq (r : Rule) : r.texts.isEmpty = true ∧ r.written = [] ∨
    ∃ ts, r.written = (if r.texts.isEmpty then noneWord else r.texts.toText) :: ts := by
  have hsections : r.sections = (if r.texts.isEmpty then none else some r.texts.toText) ::
      r.sections.tail := rfl
  rw [written, hsections]
  cases r.texts.isEmpty with
  | false => exact Or.inr ⟨_, writtenOf_some_cons _ _⟩
  | true =>
    rw [if_pos rfl, writtenOf_none_cons]
    split
    · exact Or.inl ⟨rfl, rfl⟩
    · exact Or.inr ⟨_, rfl⟩

/-- The form joins the section behind it exactly when the rule is not detached. -/
lemma joins_iff (hr : WellFormed v r) (hbar : '|' ∉ r.form) :
    Joins r.form (if r.texts.isEmpty then noneWord else r.texts.toText) ↔ ¬ r.Detached := by
  by_cases htilde : '~' ∈ r.form
  · exact iff_of_false (fun h => h.1 htilde) (not_not_intro (Or.inl htilde))
  · have hname := Plugin.hasEnding_iff hr.form.trimmed hbar htilde
    rw [Joins, hname, Detached]
    cases hempty : r.texts.isEmpty with
    | true =>
      have hid : (FormId.ofText? noneWord).isSome = false := by decide
      have hfile : Plugin.isFileName noneWord = false := by decide
      simp [hid, hfile]
    | false =>
      simp only [htilde, hbar, Bool.false_eq_true, if_false, false_or, not_and_or]
      tauto

/-- The form and the sections of a detached rule are told apart. -/
lemma splitForm_value (hr : WellFormed v r) (hd : r.Detached) :
    splitForm r.value = (r.form, behind r.written) := by
  have hsection : ∀ t ∈ r.written, '|' ∉ t := fun t ht hbar =>
    ((isSection_of_mem_written hr ht).unbroken _ hbar).1 rfl
  by_cases hpinned : '~' ∈ r.form ∨ '|' ∈ r.form
  · rw [value, join_bar_eq]
    exact splitForm_of_pinned hr.form hpinned (behind r.written)
  · have hbar : '|' ∉ r.form := fun h => hpinned (Or.inr h)
    rw [value]
    rcases written_eq r with ⟨-, hwritten⟩ | ⟨ts, hwritten⟩
    · simp [hwritten, splitForm, Text.cut_eq_none hbar, behind, Text.join]
    · rw [hwritten] at hsection ⊢
      refine (splitForm_join_cons hbar (hsection _ List.mem_cons_self) ts).2 fun hjoins => ?_
      exact (joins_iff hr hbar).mp hjoins hd

/-- A rule that is not detached is written with a longer form. -/
lemma splitForm_value_of_not (hr : WellFormed v r) (hd : ¬ r.Detached) :
    ∃ second, (splitForm r.value).1 = r.form ++ '|' :: second := by
  have hsection : ∀ t ∈ r.written, '|' ∉ t := fun t ht hbar =>
    ((isSection_of_mem_written hr ht).unbroken _ hbar).1 rfl
  have hbar : '|' ∉ r.form := fun h => hd (Or.inr (Or.inl h))
  rcases written_eq r with ⟨hempty, -⟩ | ⟨ts, hwritten⟩
  · exact absurd (Or.inr (Or.inr (Or.inl hempty))) hd
  · rw [hwritten] at hsection
    have hsplit := (splitForm_join_cons hbar (hsection _ List.mem_cons_self) ts).1
      ((joins_iff hr hbar).mpr hd)
    rw [value, hwritten]
    exact ⟨_, congrArg Prod.fst hsplit⟩

/-! ## The line -/

/-- The form and the sections are trimmed as a whole. -/
lemma trimmed_value (hr : WellFormed v r) : Trimmed r.value := by
  refine Text.trimmed_join _ (List.forall_mem_cons.mpr ⟨⟨hr.form.trimmed, hr.form.ne_nil⟩, ?_⟩)
  intro t ht
  have hsection := isSection_of_mem_written hr ht
  exact ⟨hsection.trimmed, hsection.ne_nil⟩

/-- No comment begins in what is written, and the word ends at the first separator. -/
lemma cut_toText (hr : WellFormed v r) : Text.cut '=' (Text.stripComment r.toText) =
    some (r.keyword ++ [' '], ' ' :: r.value) := by
  have hvalue : ∀ c ∈ r.value, c ≠ ';' ∧ c ≠ '#' := by
    intro c hc
    rcases Text.mem_join hc with rfl | ⟨t, ht, hc⟩
    · decide
    · rcases List.mem_cons.mp ht with rfl | ht
      · exact hr.form.uncommented c hc
      · exact ((isSection_of_mem_written hr ht).unbroken c hc).2
  have htext : r.toText = r.keyword ++ ' ' :: '=' :: ' ' :: r.value := toText_eq hr.dialect
  rw [htext, cut_word hr.keyword_marks, Text.stripComment_eq_self hvalue]

/-- What is written is accepted as the rules that its form and its sections make. -/
lemma ruleOfLine_toText_eq_ok_iff (hr : WellFormed v r) : ruleOfLine v r.toText = .ok r' ↔
    ∃ form, formOfText (splitForm r.value).1 = .ok form ∧
      (sectionsOf r.value).length ≤ maxSections ∧
      ReadsSections r.toText r.keyword r.gift form (sectionsOf r.value) r' := by
  have hblank : ∀ c ∈ [' '], Text.isBlank c = true := by simp [Text.isBlank]
  have hkeyword : Text.trim (r.keyword ++ [' ']) = r.keyword := by
    rw [Text.trim_append_blanks hblank, Text.trim_eq_self hr.keyword]
  have hvalue : Text.trim (' ' :: r.value) = r.value := by
    rw [← List.singleton_append, Text.trim_blanks_append hblank,
      Text.trim_eq_self (trimmed_value hr)]
  rw [ruleOfLine_eq_ok_iff, cut_toText hr]
  constructor
  · rintro ⟨before, after, gift, form, hpieces, hgift, hform, hlength, hread⟩
    obtain ⟨rfl, rfl⟩ := Prod.mk.injEq .. ▸ Option.some.inj hpieces
    rw [hkeyword, hr.gift, Option.some.injEq] at hgift
    subst hgift
    rw [hvalue] at hform hlength
    rw [hvalue, hkeyword] at hread
    exact ⟨form, hform, hlength, hread⟩
  · rintro ⟨form, hform, hlength, hread⟩
    refine ⟨_, _, r.gift, form, rfl, ?_, ?_, ?_, ?_⟩
    · rw [hkeyword, hr.gift]
    · rwa [hvalue]
    · rwa [hvalue]
    · rwa [hvalue, hkeyword]

/-! ## The sections -/

/-- What is read of a selection in its section. -/
lemma elim_selection (hs : s.Legible) :
    ((if s.isEmpty then none else some s.toText).bind sectionText?).elim .everything
      Selection.ofText = s.reread := by
  rw [Selection.reread]
  cases hempty : s.isEmpty with
  | true =>
    have heverything : s = .everything := by
      rw [Selection.isEmpty, Bool.and_eq_true, List.isEmpty_iff, List.isEmpty_iff] at hempty
      exact Selection.mk.injEq .. ▸ hempty
    subst heverything
    decide
  | false =>
    rw [if_neg Bool.false_ne_true, Option.bind_some,
      sectionText?_of_isSection (isSection_selection hs hempty)]
    split
    · rfl
    · exact Selection.ofText_toText hs

/-- A rule is read again from its sections. -/
lemma readsSections_written (hr : WellFormed v r) :
    ReadsSections r.toText r.keyword r.gift r.form r.written r.reread := by
  have htraits : asked r.written 3 = if r.traits = .nothing then none else some r.traits.toText :=
    (asked_written r 3).trans (bind_sectionText? (isEntry_traits r.traits))
  have hchance : asked r.written 5 =
      if r.chance = Chance.always then none else some (Text.ofNat r.chance) :=
    (asked_written r 5).trans (bind_sectionText? (isEntry_chance hr.chance))
  have hlevel : asked r.written 2 = r.level :=
    (asked_written r 2).trans (bind_sectionText? hr.level)
  have hcount : asked r.written 4 = r.count :=
    (asked_written r 4).trans (bind_sectionText? hr.count)
  exact
    { dialect := hr.dialect
      gift := rfl
      keyword := rfl
      form := rfl
      texts := by rw [asked_written]; exact (elim_selection hr.texts).symm
      forms := by rw [asked_written]; exact (elim_selection hr.forms).symm
      level := hlevel.symm
      levels := by rw [hlevel]; exact hr.levels
      traits := by
        rw [htraits]
        split
        · next h => exact congrArg Except.ok h.symm
        · next h => exact TraitDemand.ofText_toText h
      count := hcount.symm
      chance := by
        rw [hchance]
        split
        · next h => exact congrArg Except.ok h.symm
        · exact (chance_spec hr.chance).2
      source := rfl }

/-! ## Reading again -/

/-- A detached rule is read again from what is written for it. -/
theorem ruleOfLine_toText (hr : WellFormed v r) (hd : r.Detached) :
    ruleOfLine v r.toText = .ok r.reread := by
  have hsections : sectionsOf r.value = r.written := by
    rw [sectionsOf, splitForm_value hr hd]
    exact splitOn_behind fun t ht hbar => ((isSection_of_mem_written hr ht).unbroken _ hbar).1 rfl
  rw [ruleOfLine_toText_eq_ok_iff hr, hsections, splitForm_value hr hd]
  refine ⟨r.form, ?_, length_written_le r, readsSections_written hr⟩
  rw [formOfText_eq_ok_iff, Text.trim_eq_self hr.form.trimmed]
  exact ⟨rfl, hr.form.ne_nil, hr.form.isReference⟩

/-- Any other rule is read again, if at all, with another form. -/
theorem form_ne_of_not_detached (hr : WellFormed v r) (hd : ¬ r.Detached)
    (h : ruleOfLine v r.toText = .ok r') : r'.form ≠ r.form := by
  obtain ⟨form, hform, -, hread⟩ := (ruleOfLine_toText_eq_ok_iff hr).mp h
  obtain ⟨second, hsecond⟩ := splitForm_value_of_not hr hd
  obtain ⟨rfl, -, -⟩ := formOfText_eq_ok_iff.mp hform
  have hbar : '|' ∈ r'.form := by
    rw [hread.form, hsecond, Text.trim_append_cons (by decide)]
    simp
  intro heq
  exact hd (Or.inr (Or.inl (heq ▸ hbar)))

/-- A rule comes back when it is written and read, apart from the line that it was read from. -/
def ReadsBack (v : Vocabulary) (r : Rule) : Prop :=
  ∃ r', ruleOfLine v r.toText = .ok r' ∧ { r' with source := r.source } = r

instance (r : Rule) : Decidable r.Detached :=
  inferInstanceAs (Decidable (_ ∨ _ ∨ _ ∨ ¬ _ ∧ ¬ _))

/-- A selection comes back exactly when it does not say `NONE` and no alternative is lone. -/
lemma reread_selection_eq_iff : s.reread = s ↔
    Text.sameAscii s.toText noneWord = false ∧ ∀ g ∈ s.groups, ¬ g.IsLone := by
  rw [Selection.reread]
  cases hnone : Text.sameAscii s.toText noneWord with
  | true =>
    refine iff_of_false (fun h => ?_) fun h => Bool.false_ne_true h.1.symm
    rw [if_pos rfl] at h
    rw [← h] at hnone
    exact absurd hnone (by decide)
  | false =>
    rw [if_neg Bool.false_ne_true, Selection.regrouped_eq_self_iff]
    exact (and_iff_right rfl).symm

/-- Reading a rule again changes its selections and its line only. -/
lemma reread_eq_iff : { r.reread with source := r.source } = r ↔
    r.texts.reread = r.texts ∧ r.forms.reread = r.forms := by
  refine ⟨fun h => ⟨congrArg Rule.texts h, congrArg Rule.forms h⟩, fun ⟨htexts, hforms⟩ => ?_⟩
  rw [reread, htexts, hforms]

/-- An accepted rule comes back when it is written and read, exactly when no alternative of its
selections is lone, neither selection says `NONE`, and the text section does not join the form. -/
theorem readsBack_iff (h : ruleOfLine v line = .ok r) : r.ReadsBack v ↔
    (∀ g ∈ r.texts.groups ++ r.forms.groups, ¬ g.IsLone) ∧
      (Text.sameAscii r.texts.toText noneWord = false ∧
        Text.sameAscii r.forms.toText noneWord = false) ∧ r.Detached := by
  have hr := wellFormed_of_ruleOfLine h
  have hselections : { r.reread with source := r.source } = r ↔
      (∀ g ∈ r.texts.groups ++ r.forms.groups, ¬ g.IsLone) ∧
        Text.sameAscii r.texts.toText noneWord = false ∧
          Text.sameAscii r.forms.toText noneWord = false := by
    rw [reread_eq_iff, reread_selection_eq_iff, reread_selection_eq_iff, List.forall_mem_append]
    tauto
  rw [← and_assoc, ← hselections]
  constructor
  · rintro ⟨r', hread, hsame⟩
    have hform : r'.form = r.form := by rw [← hsame]
    have hd : r.Detached := by
      by_contra hd
      exact form_ne_of_not_detached hr hd hread hform
    rw [ruleOfLine_toText hr hd] at hread
    obtain rfl := Except.ok.inj hread
    exact ⟨hsame, hd⟩
  · rintro ⟨hsame, hd⟩
    exact ⟨r.reread, ruleOfLine_toText hr hd, hsame⟩

/-- A line that is accepted gives a rule with what is found of it. -/
lemma exists_of_any {p : Rule → Bool} (h : (ruleOfLine v line).toOption.any p = true) :
    ∃ r, ruleOfLine v line = .ok r ∧ p r = true := by
  cases hread : ruleOfLine v line with
  | error e => rw [hread] at h; cases h
  | ok r => rw [hread] at h; exact ⟨r, rfl, h⟩

/-- A rule with a plugin in its form, blanks, gaps, attached negations, a trait in lower case, a
chance with a fraction and a comment comes back. -/
theorem readsBack_of_plugin : ∃ r, ruleOfLine .standard
    "outfit = M.esp|0x8 | *Guard + -Dead , -C,A|none|5/20|f/-u||33.9 ; day".toList = .ok r ∧
      r.ReadsBack .standard := by
  have hany : (ruleOfLine .standard
      "outfit = M.esp|0x8 | *Guard + -Dead , -C,A|none|5/20|f/-u||33.9 ; day".toList).toOption.any
      (fun r => (∀ g ∈ r.texts.groups ++ r.forms.groups, ¬ g.IsLone) ∧
        (Text.sameAscii r.texts.toText noneWord = false ∧
          Text.sameAscii r.forms.toText noneWord = false) ∧ r.Detached) = true := by
    decide +kernel
  obtain ⟨r, hr, hconditions⟩ := exists_of_any hany
  exact ⟨r, hr, (readsBack_iff hr).mpr (of_decide_eq_true hconditions)⟩

end Rule

end Wardrobe
