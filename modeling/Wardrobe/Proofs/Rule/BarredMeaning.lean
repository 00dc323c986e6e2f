import Mathlib
import Wardrobe.Distribution.Selects
import Wardrobe.Proofs.Rule.BarredRoundTrip

/-!
# What a barred rule means when it is written and read

Writing a rule and reading it again may keep its meaning where it does not give the rule back.  A
selection that says `NONE` loses its only condition, and the text stays the same only if it was
spelled so and something is written behind it (`SpellsGaps`).  Regrouping keeps the text, and can
only narrow what is selected (`Selection.holds_of_regrouped`): `A,-B+*` asks for `A` or for no `B`,
and is read again as `A` without `B`.  So where no selection says `NONE`, a rule keeps its meaning
as soon as nobody whom it selects is lost (`keepsMeaning_iff`).
-/

namespace Wardrobe

open Barred

/-! ## The meaning of regrouping -/

namespace Selection

variable {s : Selection} {g : Group} {hit : Condition → Bool}

/-- A group that holds when another does, since it has no other conditions. -/
lemma groupHolds_of_subset {g' : Group} (hsub : g.conditions ⊆ g'.conditions)
    (h : groupHolds hit g' = true) : groupHolds hit g = true :=
  List.all_eq_true.mpr fun c hc => List.all_eq_true.mp h c (hsub hc)

/-- A selection holds when its exclusions do and, if it has groups, one of them does. -/
lemma holds_iff : s.holds hit = true ↔ s.exclusions.all (Condition.holds hit) = true ∧
    (s.groups = [] ∨ ∃ g ∈ s.groups, groupHolds hit g = true) := by
  rw [holds, Bool.and_eq_true, Bool.or_eq_true, List.isEmpty_iff, List.any_eq_true]

/-- A regrouped alternative has the conditions of the one that it came from, and maybe more. -/
lemma exists_subset_of_mem_rejoined {gs : List Group} {g' : Group}
    (hg' : g' ∈ (gs.foldr rejoin everything).groups) :
    ∃ g ∈ gs, g.conditions ⊆ g'.conditions := by
  induction gs with
  | nil => exact absurd hg' List.not_mem_nil
  | cons g rest ih =>
    have hrest : g' ∈ (rest.foldr rejoin everything).groups →
        ∃ g₁ ∈ g :: rest, g₁.conditions ⊆ g'.conditions := fun h => by
      obtain ⟨g₁, hg₁, hsub⟩ := ih h
      exact ⟨g₁, List.mem_cons_of_mem g hg₁, hsub⟩
    rw [List.foldr_cons, rejoin] at hg'
    split at hg'
    · exact hrest hg'
    · rcases List.mem_cons.mp hg' with rfl | hg'
      · refine ⟨g, List.mem_cons_self, ?_⟩
        rw [Group.conditions, Group.conditions, ← List.append_assoc]
        exact List.subset_append_left _ _
      · exact hrest hg'

/-- When rejoined alternatives hold, one of the alternatives does. -/
lemma exists_of_holds_rejoined {gs : List Group} (hne : gs ≠ [])
    (h : (gs.foldr rejoin everything).holds hit = true) : ∃ g ∈ gs, groupHolds hit g = true := by
  obtain ⟨g, rest, rfl⟩ := List.exists_cons_of_ne_nil hne
  obtain ⟨hexclusions, hgroups⟩ := holds_iff.mp h
  rcases hgroups with hnil | ⟨g', hg', hholds⟩
  · -- no alternative is left, so the first one is lone and now excludes
    rw [List.foldr_cons, rejoin] at hnil hexclusions
    split at hnil
    · next hlone =>
      rw [if_pos hlone, List.all_append, Bool.and_eq_true] at hexclusions
      exact ⟨g, List.mem_cons_self, hexclusions.1⟩
    · exact absurd hnil (List.cons_ne_nil _ _)
  · obtain ⟨g₁, hg₁, hsub⟩ := exists_subset_of_mem_rejoined hg'
    exact ⟨g₁, hg₁, groupHolds_of_subset hsub hholds⟩

/-- A regrouped selection holds only where the selection did. -/
theorem holds_of_regrouped (h : s.regrouped.holds hit = true) : s.holds hit = true := by
  obtain ⟨hexclusions, hgroups⟩ := holds_iff.mp h
  rw [regrouped, List.all_append, Bool.and_eq_true] at hexclusions
  refine holds_iff.mpr ⟨hexclusions.1, ?_⟩
  by_cases hnil : s.groups = []
  · exact Or.inl hnil
  · exact Or.inr (exists_of_holds_rejoined hnil (holds_iff.mpr ⟨hexclusions.2, hgroups⟩))

/-- A selection that does not say `NONE` holds wherever what is read of it does. -/
lemma holds_of_reread (hword : Text.sameAscii s.toText Rule.noneWord = false)
    (h : s.reread.holds hit = true) : s.holds hit = true := by
  rw [reread, hword, if_neg Bool.false_ne_true] at h
  exact holds_of_regrouped h

end Selection

/-! ## The same text -/

namespace Rule

variable {v : Vocabulary} {r : Rule} {line : Text} {l m : List (Option Text)}

/-- A section without a text that says `NONE`. -/
def ungap (s : Option Text) : Option Text :=
  s.bind fun t => if Text.sameAscii t noneWord then none else some t

lemma ungap_of_none {t : Text} (h : Text.sameAscii t noneWord = true) : ungap (some t) = none := by
  rw [ungap, Option.bind_some, if_pos h]

lemma ungap_of_ne_none {t : Text} (h : Text.sameAscii t noneWord = false) :
    ungap (some t) = some t := by
  rw [ungap, Option.bind_some, h]
  rfl

/-- Every section that says `NONE` is spelled so, and one that says something else stands behind. -/
def SpellsGaps (r : Rule) : Prop :=
  ∀ t l, some t :: l <:+ r.sections → Text.sameAscii t noneWord = true →
    t = noneWord ∧ ∃ u, some u ∈ l ∧ Text.sameAscii u noneWord = false

/-- A gap in front makes two lists of sections differ only where they did. -/
lemma writtenOf_none_cons_inj :
    writtenOf (none :: l) = writtenOf (none :: m) ↔ writtenOf l = writtenOf m := by
  rw [writtenOf_none_cons, writtenOf_none_cons]
  constructor
  · intro h
    split at h
    · next hl =>
      split at h
      · next hm => rw [hl, hm]
      · cases h
    · split at h
      · cases h
      · exact (List.cons.inj h).2
  · intro h
    rw [h]

/-- What holds at every text of a list of sections holds at the first and at those behind it. -/
lemma forall_suffix_cons {p : Text → List (Option Text) → Prop} {s : Option Text} :
    (∀ t m, some t :: m <:+ s :: l → p t m) ↔
      (∀ t, s = some t → p t l) ∧ ∀ t m, some t :: m <:+ l → p t m := by
  constructor
  · intro h
    refine ⟨?_, fun t m hm => h t m (hm.trans (List.suffix_cons s l))⟩
    rintro t rfl
    exact h t l (List.suffix_refl _)
  · rintro ⟨hfirst, hrest⟩ t m hm
    rcases List.suffix_cons_iff.mp hm with heq | hm
    · obtain ⟨rfl, rfl⟩ := List.cons.inj heq
      exact hfirst t rfl
    · exact hrest t m hm

/-- Something is left to write when some text does not say `NONE`. -/
lemma writtenOf_map_ungap_ne_nil :
    writtenOf (l.map ungap) ≠ [] ↔ ∃ u, some u ∈ l ∧ Text.sameAscii u noneWord = false := by
  rw [Ne, writtenOf_eq_nil_iff]
  push Not
  constructor
  · rintro ⟨s, hs, hne⟩
    obtain ⟨s, hs', rfl⟩ := List.mem_map.mp hs
    cases s with
    | none => exact absurd rfl hne
    | some u =>
      refine ⟨u, hs', Bool.eq_false_iff.mpr fun hsays => ?_⟩
      exact hne (ungap_of_none hsays)
  · rintro ⟨u, hu, hsays⟩
    exact ⟨some u, List.mem_map.mpr ⟨some u, hu, ungap_of_ne_none hsays⟩, Option.some_ne_none u⟩

/-- Gaps in place of the texts that say `NONE` are written in the same way exactly when each of
these is spelled so and something else is written behind it. -/
lemma writtenOf_map_ungap_iff : writtenOf (l.map ungap) = writtenOf l ↔
    ∀ t m, some t :: m <:+ l → Text.sameAscii t noneWord = true →
      t = noneWord ∧ ∃ u, some u ∈ m ∧ Text.sameAscii u noneWord = false := by
  induction l with
  | nil => simp
  | cons s l ih =>
    rw [forall_suffix_cons, ← ih, List.map_cons]
    cases s with
    | none =>
      rw [ungap, Option.bind_none, writtenOf_none_cons_inj]
      exact (and_iff_right nofun).symm
    | some t =>
      simp only [Option.some.injEq, forall_eq', writtenOf_some_cons]
      cases hsays : Text.sameAscii t noneWord with
      | false =>
        rw [ungap_of_ne_none hsays, writtenOf_some_cons, List.cons_inj_right]
        exact (and_iff_right fun h => absurd h Bool.false_ne_true).symm
      | true =>
        rw [ungap_of_none hsays, writtenOf_none_cons, ← writtenOf_map_ungap_ne_nil]
        by_cases hnil : writtenOf (l.map ungap) = []
        · rw [if_pos hnil]
          exact iff_of_false (List.cons_ne_nil _ _).symm fun h => (h.1 rfl).2 hnil
        · rw [if_neg hnil, List.cons.injEq, eq_comm]
          exact and_congr_left fun _ => ⟨fun h _ => ⟨h, hnil⟩, fun h => (h rfl).1⟩

/-- Reading a rule again leaves gaps in place of the sections that say `NONE`. -/
lemma sections_reread (hr : WellFormed v r) : r.reread.sections = r.sections.map ungap := by
  have hselection : ∀ s : Selection,
      (if s.reread.isEmpty then none else some s.reread.toText) =
        ungap (if s.isEmpty then none else some s.toText) := by
    intro s
    rw [Selection.reread]
    cases hempty : s.isEmpty with
    | true =>
      split
      · rfl
      · rw [Selection.isEmpty_regrouped, hempty]
        rfl
    | false =>
      cases hsays : Text.sameAscii s.toText noneWord with
      | true => exact (ungap_of_none hsays).symm
      | false =>
        rw [if_neg Bool.false_ne_true, Selection.isEmpty_regrouped, Selection.toText_regrouped,
          hempty]
        exact (ungap_of_ne_none hsays).symm
  have hentry : ∀ s : Option Text, (∀ t ∈ s, IsEntry t) → ungap s = s := by
    intro s hs
    cases s with
    | none => rfl
    | some t => exact ungap_of_ne_none (hs t rfl).ne_none
  simp only [sections, List.map_cons, List.map_nil, hentry _ hr.level, hentry _ hr.count,
    hentry _ (isEntry_traits r.traits), hentry _ (isEntry_chance hr.chance), ← hselection]
  rfl

/-- A rule whose selections do not say `NONE` has no gaps to spell out. -/
lemma spellsGaps_of_ne_none (hr : WellFormed v r)
    (htexts : Text.sameAscii r.texts.toText noneWord = false)
    (hforms : Text.sameAscii r.forms.toText noneWord = false) : r.SpellsGaps := by
  have hsections : r.reread.sections = r.sections := by
    simp only [sections, reread, Selection.reread, htexts, hforms, Bool.false_eq_true, if_false,
      Selection.isEmpty_regrouped, Selection.toText_regrouped]
  refine writtenOf_map_ungap_iff.mp ?_
  rw [← sections_reread hr, hsections]

/-- A detached rule is written with the same text again exactly when its gaps are spelled out. -/
lemma toText_reread_iff (hr : WellFormed v r) (hd : r.Detached) :
    r.reread.toText = r.toText ↔ r.SpellsGaps := by
  have hr' : WellFormed v r.reread := wellFormed_of_ruleOfLine (ruleOfLine_toText hr hd)
  have hbar : ∀ {r : Rule}, WellFormed v r → ∀ t ∈ r.written, '|' ∉ t := fun hr t ht hmem =>
    ((isSection_of_mem_written hr ht).unbroken _ hmem).1 rfl
  have htexts : r.reread.toText = r.toText ↔ r.reread.written = r.written := by
    rw [toText_eq hr'.dialect, toText_eq hr.dialect]
    constructor
    · intro h
      have hjoin := List.append_cancel_left h
      simp only [List.cons.injEq, true_and] at hjoin
      exact join_bar_inj (hbar hr') (hbar hr) hjoin
    · intro h
      rw [h]
      rfl
  rw [htexts, written, written, sections_reread hr, writtenOf_map_ungap_iff, SpellsGaps]

/-! ## The same meaning -/

/-- Two rules hand out the same in the same cases: they have the gift, the form, the count, the
chance, the traits and the levels in common, and select the same actors. -/
structure MeansSame (r' r : Rule) : Prop where
  gift : r'.gift = r.gift
  form : r'.form = r.form
  count : r'.count = r.count
  chance : r'.chance = r.chance
  traits : r'.traits = r.traits
  levels : r'.levels = r.levels
  selects : ∀ a, r'.selects a [] = r.selects a []

/-- A rule that is written and read means the same, and is written in the same way again. -/
def KeepsMeaning (v : Vocabulary) (r : Rule) : Prop :=
  ∃ r', ruleOfLine v r.toText = .ok r' ∧ r'.MeansSame r ∧ r'.toText = r.toText

/-- A rule keeps its meaning when what is read of it is written in the same way and selects the same
actors. -/
lemma keepsMeaning_iff_reread (h : ruleOfLine v line = .ok r) : r.KeepsMeaning v ↔
    r.Detached ∧ r.SpellsGaps ∧ ∀ a, r.reread.selects a [] = r.selects a [] := by
  have hr := wellFormed_of_ruleOfLine h
  constructor
  · rintro ⟨r', hread, hsame, htext⟩
    have hd : r.Detached := by
      by_contra hd
      exact form_ne_of_not_detached hr hd hread hsame.form
    rw [ruleOfLine_toText hr hd] at hread
    obtain rfl := Except.ok.inj hread
    exact ⟨hd, (toText_reread_iff hr hd).mp htext, hsame.selects⟩
  · rintro ⟨hd, hgaps, hselects⟩
    exact ⟨r.reread, ruleOfLine_toText hr hd, ⟨rfl, rfl, rfl, rfl, rfl, rfl, hselects⟩,
      (toText_reread_iff hr hd).mpr hgaps⟩

/-- A rule whose selections do not say `NONE` selects every actor that is selected by what is read
of it. -/
lemma selects_of_reread {a : Actor} {gained : List Text}
    (htexts : Text.sameAscii r.texts.toText noneWord = false)
    (hforms : Text.sameAscii r.forms.toText noneWord = false)
    (h : r.reread.selects a gained = true) : r.selects a gained = true := by
  simp only [selects, reread, Bool.and_eq_true] at h ⊢
  exact ⟨⟨h.1.1, Selection.holds_of_reread htexts h.1.2⟩, Selection.holds_of_reread hforms h.2⟩

/-- Writing and reading keep the meaning of an accepted rule exactly when the text section does not
join the form, gaps are spelled out, and the selections that are read select the same actors.  Where
neither selection says `NONE` there are no gaps, and it is enough that no actor is lost. -/
theorem keepsMeaning_iff (h : ruleOfLine v line = .ok r) :
    (r.KeepsMeaning v ↔
      r.Detached ∧ r.SpellsGaps ∧ ∀ a, r.reread.selects a [] = r.selects a []) ∧
    (Text.sameAscii r.texts.toText noneWord = false →
      Text.sameAscii r.forms.toText noneWord = false →
        (r.KeepsMeaning v ↔
          r.Detached ∧ ∀ a, r.selects a [] = true → r.reread.selects a [] = true)) := by
  refine ⟨keepsMeaning_iff_reread h, fun htexts hforms => ?_⟩
  rw [keepsMeaning_iff_reread h]
  constructor
  · rintro ⟨hd, -, hselects⟩
    exact ⟨hd, fun a ha => (hselects a).trans ha⟩
  · rintro ⟨hd, hkept⟩
    have hgaps := spellsGaps_of_ne_none (wellFormed_of_ruleOfLine h) htexts hforms
    exact ⟨hd, hgaps, fun a =>
      Bool.eq_iff_iff.mpr ⟨selects_of_reread htexts hforms, hkept a⟩⟩

/-- An attached negation and a gap in lower case keep their meaning. -/
theorem keepsMeaning_of_gap : ∃ r, ruleOfLine .standard "Outfit = A|B,-C|none|5".toList = .ok r ∧
    r.KeepsMeaning .standard := by
  have hany : (ruleOfLine .standard "Outfit = A|B,-C|none|5".toList).toOption.any (fun r =>
      r.Detached ∧ (Text.sameAscii r.texts.toText noneWord = false ∧
        Text.sameAscii r.forms.toText noneWord = false) ∧
          r.reread.texts = r.texts ∧ r.reread.forms = r.forms) = true := by
    decide +kernel
  obtain ⟨r, hr, hconditions⟩ := exists_of_any hany
  obtain ⟨hd, ⟨hword, hword'⟩, htexts, hforms⟩ := of_decide_eq_true hconditions
  refine ⟨r, hr, ((keepsMeaning_iff hr).2 hword hword').mpr ⟨hd, fun a ha => ?_⟩⟩
  rw [selects, htexts, hforms]
  exact ha

/-- A lone negation is lost: `B` or no `C` is read again as `B` without `C`. -/
theorem not_keepsMeaning_of_lone : ¬ ∀ (v : Vocabulary) (line : Text) (r : Rule),
    ruleOfLine v line = .ok r → r.KeepsMeaning v := by
  intro h
  have hany : (ruleOfLine .standard "Outfit = A|B,-C+*".toList).toOption.any (fun r =>
      (ruleOfLine .standard r.toText).toOption.any fun r' =>
        r'.selects (.ofKey ⟨"Skyrim.esm".toList, 16⟩ "Guard".toList) [] !=
          r.selects (.ofKey ⟨"Skyrim.esm".toList, 16⟩ "Guard".toList) []) = true := by
    decide +kernel
  obtain ⟨r, hr, hany⟩ := exists_of_any hany
  obtain ⟨r', hr', hne⟩ := exists_of_any hany
  obtain ⟨s, hs, hsame, -⟩ := h _ _ r hr
  rw [hr'] at hs
  obtain rfl := Except.ok.inj hs
  exact bne_iff_ne.mp hne (hsame.selects _)

end Rule

end Wardrobe
