import Mathlib
import Wardrobe.Proofs.Form.PluginBar
import Wardrobe.Proofs.Rule.SelectionText
import Wardrobe.Rule.Barred

/-!
# What reading a barred line gives

`ReadsSections` lists what the sections of an accepted line make of a rule, and
`ruleOfLine_eq_ok_iff` puts a line together from its pieces.  The rules that come from reading are
*well formed* (`wellFormed_of_ruleOfLine`): their texts are trimmed and hold no character that
would end them early, and a bar stands in the form only between two segments that form one
reference (`Joins`).
-/

namespace Wardrobe.Barred

open Text (Trimmed Unbroken)

variable {v : Vocabulary} {line keyword form t first second second' after value : Text}
  {gift : Gift} {sections : List Text} {r : Rule}

/-! ## Sections -/

/-- A text that fills a section. -/
structure IsSection (t : Text) : Prop where
  trimmed : Trimmed t
  ne_nil : t ≠ []
  unbroken : Unbroken t

/-- A text that fills a section and asks something. -/
structure IsEntry (t : Text) : Prop extends IsSection t where
  ne_none : Text.sameAscii t Rule.noneWord = false

/-- What is read from a section: its text, unless it is the word for an unconstrained section. -/
lemma sectionText?_of_isSection (ht : IsSection t) :
    sectionText? t = if Text.sameAscii t Rule.noneWord then none else some t := by
  have htrim := Text.trim_eq_self ht.trimmed
  by_cases hnone : Text.sameAscii t Rule.noneWord = true
  · rw [if_pos hnone, sectionText?]
    simp [htrim, hnone]
  · rw [if_neg hnone, sectionText?]
    simp [htrim, hnone, ht.ne_nil]

/-- An entry is read as it stands. -/
lemma bind_sectionText? {s : Option Text} (hs : ∀ t ∈ s, IsEntry t) : s.bind sectionText? = s := by
  cases s with
  | none => rfl
  | some t =>
    have ht := hs t rfl
    rw [Option.bind_some, sectionText?_of_isSection ht.toIsSection, ht.ne_none]
    rfl

/-- What is read from a section fills one and asks something. -/
lemma isEntry_of_sectionText? {piece : Text} (hpiece : Unbroken piece)
    (h : sectionText? piece = some t) : IsEntry t := by
  simp only [sectionText?] at h
  split at h
  · cases h
  · next hno =>
    rw [not_or, Bool.not_eq_true] at hno
    rw [Option.some.injEq] at h
    subst h
    exact ⟨⟨Text.trimmed_trim piece, hno.1, hpiece.trim⟩, hno.2⟩

/-- What the section at a position asks. -/
def asked (sections : List Text) (i : Nat) : Option Text :=
  sections[i]?.bind sectionText?

/-- A rule is what its sections make of it. -/
structure ReadsSections (line keyword : Text) (gift : Gift) (form : Text) (sections : List Text)
    (r : Rule) : Prop where
  dialect : r.dialect = .barred
  gift : r.gift = gift
  keyword : r.keyword = keyword
  form : r.form = form
  texts : r.texts = (asked sections 0).elim .everything Selection.ofText
  forms : r.forms = (asked sections 1).elim .everything Selection.ofText
  level : r.level = asked sections 2
  levels : (asked sections 2).elim (.ok []) LevelTest.listOfText = .ok r.levels
  traits : (asked sections 3).elim (.ok .nothing) TraitDemand.ofText = .ok r.traits
  count : r.count = asked sections 4
  chance : (asked sections 5).elim (.ok Chance.always) Chance.ofText = .ok r.chance
  source : r.source = line

/-- The levels are read before the traits and these before the chance; nothing else can be wrong
with the sections. -/
lemma ruleOfSections_eq : ruleOfSections line keyword gift form sections =
    ((asked sections 2).elim (.ok []) LevelTest.listOfText).bind fun levels =>
      ((asked sections 3).elim (.ok .nothing) TraitDemand.ofText).bind fun traits =>
        ((asked sections 5).elim (.ok Chance.always) Chance.ofText).bind fun chance =>
          .ok ⟨.barred, gift, keyword, form,
            (asked sections 0).elim .everything Selection.ofText,
            (asked sections 1).elim .everything Selection.ofText,
            asked sections 2, levels, traits, asked sections 4, chance, line⟩ := rfl

/-- The form and the line go into a rule as they are. -/
lemma ruleOfSections_map {line' form' : Text} :
    ruleOfSections line' keyword gift form' sections =
      (ruleOfSections line keyword gift form sections).map fun r =>
        { r with form := form', source := line' } := by
  rw [ruleOfSections_eq, ruleOfSections_eq]
  cases (asked sections 2).elim (.ok []) LevelTest.listOfText with
  | error e => rfl
  | ok levels =>
    cases (asked sections 3).elim (.ok .nothing) TraitDemand.ofText with
    | error e => rfl
    | ok traits =>
      cases (asked sections 5).elim (.ok Chance.always) Chance.ofText with
      | error e => rfl
      | ok chance => rfl

/-- The sections are accepted as a rule that is what they make of it. -/
lemma ruleOfSections_eq_ok_iff :
    ruleOfSections line keyword gift form sections = .ok r ↔
      ReadsSections line keyword gift form sections r := by
  constructor
  · intro h
    rw [ruleOfSections_eq] at h
    cases hlevels : (asked sections 2).elim (.ok []) LevelTest.listOfText with
    | error e => rw [hlevels] at h; cases h
    | ok levels =>
      cases htraits : (asked sections 3).elim (.ok .nothing) TraitDemand.ofText with
      | error e => rw [hlevels, htraits] at h; cases h
      | ok traits =>
        cases hchance : (asked sections 5).elim (.ok Chance.always) Chance.ofText with
        | error e => rw [hlevels, htraits, hchance] at h; cases h
        | ok chance =>
          rw [hlevels, htraits, hchance] at h
          obtain rfl := Except.ok.inj h
          exact ⟨rfl, rfl, rfl, rfl, rfl, rfl, rfl, hlevels, htraits, rfl, hchance, rfl⟩
  · intro h
    obtain ⟨hdialect, hgift, hkeyword, hform, htexts, hforms, hlevel, hlevels, htraits, hcount,
      hchance, hsource⟩ := h
    rw [ruleOfSections_eq, hlevels, htraits, hchance]
    simp only [Except.bind]
    rw [← hgift, ← hkeyword, ← hform, ← htexts, ← hforms, ← hlevel, ← hcount, ← hsource, ← hdialect]

/-! ## Lines -/

/-- A form is accepted when it is a reference. -/
lemma formOfText_eq_ok_iff : formOfText value = .ok form ↔
    form = Text.trim value ∧ form ≠ [] ∧ (Reference.ofText? form).isSome = true := by
  simp only [formOfText]
  split
  · next hnil =>
    refine ⟨nofun, ?_⟩
    rintro ⟨rfl, hne, -⟩
    exact absurd hnil hne
  · next hne =>
    split
    · next hnone =>
      refine ⟨nofun, ?_⟩
      rintro ⟨rfl, -, hsome⟩
      rw [Option.isNone_iff_eq_none] at hnone
      rw [hnone] at hsome
      cases hsome
    · next hsome =>
      rw [Bool.not_eq_true, Option.isNone_eq_false_iff] at hsome
      refine ⟨fun h => ?_, ?_⟩
      · obtain rfl := Except.ok.inj h
        exact ⟨rfl, hne, hsome⟩
      · rintro ⟨rfl, -, -⟩
        rfl

/-- The texts of the sections behind the form. -/
def sectionsOf (value : Text) : List Text :=
  (splitForm value).2.elim [] (·.splitOn '|')

/-- The word of a line ends at the separator, if it holds none and no comment begins in it. -/
lemma cut_word (hkeyword : ∀ c ∈ keyword, c ≠ '=' ∧ c ≠ ';' ∧ c ≠ '#') (value : Text) :
    Text.cut '=' (Text.stripComment (keyword ++ ' ' :: '=' :: ' ' :: value)) =
      some (keyword ++ [' '], ' ' :: Text.stripComment value) := by
  have hmarks : ∀ c ∈ keyword, (c != ';' && c != '#') = true := fun c hc => by
    simpa using (hkeyword c hc).2
  have hword : '=' ∉ keyword ++ [' '] := by
    rw [List.mem_append, List.mem_singleton, not_or]
    exact ⟨fun h => (hkeyword _ h).1 rfl, by decide⟩
  have hstrip : Text.stripComment (keyword ++ ' ' :: '=' :: ' ' :: value) =
      (keyword ++ [' ']) ++ '=' :: ' ' :: Text.stripComment value := by
    rw [Text.stripComment, List.takeWhile_append_of_pos hmarks]
    simp [Text.stripComment]
  rw [hstrip, Text.cut_append_cons hword]

/-- A line without a separator is rejected for that, if it is not empty. -/
lemma ruleOfLine_of_notMem (h : '=' ∉ Text.stripComment line) :
    ruleOfLine v line =
      .error (if Text.trim (Text.stripComment line) = [] then .empty else .noSeparator) := by
  have hcut : Text.cut '=' (Text.trim (Text.stripComment line)) = none :=
    Text.cut_eq_none fun hmem => h (Text.mem_of_mem_trim hmem)
  simp only [ruleOfLine, hcut]
  split <;> rfl

/-- A line with a separator is read word first, then form, then sections. -/
lemma ruleOfLine_of_cut {before : Text}
    (hcut : Text.cut '=' (Text.stripComment line) = some (before, after)) :
    ruleOfLine v line = (v.lookup? (Text.trim before)).elim
      (.error (.unknownKeyword (Text.trim before))) fun gift =>
        (formOfText (splitForm (Text.trim after)).1).bind fun form =>
          if maxSections < (sectionsOf (Text.trim after)).length then
            .error (.tooManySections (sectionsOf (Text.trim after)).length)
          else ruleOfSections line (Text.trim before) gift form (sectionsOf (Text.trim after)) := by
  have hequals : Text.isBlank '=' = false := by decide
  have hne : Text.trim (Text.stripComment line) ≠ [] := by
    intro hnil
    have hcut' := Text.cut_trim hequals (Text.stripComment line)
    rw [hcut, hnil] at hcut'
    cases hcut'
  simp only [ruleOfLine, if_neg hne, Text.cut_trim hequals, hcut, Option.map_some,
    Text.trim_trimStart, Text.trim_trimEnd]
  cases v.lookup? (Text.trim before) with
  | none => rfl
  | some gift => rfl

/-- A line is accepted when it has a separator, a known word before it, and behind it a form and at
most six sections that make a rule. -/
lemma ruleOfLine_eq_ok_iff : ruleOfLine v line = .ok r ↔
    ∃ before after gift form, Text.cut '=' (Text.stripComment line) = some (before, after) ∧
      v.lookup? (Text.trim before) = some gift ∧
      formOfText (splitForm (Text.trim after)).1 = .ok form ∧
      (sectionsOf (Text.trim after)).length ≤ maxSections ∧
      ReadsSections line (Text.trim before) gift form (sectionsOf (Text.trim after)) r := by
  simp only [← ruleOfSections_eq_ok_iff]
  cases hcut : Text.cut '=' (Text.stripComment line) with
  | none =>
    rw [ruleOfLine_of_notMem (Text.notMem_of_cut_eq_none hcut)]
    exact ⟨nofun, fun ⟨_, _, _, _, h, _⟩ => by cases h⟩
  | some pieces =>
    obtain ⟨before, after⟩ := pieces
    rw [ruleOfLine_of_cut hcut]
    constructor
    · intro h
      cases hgift : v.lookup? (Text.trim before) with
      | none => rw [hgift] at h; cases h
      | some gift =>
        cases hform : formOfText (splitForm (Text.trim after)).1 with
        | error e => rw [hgift, hform] at h; cases h
        | ok form =>
          rw [hgift, hform] at h
          simp only [Option.elim_some, Except.bind] at h
          split at h
          · cases h
          · next hlength =>
            exact ⟨before, after, gift, form, rfl, hgift, hform, not_lt.mp hlength, h⟩
    · rintro ⟨before', after', gift, form, hpieces, hgift, hform, hlength, h⟩
      rw [Option.some.injEq, Prod.mk.injEq] at hpieces
      obtain ⟨rfl, rfl⟩ := hpieces
      rw [hgift, hform]
      simp only [Option.elim_some, Except.bind, if_neg (not_lt.mpr hlength)]
      exact h

/-! ## Forms -/

/-- Two segments around the first bar that form one reference. -/
def Joins (first second : Text) : Prop :=
  '~' ∉ first ∧ (Plugin.HasEnding first ∧ (FormId.ofText? second).isSome = true ∨
    Plugin.isFileName first = false ∧ Plugin.isFileName second = true)

/-- Only the two segments decide whether the bar between them is inside the form. -/
lemma barJoins_iff (hbar : '|' ∉ first) :
    barJoins (first ++ '|' :: after) first second = true ↔ Joins first second := by
  rw [barJoins, Joins, Bool.and_eq_true, Bool.or_eq_true, Bool.and_eq_true, Bool.and_eq_true,
    beq_iff_eq, Plugin.atBar?_iff hbar, Bool.not_eq_true', Bool.not_eq_true',
    List.contains_eq_mem, decide_eq_false_iff_not]

/-- Blanks around the second segment make no difference. -/
lemma joins_congr (h : Text.trim second = Text.trim second') :
    Joins first second ↔ Joins first second' := by
  have hid : FormId.ofText? second = FormId.ofText? second' := by
    rw [← FormId.ofText?_trim, h, FormId.ofText?_trim]
  have hname : Plugin.isFileName second = Plugin.isFileName second' := by
    rw [← Plugin.isFileName_trim, h, Plugin.isFileName_trim]
  rw [Joins, Joins, hid, hname]

/-- A text that can be the form of a rule: a reference, with a bar only where it joins. -/
structure IsForm (t : Text) : Prop where
  trimmed : Trimmed t
  ne_nil : t ≠ []
  isReference : (Reference.ofText? t).isSome = true
  uncommented : ∀ c ∈ t, c ≠ ';' ∧ c ≠ '#'
  bar : '|' ∈ t → ∃ first second, t = first ++ '|' :: second ∧ '|' ∉ first ∧ '|' ∉ second ∧
    Joins first second

/-- The second segment ends before the next bar. -/
lemma bar_notMem_takeWhile (after : Text) : '|' ∉ after.takeWhile (· != '|') := by
  intro hmem
  have := List.mem_takeWhile_imp hmem
  simp at this

/-- The form and the sections hold only characters of the text that is split. -/
lemma splitForm_subset (value : Text) : (splitForm value).1 ⊆ value ∧
    ∀ rest ∈ (splitForm value).2, rest ⊆ value := by
  by_cases hbar : '|' ∈ value
  · obtain ⟨first, after, rfl, hfirst⟩ := List.eq_append_cons_of_mem hbar
    rw [splitForm, Text.cut_append_cons hfirst]
    simp only
    split
    · refine ⟨?_, fun rest hrest => ?_⟩
      · exact List.append_subset.mpr ⟨List.subset_append_left _ _,
          List.subset_append_of_subset_right _ (List.cons_subset_cons _ (List.takeWhile_subset _))⟩
      · obtain ⟨⟨second, rest'⟩, hcut, rfl⟩ := Option.mem_map.mp hrest
        obtain ⟨rfl, -⟩ := Text.cut_eq_some_iff.mp hcut
        intro c hc
        simp [hc]
    · refine ⟨List.subset_append_left _ _, fun rest hrest => ?_⟩
      obtain rfl := Option.mem_some.mp hrest
      exact fun c hc => List.mem_append_right _ (List.mem_cons_of_mem _ hc)
  · rw [splitForm, Text.cut_eq_none hbar]
    exact ⟨List.Subset.refl _, nofun⟩

/-- The form that is split off is accepted only as a form. -/
lemma isForm_of_formOfText (hvalue : Trimmed value) (hmarks : ∀ c ∈ value, c ≠ ';' ∧ c ≠ '#')
    (h : formOfText (splitForm value).1 = .ok form) : IsForm form := by
  obtain ⟨rfl, hne, hreference⟩ := formOfText_eq_ok_iff.mp h
  refine ⟨Text.trimmed_trim _, hne, hreference,
    fun c hc => hmarks c ((splitForm_subset value).1 (Text.mem_of_mem_trim hc)), fun hmem => ?_⟩
  by_cases hbar : '|' ∈ value
  · obtain ⟨first, after, rfl, hfirst⟩ := List.eq_append_cons_of_mem hbar
    rw [splitForm, Text.cut_append_cons hfirst] at hmem ⊢
    simp only at hmem ⊢
    split at hmem
    · next hjoins =>
      have hstart : Text.trimStart first = first := by
        have htrim := Text.trimStart_eq_self hvalue.head
        rw [Text.trimStart_append_cons (by decide)] at htrim
        exact List.append_cancel_right htrim
      rw [if_pos hjoins, Text.trim_append_cons (by decide), hstart]
      refine ⟨first, _, rfl, hfirst, fun hsecond => ?_, ?_⟩
      · exact bar_notMem_takeWhile after (Text.mem_of_mem_trimEnd hsecond)
      · rw [joins_congr (Text.trim_trimEnd _)]
        exact (barJoins_iff hfirst).mp hjoins
    · exact absurd (Text.mem_of_mem_trim hmem) hfirst
  · exact absurd ((splitForm_subset value).1 (Text.mem_of_mem_trim hmem)) hbar

/-! ## Accepted rules -/

/-- What holds of every rule that is read: its texts can be written again where they stood. -/
structure WellFormed (v : Vocabulary) (r : Rule) : Prop where
  dialect : r.dialect = .barred
  gift : v.lookup? r.keyword = some r.gift
  keyword : Trimmed r.keyword
  keyword_marks : ∀ c ∈ r.keyword, c ≠ '=' ∧ c ≠ ';' ∧ c ≠ '#'
  form : IsForm r.form
  texts : r.texts.Legible
  forms : r.forms.Legible
  level : ∀ t ∈ r.level, IsEntry t
  levels : r.level.elim (.ok []) LevelTest.listOfText = .ok r.levels
  count : ∀ t ∈ r.count, IsEntry t
  chance : r.chance ≤ Chance.always

/-- A section stands between bars, outside a comment. -/
lemma unbroken_of_mem_sectionsOf (hmarks : ∀ c ∈ value, c ≠ ';' ∧ c ≠ '#')
    (ht : t ∈ sectionsOf value) : Unbroken t := by
  rw [sectionsOf] at ht
  cases hrest : (splitForm value).2 with
  | none =>
    rw [hrest] at ht
    exact absurd ht List.not_mem_nil
  | some rest =>
    rw [hrest, Option.elim_some] at ht
    obtain ⟨hsub, hbar⟩ := Text.mem_of_mem_splitOn ht
    intro c hc
    exact ⟨fun h => hbar (h ▸ hc), hmarks c ((splitForm_subset value).2 rest hrest (hsub c hc))⟩

/-- What is asked between bars is an entry. -/
lemma isEntry_of_asked (hsections : ∀ p ∈ sections, Unbroken p) {i : Nat}
    (h : asked sections i = some t) : IsEntry t := by
  obtain ⟨piece, hpiece, h⟩ := Option.bind_eq_some_iff.mp h
  exact isEntry_of_sectionText? (hsections piece (List.mem_of_getElem? hpiece)) h

/-- What is asked of texts or forms is a legible selection. -/
lemma legible_of_asked (hsections : ∀ p ∈ sections, Unbroken p) (i : Nat) :
    ((asked sections i).elim .everything Selection.ofText).Legible := by
  cases hasked : asked sections i with
  | none => exact Selection.legible_everything
  | some t => exact Selection.legible_ofText (isEntry_of_asked hsections hasked).unbroken

/-- A chance is clamped. -/
lemma le_always_of_ofText {n : Nat} (h : Chance.ofText t = .ok n) : n ≤ Chance.always := by
  simp only [Chance.ofText] at h
  split at h
  · cases h
  · split at h
    · cases h
    · next m _ =>
      obtain rfl := Except.ok.inj h
      split
      · exact Nat.zero_le _
      · exact min_le_left _ _

/-- Every rule that is read is well formed. -/
theorem wellFormed_of_ruleOfLine (h : ruleOfLine v line = .ok r) : WellFormed v r := by
  obtain ⟨before, after, gift, form, hcut, hgift, hform, -, hread⟩ := ruleOfLine_eq_ok_iff.mp h
  obtain ⟨hline, hequals⟩ := Text.cut_eq_some_iff.mp hcut
  have hmarks : ∀ c ∈ before ++ '=' :: after, c ≠ ';' ∧ c ≠ '#' :=
    fun c hc => (Text.mem_stripComment (hline ▸ hc)).2
  have hvalue : ∀ c ∈ Text.trim after, c ≠ ';' ∧ c ≠ '#' := fun c hc =>
    hmarks c (List.mem_append_right _ (List.mem_cons_of_mem _ (Text.mem_of_mem_trim hc)))
  have hsections : ∀ p ∈ sectionsOf (Text.trim after), Unbroken p :=
    fun p hp => unbroken_of_mem_sectionsOf hvalue hp
  have hkeyword : ∀ c ∈ Text.trim before, c ∈ before := fun c => Text.mem_of_mem_trim
  exact
    { dialect := hread.dialect
      gift := by rw [hread.keyword, hread.gift]; exact hgift
      keyword := by rw [hread.keyword]; exact Text.trimmed_trim before
      keyword_marks := by
        rw [hread.keyword]
        exact fun c hc => ⟨fun h => hequals (h ▸ hkeyword c hc),
          hmarks c (List.mem_append_left _ (hkeyword c hc))⟩
      form := by
        rw [hread.form]
        exact isForm_of_formOfText (Text.trimmed_trim after) hvalue hform
      texts := by rw [hread.texts]; exact legible_of_asked hsections 0
      forms := by rw [hread.forms]; exact legible_of_asked hsections 1
      level := by rw [hread.level]; exact fun t ht => isEntry_of_asked hsections ht
      levels := by rw [hread.level]; exact hread.levels
      count := by rw [hread.count]; exact fun t ht => isEntry_of_asked hsections ht
      chance := by
        have hchance := hread.chance
        cases hasked : asked (sectionsOf (Text.trim after)) 5 with
        | none =>
          rw [hasked] at hchance
          exact (Except.ok.inj hchance).ge
        | some t =>
          rw [hasked] at hchance
          exact le_always_of_ofText hchance }

end Wardrobe.Barred
