import Mathlib
import Wardrobe.Proofs.Form.KeyText
import Wardrobe.Proofs.Rule.BarredWriting
import Wardrobe.Proofs.Text.Loosening

/-!
# Blanks beside the bars of a rule

Blanks are trimmed off the form and off every section, so blanks beside a bar change nothing in
either.  They can change which bar ends the form.  The bar of a key with the plugin in front is
found right behind the ending of the plugin; with a blank between them the plugin alone becomes the
form, and the id the first section (`loosened_form`).  All other bars stay what they were, so this
is the only way in which blanks beside bars behind the separator change a rule
(`exists_samePieces_iff`).
-/

namespace Wardrobe

open Text (isBlank Loosened)

/-- Two rules hand out the same to the same actors, whatever word named the gift. -/
structure Rule.SamePieces (f g : Rule) : Prop where
  gift : f.gift = g.gift
  form : Reference.ofText? f.form = Reference.ofText? g.form
  texts : f.texts = g.texts
  forms : f.forms = g.forms
  level : f.level = g.level
  levels : f.levels = g.levels
  traits : f.traits = g.traits
  count : f.count = g.count
  chance : f.chance = g.chance

namespace Barred

variable {v : Vocabulary} {line line' form after after' first first' second second' t : Text}
  {f : Rule} {sections sections' rest rest' : List Text}

/-- A key with the plugin in front of a bar. -/
def IsBarKey (form : Text) : Prop :=
  '|' ∈ form ∧ (FormKey.ofText? form).isSome = true

/-- A blank stands directly before the first bar. -/
def Gapped (value : Text) : Prop :=
  ∃ first b rest, value = first ++ b :: '|' :: rest ∧ '|' ∉ first ∧ isBlank b = true

/-! ## Two segments around a bar -/

/-- Behind blanks there is an ending exactly in a file name with no blank at its end. -/
lemma hasEnding_trimStart_iff (hbar : '|' ∉ first) (htilde : '~' ∉ first) :
    Plugin.HasEnding (Text.trimStart first) ↔
      Plugin.isFileName first = true ∧ Text.trimEnd first = first := by
  have hbar' : '|' ∉ Text.trim first := fun h => hbar (Text.mem_of_mem_trim h)
  have htilde' : '~' ∉ Text.trim first := fun h => htilde (Text.mem_of_mem_trim h)
  rw [Plugin.isFileName_iff, and_iff_right hbar', and_iff_right htilde']
  constructor
  · intro h
    have hstart : Text.trim first = Text.trimStart first := Text.trimEnd_eq_self h.isBlank_getLast?
    have hlast := List.getLast?_append_of_ne_nil (first.takeWhile isBlank) h.ne_nil
    have hsplit : first.takeWhile isBlank ++ Text.trimStart first = first :=
      List.takeWhile_append_dropWhile
    rw [hsplit] at hlast
    exact ⟨hstart.symm ▸ h, Text.trimEnd_eq_self (hlast ▸ h.isBlank_getLast?)⟩
  · rintro ⟨hending, hend⟩
    rwa [← Text.trimStart_trimEnd, hend] at hending

/-- Behind blanks, a segment joins the next one as a plugin when it is a file name with no blank at
its end. -/
lemma joins_trimStart_iff (hbar : '|' ∉ first) : Joins (Text.trimStart first) second ↔
    '~' ∉ first ∧
      (Plugin.isFileName first = true ∧ Text.trimEnd first = first ∧
          (FormId.ofText? second).isSome = true ∨
        Plugin.isFileName first = false ∧ Plugin.isFileName second = true) := by
  have hname : Plugin.isFileName (Text.trimStart first) = Plugin.isFileName first := by
    rw [← Plugin.isFileName_trim, Text.trim_trimStart, Plugin.isFileName_trim]
  have htilde : '~' ∈ Text.trimStart first ↔ '~' ∈ first := by
    rw [← Text.mem_trim_iff (by decide), Text.trim_trimStart, Text.mem_trim_iff (by decide)]
  rw [Joins, hname, htilde]
  refine and_congr_right fun h => ?_
  rw [hasEnding_trimStart_iff hbar h, and_assoc]

/-- With other blanks around them two segments join as before, unless the first one is a file name
and got a blank at its end. -/
lemma joins_loosened_iff (hbar : '|' ∉ first) (hbar' : '|' ∉ first')
    (hfirst : Text.trim first = Text.trim first') (hsecond : Text.trim second = Text.trim second')
    (hend : Text.trimEnd first' = first' → Text.trimEnd first = first) :
    Joins (Text.trimStart first') second' ↔ Joins (Text.trimStart first) second ∧
      (Plugin.isFileName first = true → Text.trimEnd first' = first') := by
  have hname : Plugin.isFileName first' = Plugin.isFileName first := by
    rw [← Plugin.isFileName_trim, ← hfirst, Plugin.isFileName_trim]
  have htilde : '~' ∈ first' ↔ '~' ∈ first := by
    rw [← Text.mem_trim_iff (by decide), ← hfirst, Text.mem_trim_iff (by decide)]
  rw [← joins_congr hsecond, joins_trimStart_iff hbar', joins_trimStart_iff hbar, hname, htilde]
  cases Plugin.isFileName first with
  | false => simp
  | true =>
    simp only [true_and, reduceCtorEq, false_and, or_false, forall_const]
    constructor
    · rintro ⟨hno, htight, hid⟩
      exact ⟨⟨hno, hend htight, hid⟩, htight⟩
    · rintro ⟨⟨hno, -, hid⟩, htight⟩
      exact ⟨hno, htight, hid⟩

/-- What two segments that join refer to, told without the blanks around them. -/
lemma ofText?_joined (hbar : '|' ∉ first) (hsecond : '|' ∉ second)
    (h : Joins (Text.trimStart first) second) :
    Reference.ofText? (Text.trimStart first ++ '|' :: second) =
      if Plugin.isFileName (Text.trim first) = true then
        (FormId.ofText? (Text.trim second)).map fun id => .formKey ⟨Text.trim first, id⟩
      else Reference.ofBar? (Text.trim first) (Text.trim second) := by
  obtain ⟨htilde, hparts⟩ := (joins_trimStart_iff hbar).mp h
  have hbar' : '|' ∉ Text.trimStart first := fun hmem => hbar (Text.mem_of_mem_trimStart hmem)
  have htilde' : '~' ∉ Text.trimStart first := fun hmem => htilde (Text.mem_of_mem_trimStart hmem)
  have hending : Plugin.HasEnding (Text.trimStart (Text.trimStart first)) ↔
      Plugin.isFileName first = true ∧ Text.trimEnd first = first := by
    rw [Text.trimStart_trimStart, hasEnding_trimStart_iff hbar htilde]
  rw [Plugin.isFileName_trim, FormId.ofText?_trim]
  rcases hparts with ⟨hname, hend, hid⟩ | ⟨hname, hfile⟩
  · obtain ⟨id, hid⟩ := Option.isSome_iff_exists.mp hid
    have hplain : '~' ∉ second := fun hmem =>
      (FormId.plain_of_ofText? hid _ ((Text.mem_trim_iff (by decide)).mpr hmem)).1 rfl
    rw [if_pos hname, Reference.ofText?_of_hasEnding hbar' htilde' hplain
      (hending.mpr ⟨hname, hend⟩), Text.trim_trimStart]
  · have hplain : '~' ∉ second := fun hmem =>
      (Plugin.isFileName_iff.mp hfile).2.1 ((Text.mem_trim_iff (by decide)).mpr hmem)
    have hno : ¬ Plugin.HasEnding (Text.trimStart (Text.trimStart first)) := by
      rw [hending, hname]
      simp
    rw [Reference.ofText?_of_not_hasEnding hbar' htilde' hplain hsecond hno, hname,
      Text.trim_trimStart]
    rfl

/-! ## Keys at a bar -/

/-- Blanks around a form are passed over. -/
lemma isBarKey_trim : IsBarKey (Text.trim form) ↔ IsBarKey form := by
  rw [IsBarKey, IsBarKey, FormKey.ofText?, FormKey.ofText?, Text.mem_trim_iff (by decide),
    Reference.ofText?_trim]

/-- Two segments that join make a key exactly when the first one is a file name. -/
lemma isBarKey_iff (hbar : '|' ∉ first) (hsecond : '|' ∉ second)
    (h : Joins (Text.trimStart first) second) :
    IsBarKey (Text.trimStart first ++ '|' :: second) ↔ Plugin.isFileName first = true := by
  have hform := ofText?_joined hbar hsecond h
  rw [Plugin.isFileName_trim, FormId.ofText?_trim] at hform
  rw [IsBarKey, and_iff_right (by simp), Option.isSome_iff_exists]
  simp only [FormKey.ofText?_eq_some_iff, hform]
  rcases ((joins_trimStart_iff hbar).mp h).2 with ⟨hname, -, hid⟩ | ⟨hname, -⟩
  · obtain ⟨id, hid⟩ := Option.isSome_iff_exists.mp hid
    simp [hname, hid]
  · simp [hname, FormKey.ofBar?_ne_formKey]

/-- A plugin alone is no key. -/
lemma IsBarKey.ofText?_ne (h : IsBarKey form) (hname : Plugin.isFileName first = true) :
    Reference.ofText? form ≠ Reference.ofText? (Text.trimStart first) := by
  intro hsame
  obtain ⟨k, hk⟩ := Option.isSome_iff_exists.mp h.2
  obtain ⟨hbar, htilde, hending⟩ := Plugin.isFileName_iff.mp hname
  have hne : Text.trim (Text.trim first) ≠ [] := by
    rw [Text.trim_trim]
    exact hending.ne_nil
  rw [FormKey.ofText?_eq_some_iff, hsame, ← Reference.ofText?_trim, Text.trim_trimStart,
    Reference.ofText?_word hbar htilde hne] at hk
  exact FormKey.ofWord?_ne_formKey _ hk

/-- A text with a bar is gapped when a blank ends its first segment. -/
lemma gapped_iff (h : after.splitOn '|' = first :: second :: rest) :
    Gapped after ↔ Text.trimEnd first ≠ first := by
  obtain ⟨m, rfl, hfirst, -⟩ := Text.eq_append_of_splitOn h
  rw [Text.trimEnd_ne_self_iff, Gapped]
  constructor
  · rintro ⟨u, b, n, heq, hu, hb⟩
    have hub : '|' ∉ u ++ [b] := by
      rw [List.mem_append, List.mem_singleton, not_or]
      refine ⟨hu, fun hbar => ?_⟩
      rw [← hbar] at hb
      exact absurd hb (by decide)
    rw [List.append_cons u] at heq
    obtain ⟨rfl, -⟩ := Plugin.append_bar_inj hfirst hub heq
    exact ⟨u, b, rfl, hb⟩
  · rintro ⟨u, b, rfl, hb⟩
    exact ⟨u, b, m, by simp, fun hmem => hfirst (List.mem_append_left _ hmem), hb⟩

/-! ## Forms and sections up to blanks -/

/-- A text without a bar is a form without sections. -/
lemma splitForm_trim_singleton (h : after.splitOn '|' = [t]) :
    '|' ∉ (splitForm (Text.trim after)).1 ∧
      Text.trim (splitForm (Text.trim after)).1 = Text.trim t ∧
      sectionsOf (Text.trim after) = [] := by
  have hsplit := Text.map_trim_splitOn_trim (by decide : isBlank '|' = false) after
  rw [h, List.map_singleton, List.map_eq_singleton_iff] at hsplit
  obtain ⟨u, hu, htrim⟩ := hsplit
  obtain ⟨hform, hsections⟩ := (Rule.splitForm_segments hu).1 u rfl
  have hmem : u ∈ (Text.trim after).splitOn '|' := by simp [hu]
  rw [hform]
  exact ⟨(Text.mem_of_mem_splitOn hmem).2, htrim, hsections⟩

/-- The form and the sections of a text with a bar, told by its segments. -/
lemma splitForm_trim_cons (h : after.splitOn '|' = first :: second :: rest) :
    (Joins (Text.trimStart first) second → ∃ second',
      '|' ∉ second' ∧ Text.trim second' = Text.trim second ∧
      (splitForm (Text.trim after)).1 = Text.trimStart first ++ '|' :: second' ∧
      (sectionsOf (Text.trim after)).map Text.trim = rest.map Text.trim) ∧
    (¬ Joins (Text.trimStart first) second →
      (splitForm (Text.trim after)).1 = Text.trimStart first ∧
      (sectionsOf (Text.trim after)).map Text.trim = (second :: rest).map Text.trim) := by
  obtain ⟨second', rest', hsplit, hsecond, hrest⟩ := Text.splitOn_trim_cons (by decide) h
  have hmem : second' ∈ (Text.trim after).splitOn '|' := by simp [hsplit]
  obtain ⟨hjoined, hapart⟩ := (Rule.splitForm_segments hsplit).2 _ _ _ rfl
  rw [← joins_congr hsecond]
  refine ⟨fun hjoins => ?_, fun hjoins => ?_⟩
  · obtain ⟨hform, hsections⟩ := hjoined hjoins
    exact ⟨second', (Text.mem_of_mem_splitOn hmem).2, hsecond, hform, by rw [hsections, hrest]⟩
  · obtain ⟨hform, hsections⟩ := hapart hjoins
    exact ⟨hform, by rw [hsections, List.map_cons, List.map_cons, hsecond, hrest]⟩

/-- The form and the sections of two texts are the same, up to blanks around them. -/
def SameSlots (after after' : Text) : Prop :=
  Reference.ofText? (splitForm (Text.trim after)).1 =
      Reference.ofText? (splitForm (Text.trim after')).1 ∧
    (sectionsOf (Text.trim after)).map Text.trim = (sectionsOf (Text.trim after')).map Text.trim

/-- Other blanks around the segments leave the form and the sections as they are, unless a blank
gets before the bar of a key; then the form is another. -/
lemma sameSlots_of_segments (hsplit : after.splitOn '|' = first :: second :: rest)
    (hsplit' : after'.splitOn '|' = first' :: second' :: rest')
    (hfirst : Text.trim first = Text.trim first') (hsecond : Text.trim second = Text.trim second')
    (hrest : rest.map Text.trim = rest'.map Text.trim)
    (hend : Text.trimEnd first' = first' → Text.trimEnd first = first) :
    (¬ (IsBarKey (splitForm (Text.trim after)).1 ∧ Gapped after') → SameSlots after after') ∧
    (IsBarKey (splitForm (Text.trim after)).1 ∧ Gapped after' →
      Reference.ofText? (splitForm (Text.trim after)).1 ≠
        Reference.ofText? (splitForm (Text.trim after')).1) := by
  obtain ⟨-, -, hbar, -⟩ := Text.eq_append_of_splitOn hsplit
  obtain ⟨-, -, hbar', -⟩ := Text.eq_append_of_splitOn hsplit'
  have hiff := joins_loosened_iff hbar hbar' hfirst hsecond hend
  have hgapped := gapped_iff hsplit'
  obtain ⟨hjoined, hapart⟩ := splitForm_trim_cons hsplit
  obtain ⟨hjoined', hapart'⟩ := splitForm_trim_cons hsplit'
  by_cases hjoins : Joins (Text.trimStart first) second
  · obtain ⟨s, hs, htrim, hform, hsections⟩ := hjoined hjoins
    have hjoinsS := (joins_congr htrim).mpr hjoins
    have hkey : IsBarKey (splitForm (Text.trim after)).1 ↔ Plugin.isFileName first = true := by
      rw [hform, isBarKey_iff hbar hs hjoinsS]
    by_cases hgap : Plugin.isFileName first = true ∧ Text.trimEnd first' ≠ first'
    · -- the plugin lost its bar
      have hno : ¬ Joins (Text.trimStart first') second' :=
        fun hjoins' => hgap.2 ((hiff.mp hjoins').2 hgap.1)
      refine ⟨fun hnot => absurd ⟨hkey.mpr hgap.1, hgapped.mpr hgap.2⟩ hnot, fun hyes => ?_⟩
      have hname : Plugin.isFileName first' = true := by
        rw [← Plugin.isFileName_trim, ← hfirst, Plugin.isFileName_trim, hgap.1]
      rw [(hapart' hno).1]
      exact hyes.1.ofText?_ne hname
    · have hjoins' : Joins (Text.trimStart first') second' :=
        hiff.mpr ⟨hjoins, fun hname => not_not.mp fun hne => hgap ⟨hname, hne⟩⟩
      obtain ⟨s', hs', htrim', hform', hsections'⟩ := hjoined' hjoins'
      have hjoinsS' := (joins_congr htrim').mpr hjoins'
      refine ⟨fun _ => ⟨?_, by rw [hsections, hsections', hrest]⟩, fun hyes => ?_⟩
      · rw [hform, hform', ofText?_joined hbar hs hjoinsS, ofText?_joined hbar' hs' hjoinsS',
          htrim, htrim', hfirst, hsecond]
      · exact absurd ⟨hkey.mp hyes.1, hgapped.mp hyes.2⟩ hgap
  · have hno : ¬ Joins (Text.trimStart first') second' := fun hjoins' => hjoins (hiff.mp hjoins').1
    obtain ⟨hform, hsections⟩ := hapart hjoins
    obtain ⟨hform', hsections'⟩ := hapart' hno
    refine ⟨fun _ => ⟨?_, ?_⟩, fun hyes => ?_⟩
    · rw [hform, hform', ← Reference.ofText?_trim, Text.trim_trimStart, hfirst,
        ← Reference.ofText?_trim (Text.trimStart first'), Text.trim_trimStart]
    · rw [hsections, hsections', List.map_cons, List.map_cons, hsecond, hrest]
    · rw [hform] at hyes
      exact absurd (Text.mem_of_mem_trimStart hyes.1.1) hbar

/-- Blanks beside bars leave the form and the sections as they are, unless a blank gets before the
bar of a key; then the form is another. -/
lemma loosened_form (h : Loosened '|' after after') :
    (¬ (IsBarKey (splitForm (Text.trim after)).1 ∧ Gapped after') → SameSlots after after') ∧
    (IsBarKey (splitForm (Text.trim after)).1 ∧ Gapped after' →
      Reference.ofText? (splitForm (Text.trim after)).1 ≠
        Reference.ofText? (splitForm (Text.trim after')).1) := by
  have hblank : isBlank '|' = false := by decide
  have hpieces := h.map_trim_splitOn hblank
  obtain ⟨first, tail, hsplit⟩ := List.exists_cons_of_ne_nil (List.splitOn_ne_nil '|' after)
  obtain ⟨first', tail', hsplit'⟩ := List.exists_cons_of_ne_nil (List.splitOn_ne_nil '|' after')
  rw [hsplit, hsplit', List.map_cons, List.map_cons, List.cons.injEq] at hpieces
  obtain ⟨hfirst, htail⟩ := hpieces
  cases tail with
  | nil =>
    obtain rfl := List.map_eq_nil_iff.mp htail.symm
    obtain ⟨hbar, htrim, hsections⟩ := splitForm_trim_singleton hsplit
    obtain ⟨-, htrim', hsections'⟩ := splitForm_trim_singleton hsplit'
    refine ⟨fun _ => ⟨?_, by rw [hsections, hsections']⟩, fun hkey => absurd hkey.1.1 hbar⟩
    rw [← Reference.ofText?_trim, htrim, hfirst, ← htrim', Reference.ofText?_trim]
  | cons second rest =>
    obtain ⟨second', rest', rfl, hsecond, hrest⟩ := List.map_eq_cons_iff.mp htail.symm
    obtain ⟨m, hm, hbar, -⟩ := Text.eq_append_of_splitOn hsplit
    obtain ⟨m', hm', hbar', -⟩ := Text.eq_append_of_splitOn hsplit'
    have hend : Text.trimEnd first' = first' → Text.trimEnd first = first := by
      intro htight
      obtain ⟨a, ha, htake⟩ := h.takeWhile_ne hblank
      rw [hm, hm', Text.takeWhile_append_sep hbar, Text.takeWhile_append_sep hbar'] at htake
      obtain rfl := Text.eq_nil_of_trimEnd_append ha (htake ▸ htight)
      rwa [htake, List.append_nil] at htight
    exact sameSlots_of_segments hsplit hsplit' hfirst hsecond.symm hrest.symm hend

/-! ## Lines -/

/-- What the sections ask is decided by their texts without the blanks around them. -/
lemma asked_eq_of_map_trim (h : sections.map Text.trim = sections'.map Text.trim) (i : Nat) :
    asked sections i = asked sections' i := by
  have hasked : ∀ l : List Text, asked l i = (l.map Text.trim)[i]?.bind sectionText? := by
    intro l
    rw [asked, List.getElem?_map]
    cases l[i]? with
    | none => rfl
    | some t => simp [sectionText?]
  rw [hasked, hasked, h]

/-- A line whose form and sections are the same up to blanks around them is accepted as a rule with
the same pieces, if its word names the same gift. -/
lemma exists_of_sameSlots {before before' : Text}
    (hcut : Text.cut '=' (Text.stripComment line) = some (before, after))
    (hcut' : Text.cut '=' (Text.stripComment line') = some (before', after'))
    (h : SameSlots after after') (hf : ruleOfLine v line = .ok f)
    (hgift : v.lookup? (Text.trim before') = some f.gift) :
    ∃ g, ruleOfLine v line' = .ok g ∧ f.SamePieces g := by
  obtain ⟨before₁, after₁, gift, form, hcut₁, -, hform, hlength, hread⟩ :=
    ruleOfLine_eq_ok_iff.mp hf
  obtain ⟨rfl, rfl⟩ := Prod.mk.injEq .. ▸ Option.some.inj (hcut.symm.trans hcut₁)
  obtain ⟨hforms, hsections⟩ := h
  obtain ⟨rfl, -, hreference⟩ := formOfText_eq_ok_iff.mp hform
  have hasked := asked_eq_of_map_trim hsections
  rw [Reference.ofText?_trim, hforms] at hreference
  have hform' : formOfText (splitForm (Text.trim after')).1 =
      .ok (Text.trim (splitForm (Text.trim after')).1) := by
    refine formOfText_eq_ok_iff.mpr ⟨rfl, fun hnil => ?_, by rwa [Reference.ofText?_trim]⟩
    rw [← Reference.ofText?_trim, hnil] at hreference
    cases hreference
  have hlength' : (sectionsOf (Text.trim after')).length ≤ maxSections := by
    rwa [← List.length_map (f := Text.trim), ← hsections, List.length_map]
  let g : Rule := { f with
    keyword := Text.trim before'
    form := Text.trim (splitForm (Text.trim after')).1
    source := line' }
  have hread' : ReadsSections line' (Text.trim before') f.gift
      (Text.trim (splitForm (Text.trim after')).1) (sectionsOf (Text.trim after')) g :=
    { dialect := hread.dialect
      gift := rfl
      keyword := rfl
      form := rfl
      texts := by rw [← hasked]; exact hread.texts
      forms := by rw [← hasked]; exact hread.forms
      level := by rw [← hasked]; exact hread.level
      levels := by rw [← hasked]; exact hread.levels
      traits := by rw [← hasked]; exact hread.traits
      count := by rw [← hasked]; exact hread.count
      chance := by rw [← hasked]; exact hread.chance
      source := rfl }
  have hsame : Reference.ofText? f.form = Reference.ofText? g.form := by
    rw [hread.form, hread'.form, Reference.ofText?_trim, Reference.ofText?_trim, hforms]
  exact ⟨g, ruleOfLine_eq_ok_iff.mpr
    ⟨before', after', f.gift, _, hcut', hgift, hform', hlength', hread'⟩,
    ⟨rfl, hsame, rfl, rfl, rfl, rfl, rfl, rfl, rfl⟩⟩

/-- Blanks are added directly before or behind bars of a line that is accepted.  The line is then
accepted as a rule with the same pieces, as long as its word still names the gift, as it does when
there is no bar in the word, and no blank stands before the bar of a key. -/
theorem exists_samePieces_iff (h : Loosened '|' line line') (hf : ruleOfLine v line = .ok f) :
    ∃ before after, Text.cut '=' (Text.stripComment line') = some (before, after) ∧
      ('|' ∉ f.keyword → v.lookup? before = some f.gift) ∧
      ((∃ g, ruleOfLine v line' = .ok g ∧ f.SamePieces g) ↔
        v.lookup? before = some f.gift ∧ ¬ (IsBarKey f.form ∧ Gapped after)) := by
  obtain ⟨before, after, gift, form, hcut, hgift, hform, -, hread⟩ := ruleOfLine_eq_ok_iff.mp hf
  obtain ⟨before', after', hcut', hbefore, hafter⟩ :=
    (h.stripComment (by decide)).cut (by decide) (by decide) hcut
  have hlookup : ∀ t, v.lookup? (Text.trim t) = v.lookup? t := fun t => by
    rw [Vocabulary.lookup?, Vocabulary.lookup?, Text.trim_trim]
  obtain ⟨rfl, -, -⟩ := formOfText_eq_ok_iff.mp hform
  obtain ⟨hsame, hother⟩ := loosened_form hafter
  have hkey : IsBarKey f.form ↔ IsBarKey (splitForm (Text.trim after)).1 := by
    rw [hread.form, isBarKey_trim]
  refine ⟨before', after', hcut', fun hbar => ?_, ?_⟩
  · rw [hread.keyword, Text.mem_trim_iff (by decide)] at hbar
    rw [← hbefore.eq_of_notMem hbar, ← hlookup, hgift, hread.gift]
  rw [hkey]
  constructor
  · rintro ⟨g, hg, hfg⟩
    obtain ⟨before₁, after₁, gift₁, form₁, hcut₁, hgift₁, hform₁, -, hread₁⟩ :=
      ruleOfLine_eq_ok_iff.mp hg
    obtain ⟨rfl, rfl⟩ := Prod.mk.injEq .. ▸ Option.some.inj (hcut'.symm.trans hcut₁)
    obtain ⟨rfl, -, -⟩ := formOfText_eq_ok_iff.mp hform₁
    refine ⟨by rw [← hlookup, hgift₁, hfg.gift, hread₁.gift], fun hgap => hother hgap ?_⟩
    have hforms := hfg.form
    rwa [hread.form, hread₁.form, Reference.ofText?_trim, Reference.ofText?_trim] at hforms
  · rintro ⟨hgift', hgap⟩
    exact exists_of_sameSlots hcut hcut' (hsame hgap) hf ((hlookup before').trans hgift')

/-- Blanks behind the bar of a key, and around those of sections. -/
theorem exists_samePieces_behind_bar : ∃ (line line' : Text) (f : Rule),
    line = "Outfit = My.esp|0x800|Guard||5/20".toList ∧
    line' = "Outfit = My.esp| 0x800 |Guard||\t5/20".toList ∧
    Loosened '|' line line' ∧ ruleOfLine .standard line = .ok f ∧
    f.form = "My.esp|0x800".toList ∧ f.level = some "5/20".toList ∧
    ∃ g, ruleOfLine .standard line' = .ok g ∧ f.SamePieces g := by
  let line := "Outfit = My.esp|0x800|Guard||5/20".toList
  let line' := "Outfit = My.esp| 0x800 |Guard||\t5/20".toList
  let f : Rule := ⟨.barred, .outfit, "Outfit".toList, "My.esp|0x800".toList,
    .ofText "Guard".toList, .everything, some "5/20".toList, [.between 5 20], .nothing, none, 100,
    line⟩
  have hbehind : Text.Loosen '|' line "Outfit = My.esp| 0x800|Guard||5/20".toList :=
    .behind "Outfit = My.esp".toList "0x800|Guard||5/20".toList (by decide)
  have hbefore : Text.Loosen '|' "Outfit = My.esp| 0x800|Guard||5/20".toList
      "Outfit = My.esp| 0x800 |Guard||5/20".toList :=
    .before "Outfit = My.esp| 0x800".toList "Guard||5/20".toList (by decide)
  have hlast : Text.Loosen '|' "Outfit = My.esp| 0x800 |Guard||5/20".toList line' :=
    .behind "Outfit = My.esp| 0x800 |Guard|".toList "5/20".toList (by decide)
  have h : Loosened '|' line line' :=
    ((Relation.ReflTransGen.single hbehind).tail hbefore).tail hlast
  have hf : ruleOfLine .standard line = .ok f := by decide +kernel
  obtain ⟨before, after, hcut, hword, hiff⟩ := exists_samePieces_iff h hf
  have hcut' : Text.cut '=' (Text.stripComment line') =
      some ("Outfit ".toList, " My.esp| 0x800 |Guard||\t5/20".toList) := by decide +kernel
  obtain ⟨rfl, rfl⟩ := Prod.mk.injEq .. ▸ Option.some.inj (hcut'.symm.trans hcut)
  have hsplit : " My.esp| 0x800 |Guard||\t5/20".toList.splitOn '|' =
      [" My.esp", " 0x800 ", "Guard", "", "\t5/20"].map (·.toList) := by decide +kernel
  have hgap : ¬ Gapped " My.esp| 0x800 |Guard||\t5/20".toList := fun hgap =>
    (gapped_iff hsplit).mp hgap (by decide +kernel)
  exact ⟨line, line', f, rfl, rfl, h, hf, rfl, rfl,
    hiff.mpr ⟨hword (by decide), fun hbad => hgap hbad.2⟩⟩

/-- A blank before the bar of a key takes the key apart: the plugin becomes the form, and the id a
condition. -/
theorem not_samePieces_before_bar : ¬ ∀ (v : Vocabulary) (line line' : Text) (f : Rule),
    Loosened '|' line line' → ruleOfLine v line = .ok f →
      ∃ g, ruleOfLine v line' = .ok g ∧ f.SamePieces g := by
  intro hall
  let line := "Outfit = Skyrim.esm|0x800".toList
  let line' := "Outfit = Skyrim.esm |0x800".toList
  let f : Rule := ⟨.barred, .outfit, "Outfit".toList, "Skyrim.esm|0x800".toList, .everything,
    .everything, none, [], .nothing, none, 100, line⟩
  let g : Rule := { f with
    form := "Skyrim.esm".toList
    texts := .ofText "0x800".toList
    source := line' }
  have h : Text.Loosen '|' line line' :=
    .before "Outfit = Skyrim.esm".toList "0x800".toList (by decide)
  have hf : ruleOfLine .standard line = .ok f := by decide +kernel
  have hg : ruleOfLine .standard line' = .ok g := by decide +kernel
  obtain ⟨g', hg', hsame⟩ := hall .standard line line' f (.single h) hf
  obtain rfl := Except.ok.inj (hg.symm.trans hg')
  have hform : Reference.ofText? "Skyrim.esm|0x800".toList =
      Reference.ofText? "Skyrim.esm".toList := hsame.form
  exact absurd hform (by decide +kernel)

end Barred

end Wardrobe
