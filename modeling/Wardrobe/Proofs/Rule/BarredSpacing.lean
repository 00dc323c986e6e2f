import Mathlib
import Wardrobe.Proofs.Form.KeyText
import Wardrobe.Proofs.Rule.BarredWriting
import Wardrobe.Proofs.Text.Respacing

/-!
# Barred lines that differ in spacing

Two barred lines that are the same up to blanks may be read differently, since a blank before the
bar of a form key takes the key apart.  When the rules that are read agree (`Rule.Agrees`), their
forms consist of as many segments, so the sections stand at the same places.  Their form and level
texts are then the same up to blanks (`respaced_form_level`), and so is what is written for them
(`squeeze_toText`).  Only these two texts are written as they were read: the rules are written in
the same way exactly when both are the same (`toText_eq_iff`).
-/

namespace Wardrobe

open Text (Trimmed squeeze)

/-! ## Rules that agree -/

namespace Reference

/-- The plugin that a reference is pinned to. -/
def plugin? : Reference → Option Text
  | .pluginFile _ => none
  | .formKey key => some key.plugin
  | .formId _ => none
  | .editorId _ plugin? => plugin?

/-- Two references are the same; the case of the letters `A` to `Z` does not count in the plugins of
keys. -/
def Same : Reference → Reference → Prop
  | .formKey key, .formKey key' => key.same key' = true
  | ref, ref' => ref = ref'

variable {t : Text} {ref ref' : Reference}

/-- What is read twice from a text is the same. -/
lemma rel_same_self (ref? : Option Reference) : Option.Rel Same ref? ref? := by
  cases ref? with
  | none => exact .none
  | some ref =>
    refine .some ?_
    cases ref with
    | formKey key => simp [Same, FormKey.same, Text.sameAscii]
    | _ => rfl

/-- When a text is a reference, so is another that reads the same. -/
lemma exists_same {a b : Option Reference} (h : Option.Rel Same a b) (ha : a.isSome = true) :
    ∃ ref ref', a = some ref ∧ b = some ref' ∧ ref.Same ref' := by
  cases h with
  | some hsame => exact ⟨_, _, rfl, rfl, hsame⟩
  | none => cases ha

/-- The same references are pinned both or neither. -/
lemma Same.isSome_plugin? (h : ref.Same ref') : ref.plugin?.isSome = ref'.plugin?.isSome := by
  unfold Same at h
  split at h
  · rfl
  · rw [h]

/-- What is read around a tilde is pinned. -/
lemma isSome_plugin?_of_ofTilde? {left plugin : Text} (h : ofTilde? left plugin = some ref) :
    ref.plugin?.isSome = true := by
  rw [ofTilde?] at h
  split at h
  · cases h
  · split at h
    · cases h; rfl
    · split_ifs at h
      cases h; rfl

/-- What is read around a bar is pinned. -/
lemma isSome_plugin?_of_ofBar? {name plugin : Text} (h : ofBar? name plugin = some ref) :
    ref.plugin?.isSome = true := by
  rw [ofBar?] at h
  split_ifs at h
  cases h; rfl

/-- A word is not pinned. -/
lemma plugin?_of_ofWord? {word : Text} (h : ofWord? word = some ref) : ref.plugin? = none := by
  rw [ofWord?] at h
  split_ifs at h
  · cases h; rfl
  · obtain ⟨id, -, rfl⟩ := Option.map_eq_some_iff.mp h
    rfl
  · cases h; rfl

/-- A reference is pinned exactly when a tilde or a bar is written in it. -/
lemma isSome_plugin?_iff (h : ofText? t = some ref) :
    ref.plugin?.isSome = true ↔ '~' ∈ t ∨ '|' ∈ t := by
  have htilde : '~' ∈ Text.trim t ↔ '~' ∈ t := Text.mem_trim_iff (by decide)
  have hbar : '|' ∈ Text.trim t ↔ '|' ∈ t := Text.mem_trim_iff (by decide)
  have hmem : ∀ {sep : Char} {a b : Text}, Text.trim t = a ++ sep :: b → sep ∈ Text.trim t := by
    intro sep a b heq
    simp [heq]
  rw [← htilde, ← hbar]
  simp only [ofText?] at h
  split_ifs at h with hnil
  split at h
  · next hcut =>
    have hline := (Text.cut_eq_some_iff.mp hcut).1
    exact iff_of_true (isSome_plugin?_of_ofTilde? h) (Or.inl (hmem hline))
  · next hcut =>
    have hnone := Text.notMem_of_cut_eq_none hcut
    split at h
    · next hat =>
      obtain ⟨id, -, rfl⟩ := Option.map_eq_some_iff.mp h
      exact iff_of_true rfl (Or.inr (hmem (Plugin.eq_of_atBar? hat)))
    · split at h
      · next hcut =>
        have hline := (Text.cut_eq_some_iff.mp hcut).1
        exact iff_of_true (isSome_plugin?_of_ofBar? h) (Or.inr (hmem hline))
      · next hcut =>
        rw [plugin?_of_ofWord? h]
        exact iff_of_false Bool.false_ne_true (not_or.mpr ⟨hnone, Text.notMem_of_cut_eq_none hcut⟩)

end Reference

/-- Two rules hand out the same to the same actors, with the same chance. -/
structure Rule.Agrees (f g : Rule) : Prop where
  gift : f.gift = g.gift
  keyword : f.keyword = g.keyword
  form : Option.Rel Reference.Same (Reference.ofText? f.form) (Reference.ofText? g.form)
  texts : f.texts = g.texts
  forms : f.forms = g.forms
  levels : f.levels = g.levels
  traits : f.traits = g.traits
  count : f.count = g.count
  chance : f.chance = g.chance

/-! ## Reading respaced lines -/

namespace Barred

variable {v : Vocabulary} {value value' line line' p q : Text} {f g : Rule} {l l' : List LevelTest}

/-- The form is made of the first segment between bars or of the first two, and the sections are the
segments behind it. -/
lemma splitForm_eq_take (value : Text) : ∃ n,
    (splitForm value).1 = Text.join ['|'] ((value.splitOn '|').take n) ∧
    sectionsOf value = (value.splitOn '|').drop n ∧
    (n = 1 ∨ n = 2 ∧ ∃ first second rest, value.splitOn '|' = first :: second :: rest ∧
      '~' ∉ first) := by
  obtain ⟨hone, htwo⟩ := Rule.splitForm_segments (rfl : value.splitOn '|' = _)
  obtain ⟨first, rest, hsplit⟩ := List.exists_cons_of_ne_nil (List.splitOn_ne_nil '|' value)
  rw [hsplit]
  cases rest with
  | nil =>
    obtain ⟨hform, hsections⟩ := hone first hsplit
    exact ⟨1, by simp [hform, Text.join], by rw [hsections]; rfl, Or.inl rfl⟩
  | cons second rest =>
    obtain ⟨hjoined, hapart⟩ := htwo first second rest hsplit
    by_cases hjoins : Joins first second
    · obtain ⟨hform, hsections⟩ := hjoined hjoins
      exact ⟨2, by simp [hform, Text.join], by rw [hsections]; rfl,
        Or.inr ⟨rfl, first, second, rest, rfl, hjoins.1⟩⟩
    · obtain ⟨hform, hsections⟩ := hapart hjoins
      exact ⟨1, by simp [hform, Text.join], by rw [hsections]; rfl, Or.inl rfl⟩

/-- A form of one segment is not pinned, if that is the first of two segments of a form up to
blanks. -/
lemma notMem_take_one {first second : Text} {rest segments : List Text}
    (hsegments : segments.map squeeze = (first :: second :: rest).map squeeze)
    (hbars : ∀ t ∈ segments, '|' ∉ t) (htilde : '~' ∉ first) :
    ¬ ('~' ∈ Text.join ['|'] (segments.take 1) ∨ '|' ∈ Text.join ['|'] (segments.take 1)) := by
  obtain ⟨t, ts, rfl⟩ : ∃ t ts, segments = t :: ts := by
    cases segments with
    | nil => cases hsegments
    | cons t ts => exact ⟨t, ts, rfl⟩
  have hhead : squeeze t = squeeze first := (List.cons.inj hsegments).1
  have htake : Text.join ['|'] ((t :: ts).take 1) = t := by simp [Text.join]
  rw [htake, not_or]
  refine ⟨fun hmem => ?_, hbars t List.mem_cons_self⟩
  have hmem' : '~' ∈ squeeze first := hhead ▸ Text.mem_squeeze.mpr ⟨hmem, by decide⟩
  exact htilde (Text.mem_squeeze.mp hmem').1

/-- Texts that are the same up to blanks are split at the same bar when both forms are pinned or
neither is. -/
lemma splitForm_respaced (hvalue : squeeze value = squeeze value')
    (hpinned : '~' ∈ (splitForm value).1 ∨ '|' ∈ (splitForm value).1 ↔
      '~' ∈ (splitForm value').1 ∨ '|' ∈ (splitForm value').1) :
    squeeze (splitForm value).1 = squeeze (splitForm value').1 ∧
      (sectionsOf value).map squeeze = (sectionsOf value').map squeeze := by
  obtain ⟨n, hform, hsections, hn⟩ := splitForm_eq_take value
  obtain ⟨n', hform', hsections', hn'⟩ := splitForm_eq_take value'
  have hblank : Text.isBlank '|' = false := by decide
  have hbars : ∀ {s : Text}, ∀ t ∈ s.splitOn '|', '|' ∉ t :=
    fun t ht => (Text.mem_of_mem_splitOn ht).2
  have hsegments : (value.splitOn '|').map squeeze = (value'.splitOn '|').map squeeze := by
    rw [Text.map_squeeze_splitOn hblank, hvalue, Text.map_squeeze_splitOn hblank]
  have htwo : ∀ {first second : Text} {rest : List Text},
      '|' ∈ Text.join ['|'] ((first :: second :: rest).take 2) := by
    intro first second rest
    simp [Text.join]
  -- A form of two segments is pinned by its bar.  If the other form were one segment, it would be
  -- pinned by a tilde in it, and the same tilde would keep the two segments apart.
  have hcount : n = n' := by
    rcases hn with rfl | ⟨rfl, first, second, rest, hsplit, htilde⟩ <;>
      rcases hn' with rfl | ⟨rfl, first', second', rest', hsplit', htilde'⟩
    · rfl
    · rw [hsplit'] at hsegments hform'
      rw [hform, hform'] at hpinned
      exact absurd (hpinned.mpr (Or.inr htwo)) (notMem_take_one hsegments hbars htilde')
    · rw [hsplit] at hsegments hform
      rw [hform, hform'] at hpinned
      exact absurd (hpinned.mp (Or.inr htwo)) (notMem_take_one hsegments.symm hbars htilde)
    · rfl
  subst hcount
  rw [hform, hform', hsections, hsections', Text.squeeze_join hblank, Text.squeeze_join hblank,
    List.map_take, List.map_take, List.map_drop, List.map_drop, hsegments]
  exact ⟨rfl, rfl⟩

/-! ## The level section -/

/-- A level section does not begin like the word for an unconstrained section. -/
lemma listOfText_ne_ok {x : Char} (hx : Text.asciiLowerChar x = 'n') (rest : Text) :
    LevelTest.listOfText (x :: rest) ≠ .ok l := by
  have hdigit : Text.isDigit x = false := by
    by_contra hdigit
    rw [Bool.not_eq_false, Text.isDigit, Bool.and_eq_true, decide_eq_true_eq,
      decide_eq_true_eq] at hdigit
    have hsmall : ¬ ('A' ≤ x ∧ x ≤ 'Z') := fun h => absurd (h.1.trans hdigit.2) (by decide)
    rw [Text.asciiLowerChar, if_neg hsmall] at hx
    subst hx
    exact absurd hdigit.2 (by decide)
  have hblank : Text.isBlank x = false := by
    by_contra hblank
    rw [Bool.not_eq_false] at hblank
    rw [Plugin.asciiLowerChar_of_isBlank hblank] at hx
    subst hx
    cases hblank
  have hcomma : x ≠ ',' := by
    rintro rfl
    exact absurd hx (by decide)
  obtain ⟨piece, pieces, hpieces⟩ := List.exists_cons_of_ne_nil (List.splitOn_ne_nil ',' rest)
  have hsplit : (x :: rest).splitOn ',' = (x :: piece) :: pieces := by
    rw [List.splitOn_cons_eq_if_modifyHead, if_neg (by simpa using hcomma), hpieces,
      List.modifyHead_cons]
  have htrim : Text.trim (x :: piece) = x :: Text.trimEnd piece :=
    Text.trim_append_cons hblank [] piece
  have hnone : LevelTest.ofText? (x :: Text.trimEnd piece) = none := by
    simp [LevelTest.ofText?, LevelTest.takeNumber?, List.span_eq_takeWhile_dropWhile, hdigit]
  simp [LevelTest.listOfText, hsplit, htrim, hnone]

/-- No blank stands in the word for an unconstrained section, in whatever case it is written. -/
lemma isBlank_of_sameAscii_noneWord (h : Text.sameAscii p Rule.noneWord = true) :
    ∀ c ∈ p, Text.isBlank c = false := by
  intro c hc
  by_contra hblank
  rw [Bool.not_eq_false] at hblank
  have hmem : c ∈ Text.asciiLower p :=
    List.mem_map.mpr ⟨c, hc, Plugin.asciiLowerChar_of_isBlank hblank⟩
  rw [beq_iff_eq.mp h] at hmem
  have hplain : (Text.asciiLower Rule.noneWord).any Text.isBlank = false := by decide
  exact List.any_eq_false.mp hplain c hmem hblank

/-- The text of a level section up to blanks is decided by the section up to blanks. -/
lemma map_squeeze_sectionText? (h : (sectionText? p).elim (.ok []) LevelTest.listOfText = .ok l) :
    (sectionText? p).map squeeze =
      if squeeze p = [] ∨ Text.sameAscii (squeeze p) Rule.noneWord = true then none
      else some (squeeze p) := by
  by_cases hnil : Text.trim p = []
  · have hnone : sectionText? p = none := by simp [sectionText?, hnil]
    rw [hnone, if_pos (Or.inl (Text.trim_eq_nil_iff.mp hnil))]
    rfl
  · by_cases hword : Text.sameAscii (Text.trim p) Rule.noneWord = true
    · have hnone : sectionText? p = none := by simp [sectionText?, hword]
      have hsqueeze : squeeze p = Text.trim p := by
        rw [← Text.squeeze_trim, Text.squeeze_eq_self (isBlank_of_sameAscii_noneWord hword)]
      rw [hnone, if_pos (Or.inr (hsqueeze ▸ hword))]
      rfl
    · have hsome : sectionText? p = some (Text.trim p) := by simp [sectionText?, hnil, hword]
      rw [hsome, Option.elim_some] at h
      rw [hsome, Option.map_some, Text.squeeze_trim, if_neg]
      rintro (hsqueeze | hsqueeze)
      · exact hnil (Text.trim_eq_nil_iff.mpr hsqueeze)
      · obtain ⟨x, rest, htrim⟩ := List.exists_cons_of_ne_nil hnil
        have hx : Text.isBlank x = false := (Text.trimmed_trim p).head x (by rw [htrim]; rfl)
        rw [← Text.squeeze_trim, htrim, Text.squeeze_cons_of_not_blank hx] at hsqueeze
        rw [htrim] at h
        exact listOfText_ne_ok (List.cons.inj (beq_iff_eq.mp hsqueeze)).1 rest h

/-- The level texts of sections that are the same up to blanks are the same up to blanks. -/
lemma map_squeeze_asked_level {sections sections' : List Text}
    (h : sections.map squeeze = sections'.map squeeze)
    (hl : (asked sections 2).elim (.ok []) LevelTest.listOfText = .ok l)
    (hl' : (asked sections' 2).elim (.ok []) LevelTest.listOfText = .ok l') :
    (asked sections 2).map squeeze = (asked sections' 2).map squeeze := by
  have hpiece := congrArg (·[2]?) h
  simp only [List.getElem?_map] at hpiece
  unfold asked at hl hl' ⊢
  cases hp : sections[2]? with
  | none =>
    rw [hp, Option.map_none, eq_comm, Option.map_eq_none_iff] at hpiece
    rw [hpiece]
  | some p =>
    rw [hp, Option.map_some, eq_comm, Option.map_eq_some_iff] at hpiece
    obtain ⟨q, hq, hqp⟩ := hpiece
    rw [hp, Option.bind_some] at hl
    rw [hq, Option.bind_some] at hl'
    rw [hq, Option.bind_some, Option.bind_some, map_squeeze_sectionText? hl,
      map_squeeze_sectionText? hl', hqp]

/-! ## Forms and levels -/

/-- A form is pinned when its text before trimming is. -/
lemma pinned_iff {form : Text} {ref : Reference} (h : formOfText p = .ok form)
    (href : Reference.ofText? form = some ref) :
    ref.plugin?.isSome = true ↔ '~' ∈ p ∨ '|' ∈ p := by
  obtain ⟨rfl, -, -⟩ := formOfText_eq_ok_iff.mp h
  rw [Reference.isSome_plugin?_iff href, Text.mem_trim_iff (by decide),
    Text.mem_trim_iff (by decide)]

/-- Of two lines that are the same up to blanks and comments, rules that agree have the same form
and the same level text up to blanks. -/
lemma respaced_form_level
    (hline : squeeze (Text.stripComment line) = squeeze (Text.stripComment line'))
    (hf : ruleOfLine v line = .ok f) (hg : ruleOfLine v line' = .ok g) (hfg : f.Agrees g) :
    squeeze f.form = squeeze g.form ∧ f.level.map squeeze = g.level.map squeeze := by
  obtain ⟨before, after, gift, form, hcut, -, hform, -, hread⟩ := ruleOfLine_eq_ok_iff.mp hf
  obtain ⟨before', after', gift', form', hcut', -, hform', -, hread'⟩ := ruleOfLine_eq_ok_iff.mp hg
  have hafter : squeeze (Text.trim after) = squeeze (Text.trim after') := by
    rw [Text.squeeze_trim, Text.squeeze_trim]
    exact (Text.squeeze_cut (by decide) hcut hcut' hline).2
  obtain ⟨hformEq, -, hsome⟩ := formOfText_eq_ok_iff.mp hform
  obtain ⟨hformEq', -, -⟩ := formOfText_eq_ok_iff.mp hform'
  have hsame := hfg.form
  rw [hread.form, hread'.form] at hsame
  obtain ⟨ref, ref', href, href', hrefs⟩ := Reference.exists_same hsame hsome
  have hpinned : '~' ∈ (splitForm (Text.trim after)).1 ∨ '|' ∈ (splitForm (Text.trim after)).1 ↔
      '~' ∈ (splitForm (Text.trim after')).1 ∨ '|' ∈ (splitForm (Text.trim after')).1 := by
    rw [← pinned_iff hform href, ← pinned_iff hform' href', hrefs.isSome_plugin?]
  obtain ⟨hforms, hsections⟩ := splitForm_respaced hafter hpinned
  refine ⟨?_, ?_⟩
  · rw [hread.form, hread'.form, hformEq, hformEq', Text.squeeze_trim, Text.squeeze_trim, hforms]
  · rw [hread.level, hread'.level]
    exact map_squeeze_asked_level hsections hread.levels hread'.levels

/-- Of two lines that differ at their ends only, the rules have the same form and level texts. -/
lemma form_level_of_ends
    (hline : Text.trim (Text.stripComment line) = Text.trim (Text.stripComment line'))
    (hf : ruleOfLine v line = .ok f) (hg : ruleOfLine v line' = .ok g) :
    f.form = g.form ∧ f.level = g.level := by
  obtain ⟨before, after, gift, form, hcut, -, hform, -, hread⟩ := ruleOfLine_eq_ok_iff.mp hf
  obtain ⟨before', after', gift', form', hcut', -, hform', -, hread'⟩ := ruleOfLine_eq_ok_iff.mp hg
  have hequals : Text.isBlank '=' = false := by decide
  have hcuts := congrArg (Text.cut '=') hline
  rw [Text.cut_trim hequals, Text.cut_trim hequals, hcut, hcut', Option.map_some, Option.map_some,
    Option.some.injEq, Prod.mk.injEq] at hcuts
  have hafter : Text.trim after = Text.trim after' := by
    rw [← Text.trim_trimEnd, hcuts.2, Text.trim_trimEnd]
  rw [hafter] at hform hread
  rw [hform, Except.ok.injEq] at hform'
  exact ⟨by rw [hread.form, hread'.form, hform'], by rw [hread.level, hread'.level]⟩

end Barred

/-! ## Writing rules that agree -/

namespace Rule

open Barred

variable {v : Vocabulary} {f g : Rule}

/-- Dropping sections at the end does not look at their texts. -/
lemma dropNoneEnd_map (φ : Text → Text) (l : List (Option Text)) :
    dropNoneEnd (l.map (Option.map φ)) = (dropNoneEnd l).map (Option.map φ) := by
  have hnone : (Option.isNone ∘ Option.map φ : Option Text → Bool) = Option.isNone := by
    funext s
    exact Option.isNone_map
  rw [dropNoneEnd, dropNoneEnd, ← List.map_reverse, List.dropWhile_map, hnone, List.map_reverse]

/-- What is written for a list of sections is the same up to blanks when the sections are. -/
lemma map_squeeze_writtenOf (l : List (Option Text)) :
    (writtenOf l).map squeeze = writtenOf (l.map (Option.map squeeze)) := by
  have hnone : squeeze noneWord = noneWord := by decide
  rw [writtenOf, writtenOf, dropNoneEnd_map, List.map_map, List.map_map]
  refine List.map_congr_left fun s _ => ?_
  cases s with
  | none => exact hnone
  | some t => rfl

/-- Rules that agree, with the same form and level up to blanks, are written in the same way up to
blanks. -/
lemma squeeze_toText (hf : f.dialect = .barred) (hg : g.dialect = .barred) (hfg : f.Agrees g)
    (hform : squeeze f.form = squeeze g.form) (hlevel : f.level.map squeeze = g.level.map squeeze) :
    squeeze f.toText = squeeze g.toText := by
  have hwritten : f.written.map squeeze = g.written.map squeeze := by
    rw [written, written, map_squeeze_writtenOf, map_squeeze_writtenOf, sections, sections,
      hfg.texts, hfg.forms, hfg.traits, hfg.count, hfg.chance]
    simp only [List.map_cons, hlevel]
  have hvalue : squeeze (Text.join ['|'] (f.form :: f.written)) =
      squeeze (Text.join ['|'] (g.form :: g.written)) := by
    rw [Text.squeeze_join (by decide), Text.squeeze_join (by decide), List.map_cons, List.map_cons,
      hform, hwritten]
  rw [toText_eq hf, toText_eq hg, hfg.keyword, Text.squeeze_append, Text.squeeze_append]
  congr 1
  exact congrArg (fun value => squeeze [' ', '=', ' '] ++ value) hvalue

/-- Rules that agree, with the same form up to blanks, are written in the same way exactly when
their forms and levels are the same texts. -/
lemma toText_eq_iff (hf : WellFormed v f) (hg : WellFormed v g) (hfg : f.Agrees g)
    (hform : squeeze f.form = squeeze g.form) :
    f.toText = g.toText ↔ f.form = g.form ∧ f.level = g.level := by
  rw [toText_eq hf.dialect, toText_eq hg.dialect, hfg.keyword, List.append_cancel_left_eq]
  simp only [List.cons.injEq, true_and]
  constructor
  · intro h
    have hforms : f.form = g.form := by
      rw [join_bar_eq, join_bar_eq] at h
      exact Text.eq_of_append_eq hf.form.trimmed hg.form.trimmed hform h
    have hbars : ∀ {r : Rule}, WellFormed v r → ∀ t ∈ r.written, '|' ∉ t := fun hr t ht hbar =>
      ((isSection_of_mem_written hr ht).unbroken _ hbar).1 rfl
    rw [hforms] at h
    have hwritten := join_bar_inj (hbars hf) (hbars hg) h
    have hasked : ∀ {r : Rule}, WellFormed v r → asked r.written 2 = r.level := fun hr =>
      (asked_written _ 2).trans (bind_sectionText? hr.level)
    exact ⟨hforms, by rw [← hasked hf, ← hasked hg, hwritten]⟩
  · rintro ⟨hforms, hlevels⟩
    rw [hforms, written, written, sections, sections, hfg.texts, hfg.forms, hfg.traits, hfg.count,
      hfg.chance, hlevels]

end Rule

end Wardrobe
