import Mathlib
import Wardrobe.Form.Reference
import Wardrobe.Proofs.Form.IdText
import Wardrobe.Proofs.Form.PluginBar

/-!
# Writing and reading form keys

A key is read in two layouts and written in one of them, `id~plugin`.  What the plugins of keys that
were read have in common is `FormKey.Legible`; it does not rule out bars, since a plugin name before
a bar may hold bars itself.  Behind a tilde it may not, so a key comes back exactly when there is no
bar in its plugin (`FormKey.ofText?_toText`).
-/

namespace Wardrobe

open Text (Trimmed isBlank)

variable {t first rest ending : Text} {c : Char} {k : FormKey}

/-! ## Plugin names before a bar -/

namespace Plugin

/-- A plugin name that leads a text stands before a bar. -/
lemma eq_of_atBar? (h : atBar? t = some (first, rest)) : t = first ++ '|' :: rest := by
  induction t generalizing first with
  | nil => cases h
  | cons c t ih =>
    unfold atBar? at h
    split at h
    · next ending rest' hending =>
      rw [Option.some.injEq, Prod.mk.injEq] at h
      obtain ⟨rfl, rfl⟩ := h
      rw [(endingAtBar?_eq_some_iff.mp hending).1, List.cons_append]
    · obtain ⟨⟨name, rest'⟩, hname, h⟩ := Option.map_eq_some_iff.mp h
      rw [Prod.mk.injEq] at h
      obtain ⟨rfl, rfl⟩ := h
      rw [ih hname, List.cons_append]

/-- Folding the case leaves blanks alone. -/
lemma asciiLowerChar_of_isBlank (h : isBlank c = true) : Text.asciiLowerChar c = c := by
  rw [Text.asciiLowerChar, if_neg]
  rintro ⟨hA, hZ⟩
  have hlow : 65 ≤ c.toNat := hA
  have hhigh : c.toNat ≤ 90 := hZ
  simp [isBlank] at h
  omega

/-- There are no blanks in an ending. -/
lemma isBlank_of_mem_ending (h : Text.asciiLower ending ∈ extensions) (hc : c ∈ ending) :
    isBlank c = false := by
  have hplain : ∀ ext ∈ extensions, ext.any isBlank = false := by decide
  by_contra hblank
  rw [Bool.not_eq_false] at hblank
  have hmem : c ∈ Text.asciiLower ending :=
    List.mem_map.mpr ⟨c, hc, asciiLowerChar_of_isBlank hblank⟩
  exact List.any_eq_false.mp (hplain _ h) c hmem hblank

/-- No blank stands at the end of a plugin name. -/
lemma HasEnding.isBlank_getLast? (h : HasEnding t) : ∀ c ∈ t.getLast?, isBlank c = false := by
  obtain ⟨stem, ending, rfl, -, hext⟩ := h
  have hne : ending ≠ [] := List.ne_nil_of_length_pos (by rw [length_of_ending hext]; decide)
  rw [List.getLast?_append_of_ne_nil _ hne]
  exact fun c hc => isBlank_of_mem_ending hext (List.mem_of_mem_getLast? hc)

lemma HasEnding.ne_nil (h : HasEnding t) : t ≠ [] := by
  obtain ⟨stem, ending, rfl, hstem, -⟩ := h
  exact List.append_ne_nil_of_left_ne_nil hstem ending

/-- A plugin name that leads a trimmed text is trimmed itself. -/
lemma trimmed_of_atBar? (h : atBar? (Text.trim t) = some (first, rest)) : Trimmed first := by
  have hending := hasEnding_of_atBar? h
  refine ⟨?_, hending.isBlank_getLast?⟩
  rw [← List.head?_append_of_ne_nil first hending.ne_nil, ← eq_of_atBar? h]
  exact (Text.trimmed_trim t).head

end Plugin

/-! ## References by their delimiters -/

namespace Reference

/-- Blanks around a token are passed over. -/
@[simp] lemma ofText?_trim (t : Text) : ofText? (Text.trim t) = ofText? t := by
  rw [ofText?, ofText?, Text.trim_trim]

/-- A token without delimiters is read as a word. -/
lemma ofText?_word (hbar : '|' ∉ t) (htilde : '~' ∉ t) (hne : Text.trim t ≠ []) :
    ofText? t = ofWord? (Text.trim t) := by
  have hbar' : '|' ∉ Text.trim t := fun h => hbar (Text.mem_of_mem_trim h)
  have hcut : Text.cut '~' (Text.trim t) = none :=
    Text.cut_eq_none fun h => htilde (Text.mem_of_mem_trim h)
  have hat : Plugin.atBar? (Text.trim t) = none := by
    rw [Option.eq_none_iff_forall_ne_some]
    rintro ⟨name, rest⟩ hname
    exact hbar' (by simp [Plugin.eq_of_atBar? hname])
  simp only [ofText?, if_neg hne, hcut, hat, Text.cut_eq_none hbar']

/-- A token with a tilde is read around the first one. -/
lemma ofText?_tilde {left : Text} (h : '~' ∉ left) (plugin : Text) :
    ofText? (left ++ '~' :: plugin) = ofTilde? (Text.trim left) (Text.trim plugin) := by
  have htrim : Text.trim (left ++ '~' :: plugin) =
      Text.trimStart left ++ '~' :: Text.trimEnd plugin := Text.trim_append_cons (by decide) _ _
  have hne : Text.trimStart left ++ '~' :: Text.trimEnd plugin ≠ [] := by simp
  simp only [ofText?, htrim, if_neg hne,
    Text.cut_append_cons (fun hmem => h (Text.mem_of_mem_trimStart hmem)),
    Text.trim_trimStart, Text.trim_trimEnd]

/-- A token with a bar but no tilde is trimmed on the outside of its first bar. -/
lemma cut_trim_bar {first second : Text} (hbar : '|' ∉ first) (hfirst : '~' ∉ first)
    (hsecond : '~' ∉ second) :
    Text.trim (first ++ '|' :: second) = Text.trimStart first ++ '|' :: Text.trimEnd second ∧
      Text.cut '~' (Text.trimStart first ++ '|' :: Text.trimEnd second) = none ∧
      '|' ∉ Text.trimStart first := by
  refine ⟨Text.trim_append_cons (by decide) _ _, Text.cut_eq_none fun hmem => ?_,
    fun hmem => hbar (Text.mem_of_mem_trimStart hmem)⟩
  rw [List.mem_append, List.mem_cons] at hmem
  rcases hmem with hmem | hmem | hmem
  · exact hfirst (Text.mem_of_mem_trimStart hmem)
  · exact absurd hmem (by decide)
  · exact hsecond (Text.mem_of_mem_trimEnd hmem)

/-- A token with an ending right before its first bar is a key, if an id follows. -/
lemma ofText?_of_hasEnding {first second : Text} (hbar : '|' ∉ first) (hfirst : '~' ∉ first)
    (hsecond : '~' ∉ second) (h : Plugin.HasEnding (Text.trimStart first)) :
    ofText? (first ++ '|' :: second) =
      (FormId.ofText? second).map fun id => .formKey ⟨Text.trim first, id⟩ := by
  obtain ⟨htrim, hcut, hbar'⟩ := cut_trim_bar hbar hfirst hsecond
  obtain ⟨stem, ending, hsplit, hstem, hext⟩ := h
  have hbarStem : '|' ∉ stem := fun hmem => hbar' (hsplit ▸ List.mem_append_left _ hmem)
  have hat := Plugin.atBar?_of_ending hstem hbarStem hext (Text.trimEnd second)
  rw [← hsplit] at hat
  have hid : FormId.ofText? (Text.trimEnd second) = FormId.ofText? second := by
    rw [← FormId.ofText?_trim, Text.trim_trimEnd, FormId.ofText?_trim]
  have hne : Text.trimStart first ++ '|' :: Text.trimEnd second ≠ [] := by simp
  simp only [ofText?, htrim, if_neg hne, hcut, hat, hid, Text.trim_trimStart]

/-- A token with a bar but no ending right before one is read around its first bar. -/
lemma ofText?_of_not_hasEnding {first second : Text} (hbar : '|' ∉ first) (hfirst : '~' ∉ first)
    (hsecond : '~' ∉ second) (hsecondBar : '|' ∉ second)
    (h : ¬ Plugin.HasEnding (Text.trimStart first)) :
    ofText? (first ++ '|' :: second) = ofBar? (Text.trim first) (Text.trim second) := by
  obtain ⟨htrim, hcut, hbar'⟩ := cut_trim_bar hbar hfirst hsecond
  have hat : Plugin.atBar? (Text.trimStart first ++ '|' :: Text.trimEnd second) = none := by
    rw [Option.eq_none_iff_forall_ne_some]
    rintro ⟨name, rest⟩ hname
    have hsplit := Plugin.eq_of_atBar? hname
    have hnameBar : '|' ∉ name := by
      intro hmem
      obtain ⟨a, b, rfl, ha⟩ := List.eq_append_cons_of_mem hmem
      rw [List.append_assoc, List.cons_append] at hsplit
      obtain ⟨-, hrest⟩ := Plugin.append_bar_inj hbar' ha hsplit
      have hmem' : '|' ∈ Text.trimEnd second := by simp [hrest]
      exact hsecondBar (Text.mem_of_mem_trimEnd hmem')
    obtain ⟨heq, -⟩ := Plugin.append_bar_inj hbar' hnameBar hsplit
    exact h (heq ▸ Plugin.hasEnding_of_atBar? hname)
  have hne : Text.trimStart first ++ '|' :: Text.trimEnd second ≠ [] := by simp
  simp only [ofText?, htrim, if_neg hne, hcut, hat, Text.cut_append_cons hbar',
    Text.trim_trimStart, Text.trim_trimEnd]

end Reference

/-! ## Keys -/

namespace FormKey

/-- What the plugin of a key that was read looks like. -/
structure Legible (k : FormKey) : Prop where
  trimmed : Trimmed k.plugin
  no_tilde : '~' ∉ k.plugin
  ending : Plugin.HasEnding k.plugin

/-- A key is a reference to a key. -/
lemma ofText?_eq_some_iff : ofText? t = some k ↔ Reference.ofText? t = some (.formKey k) := by
  rw [ofText?]
  split
  · next key href => simp [href]
  · next hother => exact iff_of_false (by simp) (hother k)

/-- The plugin of a key that is read around a tilde is a file name. -/
lemma isFileName_of_ofTilde? {left plugin : Text}
    (h : Reference.ofTilde? left plugin = some (.formKey k)) :
    k.plugin = plugin ∧ Plugin.isFileName plugin = true := by
  rw [Reference.ofTilde?] at h
  split at h
  · cases h
  · next hbad =>
    rw [not_or, Bool.not_eq_true', Bool.not_eq_false] at hbad
    split at h
    · rw [Option.some.injEq, Reference.formKey.injEq] at h
      exact ⟨h ▸ rfl, hbad.2⟩
    · split at h <;> cases h

/-- Around a bar without a plugin name before it no key is read. -/
lemma ofBar?_ne_formKey (name plugin : Text) :
    Reference.ofBar? name plugin ≠ some (.formKey k) := by
  rw [Reference.ofBar?]
  split <;> simp

/-- Without delimiters no key is read. -/
lemma ofWord?_ne_formKey (word : Text) : Reference.ofWord? word ≠ some (.formKey k) := by
  rw [Reference.ofWord?]
  split
  · simp
  · split <;> simp

/-- The plugin of a key that was read is legible. -/
lemma legible_of_ofText? (h : ofText? t = some k) : k.Legible := by
  rw [ofText?_eq_some_iff, Reference.ofText?] at h
  split_ifs at h with hne
  split at h
  · obtain ⟨hplugin, hname⟩ := isFileName_of_ofTilde? h
    obtain ⟨-, htilde, hending⟩ := Plugin.isFileName_iff.mp hname
    rw [Text.trim_trim] at htilde hending
    exact ⟨hplugin ▸ Text.trimmed_trim _, hplugin ▸ htilde, hplugin ▸ hending⟩
  · next hcut =>
    split at h
    · next plugin right hbar =>
      obtain ⟨id, -, hkey⟩ := Option.map_eq_some_iff.mp h
      have hplugin : k.plugin = plugin := by
        rw [← Reference.formKey.inj hkey, Text.trim_eq_self (Plugin.trimmed_of_atBar? hbar)]
      have htilde : '~' ∉ Text.trim t := fun hmem => by
        obtain ⟨a, b, hab, ha⟩ := List.eq_append_cons_of_mem hmem
        rw [hab, Text.cut_append_cons ha] at hcut
        cases hcut
      rw [Plugin.eq_of_atBar? hbar] at htilde
      refine ⟨hplugin ▸ Plugin.trimmed_of_atBar? hbar, fun hmem => htilde ?_,
        hplugin ▸ Plugin.hasEnding_of_atBar? hbar⟩
      exact List.mem_append_left _ (hplugin ▸ hmem)
    · split at h
      · exact absurd h (ofBar?_ne_formKey _ _)
      · exact absurd h (ofWord?_ne_formKey _)

/-- A key is read back as it was written, unless there is a bar in its plugin. -/
theorem ofText?_toText (h : k.Legible) :
    ofText? k.toText = if '|' ∈ k.plugin then none else some k := by
  have hleft : '~' ∉ k.id.toText := fun hmem => (FormId.isBlank_of_mem_toText hmem).2 rfl
  have href : Reference.ofText? k.toText = Reference.ofTilde? k.id.toText k.plugin := by
    rw [toText, Reference.ofText?_tilde hleft, Text.trim_eq_self h.trimmed,
      Text.trim_eq_self (FormId.trimmed_toText k.id)]
  have hname : Plugin.isFileName k.plugin = decide ('|' ∉ k.plugin) := by
    rw [Bool.eq_iff_iff, decide_eq_true_iff, Plugin.isFileName_iff, Text.trim_eq_self h.trimmed]
    exact and_iff_left ⟨h.no_tilde, h.ending⟩
  rw [ofText?, href, Reference.ofTilde?, hname, FormId.ofText?_toText]
  by_cases hbar : '|' ∈ k.plugin
  · simp [hbar]
  · simp [hbar, FormId.toText]

end FormKey

end Wardrobe
