import Mathlib
import Wardrobe.Proofs.Form.KeyText
import Wardrobe.Proofs.Text.Respacing

/-!
# Names pinned to a plugin

An editor id may be pinned to a plugin around a bar or around a tilde.  A token that is an editor id
by itself does not end like a plugin name and does not look like a number, so around a bar nothing
else can be meant by it.  Around a tilde an id is tried first, and ids need no marker in front: a
name of hexadecimal digits only, such as `ADD`, is the id of a form key there
(`ofText?_pinned_name`).
-/

namespace Wardrobe

variable {name plugin n : Text} {plugin? : Option Text}

/-- No delimiter is in a file name, not even among the blanks around it. -/
lemma Plugin.delimiters_notMem (h : isFileName plugin = true) : '|' ∉ plugin ∧ '~' ∉ plugin := by
  obtain ⟨hbar, htilde, -⟩ := isFileName_iff.mp h
  exact ⟨mt (Text.mem_trim_iff (by decide)).mpr hbar, mt (Text.mem_trim_iff (by decide)).mpr htilde⟩

namespace Reference

/-- A word that is read as an editor id is no plugin and does not look like a number. -/
lemma ofWord?_eq_editorId (h : ofWord? name = some (.editorId n plugin?)) :
    Plugin.isFileName name = false ∧ looksNumeric name = false := by
  rw [ofWord?] at h
  split_ifs at h with hfile hnumeric
  · cases h
  · obtain ⟨id, -, hid⟩ := Option.map_eq_some_iff.mp h
    cases hid
  · exact ⟨Bool.eq_false_of_not_eq_true hfile, Bool.eq_false_of_not_eq_true hnumeric⟩

/-- A token that is read as an editor id by itself is not blank, is no plugin and does not look like
a number. -/
lemma name_spec (hbar : '|' ∉ name) (htilde : '~' ∉ name)
    (h : ofText? name = some (.editorId n plugin?)) :
    Text.trim name ≠ [] ∧ Plugin.isFileName name = false ∧
      looksNumeric (Text.trim name) = false := by
  have hne : Text.trim name ≠ [] := by
    intro hnil
    rw [ofText?, hnil] at h
    cases h
  rw [ofText?_word hbar htilde hne] at h
  obtain ⟨hfile, hnumeric⟩ := ofWord?_eq_editorId h
  exact ⟨hne, Plugin.isFileName_trim name ▸ hfile, hnumeric⟩

/-- Around a bar a name is pinned to the plugin. -/
lemma ofText?_name_bar (hplugin : Plugin.isFileName plugin = true) (hbar : '|' ∉ name)
    (htilde : '~' ∉ name) (h : ofText? name = some (.editorId n plugin?)) :
    ofText? (name ++ '|' :: plugin) =
      some (.editorId (Text.trim name) (some (Text.trim plugin))) := by
  obtain ⟨hne, hfile, hnumeric⟩ := name_spec hbar htilde h
  obtain ⟨hpluginBar, hpluginTilde⟩ := Plugin.delimiters_notMem hplugin
  have hending : ¬ Plugin.HasEnding (Text.trimStart name) := by
    intro hending
    -- there is nothing to trim behind an ending, so the name would be a plugin
    have htrim : Text.trim name = Text.trimStart name :=
      Text.trimEnd_eq_self hending.isBlank_getLast?
    have hfileName : Plugin.isFileName name = true := Plugin.isFileName_iff.mpr
      ⟨mt Text.mem_of_mem_trim hbar, mt Text.mem_of_mem_trim htilde, htrim ▸ hending⟩
    rw [hfile] at hfileName
    cases hfileName
  rw [ofText?_of_not_hasEnding hbar htilde hpluginTilde hpluginBar hending, ofBar?, if_neg]
  simp [hne, hnumeric, hplugin]

/-- Around a tilde a name is an id if it can be, and else pinned to the plugin. -/
lemma ofText?_name_tilde (hplugin : Plugin.isFileName plugin = true) (hbar : '|' ∉ name)
    (htilde : '~' ∉ name) (h : ofText? name = some (.editorId n plugin?)) :
    ofText? (name ++ '~' :: plugin) = (FormId.ofText? name).elim
      (some (.editorId (Text.trim name) (some (Text.trim plugin))))
      fun id => some (.formKey ⟨Text.trim plugin, id⟩) := by
  obtain ⟨hne, -, hnumeric⟩ := name_spec hbar htilde h
  have hgood : ¬ (Text.trim name = [] ∨ (!Plugin.isFileName (Text.trim plugin)) = true) := by
    simp [hne, hplugin]
  rw [ofText?_tilde htilde, ofTilde?, if_neg hgood, FormId.ofText?_trim]
  cases FormId.ofText? name with
  | some id => rfl
  | none => simp [hnumeric]

/-- A name by itself is pinned to a plugin around a bar, and around a tilde as well if it cannot be
read as an id.  If it can, it is the id of a key around a tilde. -/
theorem ofText?_pinned_name (hplugin : Plugin.isFileName plugin = true) (hbar : '|' ∉ name)
    (htilde : '~' ∉ name) (h : ofText? name = some (.editorId n plugin?)) :
    ofText? (name ++ '|' :: plugin) =
        some (.editorId (Text.trim name) (some (Text.trim plugin))) ∧
      ofText? (name ++ '~' :: plugin) = (FormId.ofText? name).elim
        (some (.editorId (Text.trim name) (some (Text.trim plugin))))
        fun id => some (.formKey ⟨Text.trim plugin, id⟩) :=
  ⟨ofText?_name_bar hplugin hbar htilde h, ofText?_name_tilde hplugin hbar htilde h⟩

/-- A name with blanks around it, a plugin ending inside and a marker of numbers further on. -/
theorem ofText?_pinned_name_embedded : ∃ name plugin : Text,
    name = " Arms.esp 0xADD ".toList ∧ plugin = " My.esp.Mod.ESM".toList ∧
    ofText? name = some (.editorId "Arms.esp 0xADD".toList none) ∧
    ofText? (name ++ '|' :: plugin) =
      some (.editorId "Arms.esp 0xADD".toList (some "My.esp.Mod.ESM".toList)) ∧
    ofText? (name ++ '~' :: plugin) =
      some (.editorId "Arms.esp 0xADD".toList (some "My.esp.Mod.ESM".toList)) := by
  let name := " Arms.esp 0xADD ".toList
  let plugin := " My.esp.Mod.ESM".toList
  have hname : ofText? name = some (.editorId "Arms.esp 0xADD".toList none) := by decide +kernel
  have hplugin : Plugin.isFileName plugin = true := by decide +kernel
  exact ⟨name, plugin, rfl, rfl, hname, ofText?_pinned_name hplugin (by decide) (by decide) hname⟩

/-- The name `ADD` can be read as an id, and around a tilde it is. -/
theorem not_pinned_of_digits : ¬ ∀ (name plugin n : Text) (plugin? : Option Text),
    Plugin.isFileName plugin = true → '|' ∉ name → '~' ∉ name →
      ofText? name = some (.editorId n plugin?) →
        ofText? (name ++ '~' :: plugin) =
            some (.editorId (Text.trim name) (some (Text.trim plugin))) ∧
          ofText? (name ++ '|' :: plugin) =
            some (.editorId (Text.trim name) (some (Text.trim plugin))) := by
  intro hall
  have hname : ofText? "ADD".toList = some (.editorId "ADD".toList none) := by decide +kernel
  have hplugin : Plugin.isFileName "M.esp".toList = true := by decide +kernel
  obtain ⟨htilde, -⟩ := hall "ADD".toList "M.esp".toList _ _ hplugin (by decide) (by decide) hname
  have hkey : ofText? "ADD~M.esp".toList = some (.formKey ⟨"M.esp".toList, 0xADD⟩) := by
    decide +kernel
  have hpinned : ofText? "ADD~M.esp".toList =
      some (.editorId "ADD".toList (some "M.esp".toList)) := htilde
  rw [hkey] at hpinned
  cases hpinned

end Reference

end Wardrobe
