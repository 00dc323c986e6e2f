import Mathlib
import Wardrobe.Proofs.Form.KeyText
import Wardrobe.Proofs.Rule.BarredWriting
import Wardrobe.Proofs.Text.Respacing

/-!
# Keys as targets of barred rules

A key can be the target of a rule in both of its layouts, `plugin|id` and `id~plugin`.  Both are
pinned forms, so they end where they should (`Rule.splitForm_of_pinned`), and what stands behind
them is read in the same way (`ruleOfLine_lineOf`).  Reading a line with one of them therefore gives
what reading it with the other gives, apart from the form and the line that the rule keeps
(`ruleOfLine_key_layouts`).  The word in front must not hold the separator, since a line is cut at
the first one.
-/

namespace Wardrobe

open Text (Trimmed isBlank)

namespace Barred

variable {v : Vocabulary} {keyword form form' plugin id : Text} {n : FormId}

/-- The line that hands out a form under some conditions, if any are written. -/
def lineOf (keyword form : Text) (rest : Option Text) : Text :=
  keyword ++ " = ".toList ++ (form ++ rest.elim [] ('|' :: ·))

/-- The sections behind a form, without comment and blanks at the end. -/
def sectionsBehind (rest : Option Text) : List Text :=
  (rest.map fun t => Text.trimEnd (Text.stripComment t)).elim [] (·.splitOn '|')

/-! ## Lines with a pinned form -/

/-- The word of a line with a form, and what stands behind the separator. -/
lemma cut_lineOf (hkeyword : ∀ c ∈ keyword, c ≠ '=' ∧ c ≠ ';' ∧ c ≠ '#')
    (hform : ∀ c ∈ form, c ≠ ';' ∧ c ≠ '#') (rest : Option Text) :
    Text.cut '=' (Text.stripComment (lineOf keyword form rest)) =
      some (keyword ++ [' '],
        ' ' :: (form ++ (rest.map Text.stripComment).elim [] ('|' :: ·))) := by
  have hmarks : ∀ c ∈ form, (c != ';' && c != '#') = true := fun c hc => by simpa using hform c hc
  have hrest : Text.stripComment (rest.elim [] ('|' :: ·)) =
      (rest.map Text.stripComment).elim [] ('|' :: ·) := by cases rest <;> rfl
  have hvalue : Text.stripComment (form ++ rest.elim [] ('|' :: ·)) =
      form ++ (rest.map Text.stripComment).elim [] ('|' :: ·) := by
    rw [← hrest, Text.stripComment, List.takeWhile_append_of_pos hmarks, Text.stripComment]
  have hline : lineOf keyword form rest =
      keyword ++ ' ' :: '=' :: ' ' :: (form ++ rest.elim [] ('|' :: ·)) := by simp [lineOf]
  rw [hline, cut_word hkeyword, hvalue]

/-- A pinned form and the sections behind it are told apart when the line is trimmed. -/
lemma splitForm_trim_pinned (hform : IsForm form) (hpinned : '~' ∈ form ∨ '|' ∈ form)
    (rest : Option Text) :
    splitForm (Text.trim (' ' :: (form ++ (rest.map Text.stripComment).elim [] ('|' :: ·)))) =
      (form, rest.map fun t => Text.trimEnd (Text.stripComment t)) := by
  have hblank : ∀ c ∈ [' '], isBlank c = true := by simp [isBlank]
  have htrim : Text.trim (form ++ (rest.map Text.stripComment).elim [] ('|' :: ·)) =
      form ++ (rest.map fun t => Text.trimEnd (Text.stripComment t)).elim [] ('|' :: ·) := by
    cases rest with
    | none => simpa using Text.trim_eq_self hform.trimmed
    | some rest =>
      simp only [Option.map_some, Option.elim_some]
      rw [Text.trim_append_cons (by decide), Text.trimStart_eq_self hform.trimmed.head]
  rw [← List.singleton_append, Text.trim_blanks_append hblank, htrim,
    Rule.splitForm_of_pinned hform hpinned]

/-- A line with a pinned form is read as the rule that the word and the sections behind the form
make. -/
lemma ruleOfLine_lineOf (hform : IsForm form) (hpinned : '~' ∈ form ∨ '|' ∈ form)
    (hkeyword : ∀ c ∈ keyword, c ≠ '=' ∧ c ≠ ';' ∧ c ≠ '#') (rest : Option Text) :
    ruleOfLine v (lineOf keyword form rest) = (v.lookup? (Text.trim keyword)).elim
      (.error (.unknownKeyword (Text.trim keyword))) fun gift =>
        if maxSections < (sectionsBehind rest).length then
          .error (.tooManySections (sectionsBehind rest).length)
        else ruleOfSections (lineOf keyword form rest) (Text.trim keyword) gift form
          (sectionsBehind rest) := by
  have hsplit := splitForm_trim_pinned hform hpinned rest
  have hsections : sectionsOf (Text.trim (' ' :: (form ++
      (rest.map Text.stripComment).elim [] ('|' :: ·)))) = sectionsBehind rest := by
    rw [sectionsOf, hsplit, sectionsBehind]
  have hread : formOfText form = .ok form :=
    formOfText_eq_ok_iff.mpr ⟨(Text.trim_eq_self hform.trimmed).symm, hform.ne_nil,
      hform.isReference⟩
  have hword : Text.trim (keyword ++ [' ']) = Text.trim keyword :=
    Text.trim_append_blanks (by simp [isBlank]) keyword
  rw [ruleOfLine_of_cut (cut_lineOf hkeyword hform.uncommented rest), hsplit, hsections, hword,
    hread]
  rfl

/-- Reading a line with one pinned form gives what reading it with another gives, apart from the
form and the line. -/
lemma ruleOfLine_lineOf_map (hform : IsForm form) (hpinned : '~' ∈ form ∨ '|' ∈ form)
    (hform' : IsForm form') (hpinned' : '~' ∈ form' ∨ '|' ∈ form') (hkeyword : '=' ∉ keyword)
    (rest : Option Text) : ruleOfLine v (lineOf keyword form' rest) =
      (ruleOfLine v (lineOf keyword form rest)).map fun r =>
        { r with form := form', source := lineOf keyword form' rest } := by
  by_cases hmarks : ∀ c ∈ keyword, c ≠ ';' ∧ c ≠ '#'
  · have hword : ∀ c ∈ keyword, c ≠ '=' ∧ c ≠ ';' ∧ c ≠ '#' :=
      fun c hc => ⟨fun h => hkeyword (h ▸ hc), hmarks c hc⟩
    rw [ruleOfLine_lineOf hform hpinned hword, ruleOfLine_lineOf hform' hpinned' hword]
    cases v.lookup? (Text.trim keyword) with
    | none => rfl
    | some gift =>
      rw [Option.elim_some, Option.elim_some]
      split
      · rfl
      · exact ruleOfSections_map
  · -- a comment begins in the word, so neither line has a separator
    have hstrip : ∀ form, Text.stripComment (lineOf keyword form rest) =
        Text.stripComment keyword := by
      intro form
      rw [lineOf, List.append_assoc]
      refine (Text.stripComment_append keyword _).resolve_right fun h => hmarks fun c hc => ?_
      exact (Text.mem_stripComment (h.1.symm ▸ hc)).2
    have hequals : ∀ form, '=' ∉ Text.stripComment (lineOf keyword form rest) := by
      intro form h
      rw [hstrip] at h
      exact hkeyword (Text.mem_stripComment h).1
    rw [ruleOfLine_of_notMem (hequals form), ruleOfLine_of_notMem (hequals form'), hstrip, hstrip]
    rfl

/-! ## Keys in both layouts -/

/-- The texts that a key is written with. -/
structure IsKeyText (plugin id : Text) (n : FormId) : Prop where
  isFileName : Plugin.isFileName plugin = true
  trimmed : Trimmed plugin
  uncommented : ∀ c ∈ plugin, c ≠ ';' ∧ c ≠ '#'
  reads : FormId.ofText? id = some n
  no_blank : ∀ c ∈ id, isBlank c = false

/-- Whether two texts make a key can be checked. -/
lemma isKeyText_iff : IsKeyText plugin id n ↔
    Plugin.isFileName plugin = true ∧ Text.trim plugin = plugin ∧
      plugin.all (fun c => c != ';' && c != '#') = true ∧ FormId.ofText? id = some n ∧
      id.any isBlank = false := by
  constructor
  · rintro ⟨hname, htrimmed, hmarks, hreads, hblank⟩
    refine ⟨hname, Text.trim_eq_self htrimmed, ?_, hreads, ?_⟩
    · exact List.all_eq_true.mpr fun c hc => by simpa using hmarks c hc
    · exact List.any_eq_false.mpr fun c hc => by simpa using hblank c hc
  · rintro ⟨hname, htrim, hmarks, hreads, hblank⟩
    refine ⟨hname, htrim ▸ Text.trimmed_trim plugin, fun c hc => ?_, hreads, fun c hc => ?_⟩
    · simpa using List.all_eq_true.mp hmarks c hc
    · simpa using List.any_eq_false.mp hblank c hc

instance : Decidable (IsKeyText plugin id n) :=
  decidable_of_iff _ isKeyText_iff.symm

namespace IsKeyText

variable (h : IsKeyText plugin id n)
include h

/-- No delimiter is in the plugin, and it has an ending. -/
lemma plugin_spec : '|' ∉ plugin ∧ '~' ∉ plugin ∧ Plugin.HasEnding plugin := by
  have hname := Plugin.isFileName_iff.mp h.isFileName
  rwa [Text.trim_eq_self h.trimmed] at hname

lemma trimmed_id : Trimmed id :=
  ⟨fun c hc => h.no_blank c (List.mem_of_mem_head? hc),
    fun c hc => h.no_blank c (List.mem_of_mem_getLast? hc)⟩

/-- No delimiter and no mark of a comment is in the id. -/
lemma plain_id : ∀ c ∈ id, c ≠ '~' ∧ c ≠ '|' ∧ c ≠ ';' ∧ c ≠ '#' := by
  have hplain := FormId.plain_of_ofText? h.reads
  rwa [Text.trim_eq_self h.trimmed_id] at hplain

lemma id_ne_nil : id ≠ [] := by
  rintro rfl
  cases h.reads

/-- A key is read with the plugin in front. -/
lemma ofText?_bar : Reference.ofText? (plugin ++ '|' :: id) = some (.formKey ⟨plugin, n⟩) := by
  obtain ⟨hbar, htilde, hending⟩ := h.plugin_spec
  have hstart : Text.trimStart plugin = plugin := Text.trimStart_eq_self h.trimmed.head
  rw [Reference.ofText?_of_hasEnding hbar htilde (fun hc => (h.plain_id _ hc).1 rfl)
    (hstart.symm ▸ hending), h.reads, Text.trim_eq_self h.trimmed]
  rfl

/-- A key is read with the id in front. -/
lemma ofText?_tilde : Reference.ofText? (id ++ '~' :: plugin) = some (.formKey ⟨plugin, n⟩) := by
  have hgood : ¬ (id = [] ∨ (!Plugin.isFileName plugin) = true) := by
    simp [h.id_ne_nil, h.isFileName]
  rw [Reference.ofText?_tilde fun hc => (h.plain_id _ hc).1 rfl, Text.trim_eq_self h.trimmed_id,
    Text.trim_eq_self h.trimmed, Reference.ofTilde?, if_neg hgood, h.reads]

/-- The form with the plugin in front has its bar inside. -/
lemma isForm_bar : IsForm (plugin ++ '|' :: id) := by
  obtain ⟨hbar, htilde, hending⟩ := h.plugin_spec
  have hidBar : '|' ∉ id := fun hc => (h.plain_id _ hc).2.1 rfl
  refine
    { trimmed := ?_
      ne_nil := by simp
      isReference := by rw [h.ofText?_bar]; rfl
      uncommented := ?_
      bar := fun _ => ⟨plugin, id, rfl, hbar, hidBar, htilde, Or.inl ⟨hending, ?_⟩⟩ }
  · have happend := h.trimmed.append h.trimmed_id hending.ne_nil h.id_ne_nil ['|']
    rwa [List.append_assoc, List.singleton_append] at happend
  · intro c hc
    rcases List.mem_append.mp hc with hc | hc
    · exact h.uncommented c hc
    · rcases List.mem_cons.mp hc with rfl | hc
      · decide
      · exact (h.plain_id c hc).2.2
  · rw [h.reads]
    rfl

/-- The form with the id in front has no bar. -/
lemma isForm_tilde : IsForm (id ++ '~' :: plugin) := by
  obtain ⟨hbar, htilde, hending⟩ := h.plugin_spec
  refine
    { trimmed := ?_
      ne_nil := by simp
      isReference := by rw [h.ofText?_tilde]; rfl
      uncommented := ?_
      bar := fun hmem => ?_ }
  · have happend := h.trimmed_id.append h.trimmed h.id_ne_nil hending.ne_nil ['~']
    rwa [List.append_assoc, List.singleton_append] at happend
  · intro c hc
    rcases List.mem_append.mp hc with hc | hc
    · exact (h.plain_id c hc).2.2
    · rcases List.mem_cons.mp hc with rfl | hc
      · decide
      · exact h.uncommented c hc
  · rcases List.mem_append.mp hmem with hmem | hmem
    · exact absurd rfl (h.plain_id _ hmem).2.1
    · rcases List.mem_cons.mp hmem with hmem | hmem
      · exact absurd hmem (by decide)
      · exact absurd hmem hbar

end IsKeyText

/-- A key may be the target of a rule in either layout.  Whatever word stands in front of the
separator, and whatever sections behind the key, both lines are rejected with the same fault, or
both give a rule with the key as its form; and the rules differ in nothing else but the line that
they keep. -/
theorem ruleOfLine_key_layouts (h : IsKeyText plugin id n) (hkeyword : '=' ∉ keyword)
    (rest : Option Text) :
    Reference.ofText? (plugin ++ '|' :: id) = some (.formKey ⟨plugin, n⟩) ∧
    Reference.ofText? (id ++ '~' :: plugin) = some (.formKey ⟨plugin, n⟩) ∧
    (∀ r, ruleOfLine v (lineOf keyword (plugin ++ '|' :: id) rest) = .ok r →
      r.form = plugin ++ '|' :: id) ∧
    ruleOfLine v (lineOf keyword (id ++ '~' :: plugin) rest) =
      (ruleOfLine v (lineOf keyword (plugin ++ '|' :: id) rest)).map fun r =>
        { r with
          form := id ++ '~' :: plugin
          source := lineOf keyword (id ++ '~' :: plugin) rest } := by
  have hbar : '~' ∈ plugin ++ '|' :: id ∨ '|' ∈ plugin ++ '|' :: id := by simp
  have htilde : '~' ∈ id ++ '~' :: plugin ∨ '|' ∈ id ++ '~' :: plugin := by simp
  refine ⟨h.ofText?_bar, h.ofText?_tilde, fun r hr => ?_,
    ruleOfLine_lineOf_map h.isForm_bar hbar h.isForm_tilde htilde hkeyword rest⟩
  -- a line gives what it gives itself, with the form that it was written with
  have hself : ruleOfLine v _ = _ :=
    ruleOfLine_lineOf_map h.isForm_bar hbar h.isForm_bar hbar hkeyword rest
  rw [hr] at hself
  exact congrArg Rule.form (Except.ok.inj hself)

/-- A plugin name with an ending, a comma and a separator inside, and sections that look like an id
and a plugin. -/
theorem ruleOfLine_key_layouts_embedded : ∃ (plugin id : Text) (rest : Option Text) (f : Rule),
    plugin = "Arms, v1=2.esp.Pack.ESM".toList ∧ id = "0X00aB".toList ∧
    rest = some "0x1 | Skyrim.esm|5/20|F||50 ; day".toList ∧ IsKeyText plugin id 0xAB ∧
    ruleOfLine .standard (lineOf "outfit".toList (plugin ++ '|' :: id) rest) = .ok f ∧
    f.texts = .ofText "0x1".toList ∧ f.forms = .ofText "Skyrim.esm".toList ∧ f.chance = 50 ∧
    ruleOfLine .standard (lineOf "outfit".toList (id ++ '~' :: plugin) rest) =
      .ok { f with
        form := "0X00aB~Arms, v1=2.esp.Pack.ESM".toList
        source := "outfit = 0X00aB~Arms, v1=2.esp.Pack.ESM|0x1 | Skyrim.esm|5/20|F||50 ; day".toList
        } := by
  let plugin := "Arms, v1=2.esp.Pack.ESM".toList
  let id := "0X00aB".toList
  let rest := some "0x1 | Skyrim.esm|5/20|F||50 ; day".toList
  let f : Rule := ⟨.barred, .outfit, "outfit".toList, plugin ++ '|' :: id, .ofText "0x1".toList,
    .ofText "Skyrim.esm".toList, some "5/20".toList, [.between 5 20],
    TraitDemand.nothing.ask .female true, none, 50,
    lineOf "outfit".toList (plugin ++ '|' :: id) rest⟩
  have h : IsKeyText plugin id 0xAB := by decide +kernel
  have hf : ruleOfLine .standard (lineOf "outfit".toList (plugin ++ '|' :: id) rest) = .ok f := by
    decide +kernel
  have hkeyword : '=' ∉ "outfit".toList := by decide
  obtain ⟨-, -, -, hmap⟩ := ruleOfLine_key_layouts h hkeyword rest
  rw [hf] at hmap
  exact ⟨plugin, id, rest, f, rfl, rfl, rfl, h, hf, rfl, rfl, rfl, hmap⟩

/-- A word with a separator inside is cut there, although the vocabulary knows it as a whole.  What
stands between the two separators then belongs to the form. -/
theorem not_key_layouts_of_separator : ¬ ∀ (v : Vocabulary) (keyword plugin id : Text) (n : FormId)
    (rest : Option Text), (v.lookup? keyword).isSome = true → IsKeyText plugin id n →
      (∀ r, ruleOfLine v (lineOf keyword (plugin ++ '|' :: id) rest) = .ok r →
        r.form = plugin ++ '|' :: id) ∧
      ruleOfLine v (lineOf keyword (id ++ '~' :: plugin) rest) =
        (ruleOfLine v (lineOf keyword (plugin ++ '|' :: id) rest)).map fun r =>
          { r with
            form := id ++ '~' :: plugin
            source := lineOf keyword (id ++ '~' :: plugin) rest } := by
  intro hall
  let v : Vocabulary := .ofList [("A".toList, .outfit), ("A=B".toList, .outfit)]
  let line := "A=B = M.esp|1".toList
  let f : Rule := ⟨.barred, .outfit, "A".toList, "B = M.esp|1".toList, .everything, .everything,
    none, [], .nothing, none, 100, line⟩
  have h : IsKeyText "M.esp".toList "1".toList 1 := by decide +kernel
  have hf : ruleOfLine v line = .ok f := by decide +kernel
  obtain ⟨hform, -⟩ := hall v "A=B".toList "M.esp".toList "1".toList 1 none (by decide) h
  have hbad : "B = M.esp|1".toList = "M.esp|1".toList := hform f hf
  exact absurd hbad (by decide)

end Barred

end Wardrobe
