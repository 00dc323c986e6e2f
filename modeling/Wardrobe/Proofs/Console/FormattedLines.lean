import Mathlib
import Wardrobe.Console.Run
import Wardrobe.Proofs.Rule.BarredReading
import Wardrobe.Proofs.Rule.ClausalMeaning
import Wardrobe.Proofs.Sheet.TaggedLines

/-!
# Formatting the lines that formatting prints

Both dialects read a line without its comment and the blanks at its ends, so what is left of a
clausal line is read like the line itself (`reads_core`).  This text is printed once for each rule
of the line, and each copy holds all of them (`printed_of_clausal`).  A line with `n` outfits is
thus read back as `n * n` rules, which are those of the line only when it names a single outfit
(`isStable_iff`).
-/

namespace Wardrobe

/-- A rule apart from the line that it was read from. -/
def Rule.body (r : Rule) : Rule :=
  { r with source := [] }

variable {v : Vocabulary} {t t' keyword form : Text} {gift : Gift} {sections : List Text}
  {fault : Fault} {rules : List Rule}

/-! ## Lines with the same text -/

/-- A line without its comment and the blanks at its ends has nothing more to lose. -/
@[simp] lemma Text.trim_stripComment_idem (t : Text) :
    trim (stripComment (trim (stripComment t))) = trim (stripComment t) := by
  have hself : stripComment (trim (stripComment t)) = trim (stripComment t) :=
    stripComment_eq_self fun _ hc => (mem_stripComment (mem_of_mem_trim hc)).2
  rw [hself, trim_trim]

namespace Barred

/-- The line goes into a rule as it is. -/
lemma ruleOfSections_source : ruleOfSections t' keyword gift form sections =
    (ruleOfSections t keyword gift form sections).map fun r => { r with source := t' } := by
  have hmap := @ruleOfSections_map t keyword form gift sections t' form
  rw [hmap]
  cases hread : ruleOfSections t keyword gift form sections with
  | error fault => rfl
  | ok r =>
    obtain rfl : r.form = form := (ruleOfSections_eq_ok_iff.mp hread).form
    rfl

/-- Lines with the same text are read alike. -/
lemma ruleOfLine_congr (h : Text.trim (Text.stripComment t') = Text.trim (Text.stripComment t)) :
    ruleOfLine v t' = (ruleOfLine v t).map fun r => { r with source := t' } := by
  simp only [ruleOfLine, h]
  split
  · rfl
  cases Text.cut '=' (Text.trim (Text.stripComment t)) with
  | none => rfl
  | some pieces =>
    simp only
    cases v.lookup? (Text.trim pieces.1) with
    | none => rfl
    | some gift =>
      simp only
      cases formOfText (splitForm (Text.trim pieces.2)).1 with
      | error fault => rfl
      | ok form =>
        simp only [bind, Except.bind]
        split
        · rfl
        · exact ruleOfSections_source

end Barred

/-- Clausal lines with the same text are read alike. -/
lemma Clausal.rulesOfLine_congr
    (h : Text.trim (Text.stripComment t') = Text.trim (Text.stripComment t))
    (hrules : rulesOfLine t = .ok rules) :
    rulesOfLine t' = .ok (rules.map fun r => { r with source := t' }) := by
  obtain ⟨hne, d, hfold, htargets, rfl⟩ := rulesOfLine_eq_ok_iff.mp hrules
  refine rulesOfLine_eq_ok_iff.mpr ⟨h ▸ hne, d, h ▸ hfold, htargets, ?_⟩
  rw [Draft.rules, Draft.rules, List.map_map]
  rfl

namespace Format

/-! ## Reading lines back -/

/-- The rules of a line, which is tried as a clausal one when it is rejected as a barred one. -/
def rulesOf (v : Vocabulary) (t : Text) : Except Fault (List Rule) :=
  tryCatch ((Barred.ruleOfLine v t).map ([·])) fun fault =>
    (Clausal.rulesOfLine t).mapError fun _ => fault

/-- The lines that the command prints for some lines, without colors. -/
def printed (ts : List Text) : List Text :=
  ((lines .standard ts).flatMap (rows ⟨false⟩)).map String.toList

/-- What it means that the lines printed for a line with some rules can stand in its place. -/
structure IsStable (t : Text) (rules : List Rule) : Prop where
  /-- Read back, they give the same rules together, each as often. -/
  readsBack : ∃ found, (printed [t]).mapM (rulesOf .standard) = .ok found ∧
    (found.flatten.map Rule.body).Perm (rules.map Rule.body)
  /-- Formatting them prints what formatting the line printed. -/
  again : ∀ color, Console.formatLines color (printed [t]) = Console.formatLines color [t]

/-- Formatting a line writes the rules that are read from it. -/
lemma line_eq_map (v : Vocabulary) (t : Text) :
    line v t = (rulesOf v t).map fun rules => rules.map Rule.toText := by
  rw [line, rulesOf]
  cases Barred.ruleOfLine v t with
  | ok r => rfl
  | error fault => cases Clausal.rulesOfLine t <;> rfl

/-- A line that is rejected as a barred one has the rules of a clausal one. -/
lemma rulesOf_of_clausal (hbarred : Barred.ruleOfLine v t = .error fault)
    (hclausal : Clausal.rulesOfLine t = .ok rules) : rulesOf v t = .ok rules := by
  rw [rulesOf, hbarred, hclausal]
  rfl

/-- What is left of a clausal line without its comment and the blanks at its ends is a clausal line
with the same rules. -/
lemma reads_core (hbarred : Barred.ruleOfLine v t = .error fault)
    (hclausal : Clausal.rulesOfLine t = .ok rules) :
    Barred.ruleOfLine v (Text.trim (Text.stripComment t)) = .error fault ∧
      Clausal.rulesOfLine (Text.trim (Text.stripComment t)) =
        .ok (rules.map fun r => { r with source := Text.trim (Text.stripComment t) }) := by
  have hcore := Text.trim_stripComment_idem t
  refine ⟨?_, Clausal.rulesOfLine_congr hcore hclausal⟩
  rw [Barred.ruleOfLine_congr hcore, hbarred]
  rfl

/-- A clausal line is formatted as one copy of itself for each rule, without its comment and the
blanks at its ends. -/
lemma line_of_clausal (hbarred : Barred.ruleOfLine v t = .error fault)
    (hclausal : Clausal.rulesOfLine t = .ok rules) :
    line v t = .ok (List.replicate rules.length (Text.trim (Text.stripComment t))) := by
  rw [line_eq_map, rulesOf_of_clausal hbarred hclausal]
  refine congrArg Except.ok (List.eq_replicate_iff.mpr ⟨List.length_map _, ?_⟩)
  exact List.forall_mem_map.mpr fun r hr => Clausal.toText_of_mem hclausal hr

/-- A clausal line is not passed over as blank. -/
lemma lines_of_clausal (hclausal : Clausal.rulesOfLine t = .ok rules) :
    lines v [t] = [(t, line v t)] := by
  have hcore := (Clausal.rulesOfLine_eq_ok_iff.mp hclausal).1
  have hne : Text.trim t ≠ [] := fun hnil =>
    hcore (Text.trim_stripComment_eq_nil_iff.mpr (.inl hnil))
  simp [lines, hne]

/-- The command prints a clausal line once for each of its rules. -/
lemma printed_of_clausal (hbarred : Barred.ruleOfLine .standard t = .error fault)
    (hclausal : Clausal.rulesOfLine t = .ok rules) :
    printed [t] = List.replicate rules.length (Text.trim (Text.stripComment t)) := by
  rw [printed, lines_of_clausal hclausal, line_of_clausal hbarred hclausal, List.flatMap_singleton,
    rows, List.map_map]
  refine (List.map_congr_left fun u _ => ?_).trans (List.map_id _)
  exact String.toList_ofList

/-- The outcome of the command for a clausal line tells its text and the number of its rules. -/
lemma formatLines_of_clausal (hbarred : Barred.ruleOfLine .standard t = .error fault)
    (hclausal : Clausal.rulesOfLine t = .ok rules) (color : Bool) :
    Console.formatLines color [t] = Console.printing 0 ((List.replicate rules.length
      (Text.trim (Text.stripComment t))).map fun u =>
        Report.Palette.paint ⟨color⟩ .green (String.ofList u)) := by
  rw [Console.formatLines, lines_of_clausal hclausal, line_of_clausal hbarred hclausal,
    List.flatMap_singleton]
  rfl

/-! ## Lines with one outfit -/

/-- Reading equal texts gives equal results. -/
lemma mapM_rulesOf_replicate (h : rulesOf v t = .ok rules) (n : ℕ) :
    (List.replicate n t).mapM (rulesOf v) = .ok (List.replicate n rules) := by
  induction n with
  | zero => rfl
  | succ n ih =>
    rw [List.replicate_succ, List.mapM_cons, h, ih]
    rfl

/-- The printed lines of a clausal line hold all its rules once for each of them. -/
lemma readsBack_of_clausal (hbarred : Barred.ruleOfLine .standard t = .error fault)
    (hclausal : Clausal.rulesOfLine t = .ok rules) :
    ∃ found, (printed [t]).mapM (rulesOf .standard) = .ok (List.replicate rules.length found) ∧
      found.map Rule.body = rules.map Rule.body := by
  obtain ⟨hbarred', hclausal'⟩ := reads_core hbarred hclausal
  refine ⟨rules.map fun r => { r with source := Text.trim (Text.stripComment t) }, ?_, ?_⟩
  · rw [printed_of_clausal hbarred hclausal]
    exact mapM_rulesOf_replicate (rulesOf_of_clausal hbarred' hclausal') _
  · rw [List.map_map]
    rfl

/-- When the printed lines of a clausal line give its rules back, it has only one. -/
lemma length_eq_one_of_isStable (hbarred : Barred.ruleOfLine .standard t = .error fault)
    (hclausal : Clausal.rulesOfLine t = .ok rules) (h : IsStable t rules) : rules.length = 1 := by
  obtain ⟨found, hfound, hbody⟩ := readsBack_of_clausal hbarred hclausal
  obtain ⟨read, hread, hperm⟩ := h.readsBack
  obtain rfl : List.replicate rules.length found = read := Except.ok.inj (hfound.symm.trans hread)
  have hcount : found.length = rules.length := by
    simpa only [List.length_map] using congrArg List.length hbody
  have hlength : rules.length * rules.length = rules.length := by
    simpa [hcount] using hperm.length_eq
  have hpos : 0 < rules.length := List.length_pos_iff.mpr (Clausal.rulesOfLine_ne_nil hclausal)
  exact Nat.eq_of_mul_eq_mul_left hpos (hlength.trans (Nat.mul_one _).symm)

/-- A clausal line with one rule is printed as its own text, with the same rule. -/
lemma isStable_of_length_eq_one (hbarred : Barred.ruleOfLine .standard t = .error fault)
    (hclausal : Clausal.rulesOfLine t = .ok rules) (h : rules.length = 1) : IsStable t rules := by
  obtain ⟨found, hfound, hbody⟩ := readsBack_of_clausal hbarred hclausal
  obtain ⟨hbarred', hclausal'⟩ := reads_core hbarred hclausal
  refine ⟨⟨_, hfound, ?_⟩, fun color => ?_⟩
  · rw [h, List.replicate_one, List.flatten_singleton, hbody]
  · rw [printed_of_clausal hbarred hclausal, h, List.replicate_one,
      formatLines_of_clausal hbarred' hclausal', formatLines_of_clausal hbarred hclausal,
      Text.trim_stripComment_idem, List.length_map]

/-- A clausal line is stable exactly when it names one outfit. -/
theorem isStable_iff (hbarred : Barred.ruleOfLine .standard t = .error fault)
    (hclausal : Clausal.rulesOfLine t = .ok rules) :
    IsStable t rules ↔ ∃ target, Clausal.targetsOf (Clausal.clausesOf t) = [target] := by
  rw [← Clausal.map_target_of_rulesOfLine hclausal, ← List.length_eq_one_iff, List.length_map]
  exact ⟨length_eq_one_of_isStable hbarred hclausal, isStable_of_length_eq_one hbarred hclausal⟩

/-- A line with alternatives, a gender, one outfit and a comment. -/
theorem isStable_of_one_outfit : ∃ t fault rules,
    t = "filterByNpcs=A, B:filterByGender=female: outfitSleep = M.esp|0x8 ; night".toList ∧
    Barred.ruleOfLine .standard t = .error fault ∧ Clausal.rulesOfLine t = .ok rules ∧
    IsStable t rules := by
  let t := "filterByNpcs=A, B:filterByGender=female: outfitSleep = M.esp|0x8 ; night".toList
  let person (name : String) : Group := ⟨[⟨name.toList, false, .none⟩], []⟩
  let r : Rule := ⟨.clausal, .sleepOutfit, "outfitSleep".toList, "M.esp|0x8".toList, .everything,
    ⟨[person "A", person "B"], []⟩, none, [], TraitDemand.nothing.ask .female true, none, 100, t⟩
  have hbarred : Barred.ruleOfLine .standard t =
      .error (.unknownKeyword "filterByNpcs".toList) := by decide +kernel
  have hclausal : Clausal.rulesOfLine t = .ok [r] := by decide +kernel
  refine ⟨t, _, [r], rfl, hbarred, hclausal, (isStable_iff hbarred hclausal).mpr ?_⟩
  exact ⟨r.target, (Clausal.map_target_of_rulesOfLine hclausal).symm⟩

/-- A line with an outfit for the day and one for the night is printed twice, and the two lines hold
four rules. -/
theorem not_isStable_of_two_outfits : ¬ ∀ t fault rules,
    Barred.ruleOfLine .standard t = .error fault → Clausal.rulesOfLine t = .ok rules →
      IsStable t rules := by
  intro hall
  let t := "outfitDefault=A.esp|0x1:outfitSleep=A.esp|0x2".toList
  let outfit : Rule := ⟨.clausal, .outfit, "outfitDefault".toList, "A.esp|0x1".toList, .everything,
    .everything, none, [], .nothing, none, 100, t⟩
  let sleepOutfit : Rule := { outfit with
    gift := .sleepOutfit
    keyword := "outfitSleep".toList
    form := "A.esp|0x2".toList }
  have hbarred : Barred.ruleOfLine .standard t =
      .error (.unknownKeyword "outfitDefault".toList) := by decide +kernel
  have hclausal : Clausal.rulesOfLine t = .ok [outfit, sleepOutfit] := by decide +kernel
  have hone := length_eq_one_of_isStable hbarred hclausal (hall _ _ _ hbarred hclausal)
  exact absurd hone (by decide)

end Format

end Wardrobe
