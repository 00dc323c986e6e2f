import Mathlib
import Wardrobe.Proofs.Sheet.AcceptedLines
import Wardrobe.Proofs.Text.PhysicalLines
import Wardrobe.Proofs.Text.Respacing

/-!
# How the lines of a sheet are tagged

A sheet looks at the first character of a trimmed line to find blank lines and comments, and leaves
the others to the reader of its dialect.  The readers look again, by cutting the comment off.  Both
find the same lines (`isPassed_iff`), since no reader complains of an empty line later on
(`seesText_ruleOfSections`, `seesText_foldlM`).  So the tags of a sheet are what the reader makes of
its physical lines (`ofText_isTagged`).
-/

namespace Wardrobe

variable {α β : Type} {dialect : Dialect} {v : Vocabulary} {source : Text} {rules : List Rule}
  {fault : Fault}

/-! ## Faults other than the empty line -/

/-- A reading that does not complain of an empty line. -/
def SeesText (e : Except Fault α) : Prop :=
  e ≠ .error .empty

@[simp] lemma seesText_ok (a : α) : SeesText (.ok a : Except Fault α) := by
  simp [SeesText]

@[simp] lemma seesText_error_iff : SeesText (.error fault : Except Fault α) ↔ fault ≠ .empty := by
  simp [SeesText]

/-- A reading in two steps complains only if one of them does. -/
lemma SeesText.bind {e : Except Fault α} {f : α → Except Fault β} (he : SeesText e)
    (hf : ∀ a, SeesText (f a)) : SeesText (e.bind f) := by
  cases e with
  | error fault => exact fun h => he (congrArg Except.error (Except.error.inj h))
  | ok a => exact hf a

/-- A reading step by step complains only if a step does. -/
lemma seesText_foldlM {f : α → β → Except Fault α} (hf : ∀ a b, SeesText (f a b)) (a : α)
    (bs : List β) : SeesText (bs.foldlM f a) := by
  induction bs generalizing a with
  | nil => exact seesText_ok a
  | cons b rest ih =>
    rw [List.foldlM_cons]
    exact (hf a b).bind ih

/-- A section complains only if its reader does. -/
lemma seesText_elim {x : α} {f : Text → Except Fault α} (hf : ∀ t, SeesText (f t))
    (section? : Option Text) : SeesText (section?.elim (.ok x) f) := by
  cases section? with
  | none => exact seesText_ok x
  | some t => exact hf t

lemma seesText_levels (t : Text) : SeesText (LevelTest.listOfText t) := by
  unfold LevelTest.listOfText
  split <;> simp

lemma seesText_traits (t : Text) : SeesText (TraitDemand.ofText t) := by
  refine seesText_foldlM (fun d code => ?_) _ _
  simp only [TraitDemand.addCode]
  split
  · simp
  · split <;> simp

lemma seesText_chance (t : Text) : SeesText (Chance.ofText t) := by
  simp only [Chance.ofText]
  split
  · simp
  · split <;> simp

namespace Barred

variable {line keyword form : Text} {gift : Gift} {sections : List Text}

lemma seesText_formOfText (t : Text) : SeesText (formOfText t) := by
  simp only [formOfText]
  split
  · simp
  · split <;> simp

/-- The sections of a line complain of levels, traits and chances only. -/
lemma seesText_ruleOfSections : SeesText (ruleOfSections line keyword gift form sections) := by
  rw [ruleOfSections_eq]
  refine (seesText_elim seesText_levels _).bind fun levels => ?_
  refine (seesText_elim seesText_traits _).bind fun traits => ?_
  exact (seesText_elim seesText_chance _).bind fun chance => seesText_ok _

/-- A barred line is rejected as empty exactly when nothing stands before its comment. -/
lemma ruleOfLine_eq_empty_iff :
    ruleOfLine v line = .error .empty ↔ Text.trim (Text.stripComment line) = [] := by
  by_cases hmem : '=' ∈ Text.stripComment line
  · refine iff_of_false ?_ fun hnil => ?_
    · obtain ⟨before, after, hline, hbefore⟩ := List.eq_append_cons_of_mem hmem
      rw [ruleOfLine_of_cut (Text.cut_eq_some_iff.mpr ⟨hline, hbefore⟩)]
      cases v.lookup? (Text.trim before) with
      | none => exact seesText_error_iff.mpr (by simp)
      | some gift =>
        refine (seesText_formOfText _).bind fun form => ?_
        split
        · exact seesText_error_iff.mpr (by simp)
        · exact seesText_ruleOfSections
    · rw [← Text.mem_trim_iff (by decide), hnil] at hmem
      exact absurd hmem List.not_mem_nil
  · rw [ruleOfLine_of_notMem hmem]
    split
    · next hnil => exact iff_of_true rfl hnil
    · next hne => exact iff_of_false (by simp) hne

end Barred

namespace Clausal

variable {line : Text}

lemma seesText_add (d : Draft) (t : Text) :
    SeesText (do d.add (← Clause.ofText t) : Except Fault Draft) := by
  refine SeesText.bind ?_ fun c => ?_
  · unfold Clause.ofText
    split <;> simp
  · unfold Draft.add
    split
    case h_5 =>
      refine SeesText.bind ?_ fun female => seesText_ok _
      unfold genderOfText
      split
      · simp
      · split <;> simp
    case h_7 => exact (seesText_chance _).bind fun chance => seesText_ok _
    all_goals exact seesText_ok _

/-- A clausal line is rejected as empty exactly when nothing stands before its comment. -/
lemma rulesOfLine_eq_empty_iff :
    rulesOfLine line = .error .empty ↔ Text.trim (Text.stripComment line) = [] := by
  simp only [rulesOfLine]
  by_cases hnil : Text.trim (Text.stripComment line) = []
  · rw [if_pos hnil]
    exact iff_of_true rfl hnil
  · rw [if_neg hnil]
    refine iff_of_false ?_ hnil
    refine (seesText_foldlM seesText_add _ _).bind fun draft => ?_
    split
    · exact seesText_error_iff.mpr (by simp)
    · exact seesText_ok _

end Clausal

/-! ## Lines that are passed over -/

/-- Nothing stands before the comment of a line exactly when the line is blank or begins with a
comment. -/
lemma Text.trim_stripComment_eq_nil_iff {line : Text} : trim (stripComment line) = [] ↔
    trim line = [] ∨ ∃ c rest, trim line = c :: rest ∧ (c = ';' ∨ c = '#') := by
  rcases blank_or_exists line with hblank | ⟨a, x, b, rfl, ha, hx⟩
  · refine iff_of_true ?_ (Or.inl ?_)
    · rw [trim, trimStart_eq_nil fun c hc => hblank c (mem_stripComment hc).1]
      rfl
    · rw [trim, trimStart_eq_nil hblank]
      rfl
  · have hstrip : stripComment (a ++ x :: b) = a ++ stripComment (x :: b) :=
      List.takeWhile_append_of_pos fun c hc => ne_mark_of_isBlank (ha c hc)
    have htrim : trim (a ++ x :: b) = x :: trimEnd b := by
      rw [trim_append_cons hx, trimStart_eq_nil ha, List.nil_append]
    rw [hstrip, htrim, trim_blanks_append ha]
    by_cases hmark : x = ';' ∨ x = '#'
    · refine iff_of_true ?_ (Or.inr ⟨x, trimEnd b, rfl, hmark⟩)
      rw [← List.nil_append (x :: b), stripComment_append_mark hmark]
      rfl
    · have hkept : stripComment (x :: b) = x :: stripComment b := by
        rw [not_or] at hmark
        exact List.takeWhile_cons_of_pos (by simp [hmark])
      refine iff_of_false ?_ ?_
      · rw [hkept, ← List.nil_append (x :: stripComment b), trim_append_cons hx]
        exact List.cons_ne_nil x _
      · rintro (hnil | ⟨c, rest, hcons, hc⟩)
        · exact List.cons_ne_nil x _ hnil
        · exact hmark ((List.cons.inj hcons).1 ▸ hc)

namespace Content

/-- A content without rules and faults. -/
def IsPassed (content : Content) : Prop :=
  content = .blank ∨ content = .comment

/-- A line is rejected as empty, in either dialect, when nothing stands before its comment. -/
lemma rulesOfLine_eq_empty_iff :
    rulesOfLine dialect v source = .error .empty ↔ Text.trim (Text.stripComment source) = [] := by
  cases dialect with
  | barred =>
    rw [← Barred.ruleOfLine_eq_empty_iff (v := v), rulesOfLine]
    cases Barred.ruleOfLine v source with
    | error fault => simp [Except.map]
    | ok r => simp [Except.map]
  | clausal => exact Clausal.rulesOfLine_eq_empty_iff

/-- A line that is not passed over is tagged with what its reader says. -/
lemma ofLine_cases (dialect : Dialect) (v : Vocabulary) (source : Text) :
    (ofLine dialect v source).IsPassed ∧ rulesOfLine dialect v source = .error .empty ∨
    (∃ rules, ofLine dialect v source = .rules rules ∧
      rulesOfLine dialect v source = .ok rules) ∨
    ∃ fault, ofLine dialect v source = .rejected fault ∧
      rulesOfLine dialect v source = .error fault ∧ fault ≠ .empty := by
  have hempty : rulesOfLine dialect v source = .error .empty ↔ Text.trim source = [] ∨
      ∃ c rest, Text.trim source = c :: rest ∧ (c = ';' ∨ c = '#') :=
    rulesOfLine_eq_empty_iff.trans Text.trim_stripComment_eq_nil_iff
  unfold ofLine
  split
  · next htrim => exact Or.inl ⟨Or.inl rfl, hempty.mpr (Or.inl htrim)⟩
  · next c rest htrim =>
    split
    · next hmark => exact Or.inl ⟨Or.inr rfl, hempty.mpr (Or.inr ⟨c, rest, htrim, hmark⟩)⟩
    · next hmark =>
      split
      · next found hfound => exact Or.inr (Or.inl ⟨found, rfl, hfound⟩)
      · next fault hfault =>
        refine Or.inr (Or.inr ⟨fault, rfl, hfault, ?_⟩)
        rintro rfl
        rcases hempty.mp hfault with hnil | ⟨d, rest', hcons, hd⟩
        · exact List.cons_ne_nil c rest (htrim.symm.trans hnil)
        · rw [htrim, List.cons.injEq] at hcons
          exact hmark (hcons.1 ▸ hd)

/-- A line is passed over exactly when its reader rejects it as empty. -/
lemma isPassed_iff : (ofLine dialect v source).IsPassed ↔
    rulesOfLine dialect v source = .error .empty := by
  rcases ofLine_cases dialect v source with ⟨h, hread⟩ | ⟨rules, h, hread⟩ | ⟨fault, h, hread, hne⟩
  · exact iff_of_true h hread
  · rw [h, hread]
    exact iff_of_false (by simp [IsPassed]) nofun
  · rw [h, hread]
    exact iff_of_false (by simp [IsPassed]) fun h => hne (Except.error.inj h)

/-- A line holds rules exactly when its reader accepts it with them. -/
lemma ofLine_eq_rules_iff : ofLine dialect v source = .rules rules ↔
    rulesOfLine dialect v source = .ok rules := by
  rcases ofLine_cases dialect v source with ⟨h, hread⟩ | ⟨found, h, hread⟩ | ⟨fault, h, hread, -⟩
  · rw [hread]
    refine iff_of_false (fun heq => ?_) nofun
    rw [heq] at h
    rcases h with h | h <;> cases h
  · rw [h, hread, Content.rules.injEq, Except.ok.injEq]
  · rw [h, hread]
    exact iff_of_false nofun nofun

/-- A line is rejected with a fault exactly when its reader rejects it with that fault, and it is
not the fault of an empty line. -/
lemma ofLine_eq_rejected_iff : ofLine dialect v source = .rejected fault ↔
    rulesOfLine dialect v source = .error fault ∧ fault ≠ .empty := by
  rcases ofLine_cases dialect v source with ⟨h, hread⟩ | ⟨found, h, hread⟩ | ⟨found, h, hread, hne⟩
  · rw [hread, Except.error.injEq]
    refine iff_of_false (fun heq => ?_) fun heq => heq.2 heq.1.symm
    rw [heq] at h
    rcases h with h | h <;> cases h
  · rw [h, hread]
    exact iff_of_false nofun fun heq => nomatch heq.1
  · rw [h, hread, Content.rejected.injEq, Except.error.injEq]
    refine ⟨?_, fun heq => heq.1⟩
    rintro rfl
    exact ⟨rfl, hne⟩

end Content

/-! ## Sheets -/

namespace Sheet

/-- The rules that the reader finds on a line. -/
def rulesFound (dialect : Dialect) (v : Vocabulary) (source : Text) : List Rule :=
  (Content.rulesOfLine dialect v source).toOption.getD []

/-- The fault that the reader finds on a line that is not empty. -/
def faultFound? (dialect : Dialect) (v : Vocabulary) (source : Text) : Option Fault :=
  match Content.rulesOfLine dialect v source with
  | .ok _ => none
  | .error fault => if fault = .empty then none else some fault

/-- A sheet tags the lines of a text with what the reader of a dialect makes of them. -/
structure IsTagged (s : Sheet) (dialect : Dialect) (v : Vocabulary) (body : Text) : Prop where
  sources : Text.IsLines body (s.lines.map (·.source))
  numbers : s.lines.map (·.number) = List.range' 1 s.lines.length
  passed : ∀ line ∈ s.lines, line.content = .blank ∨ line.content = .comment ↔
    Content.rulesOfLine dialect v line.source = .error .empty
  accepted : ∀ line ∈ s.lines, ∀ rules, line.content = .rules rules ↔
    Content.rulesOfLine dialect v line.source = .ok rules
  refused : ∀ line ∈ s.lines, ∀ fault, line.content = .rejected fault ↔
    Content.rulesOfLine dialect v line.source = .error fault ∧ fault ≠ .empty
  rules : s.rules = s.lines.flatMap fun line =>
    (rulesFound dialect v line.source).map fun r => (line.number, r)
  rejected : s.rejected = s.lines.filterMap fun line =>
    (faultFound? dialect v line.source).map fun fault => (line, fault)

variable {path : Path} {t : Text} {line : SheetLine}

/-- The rules of a line are those that its reader finds. -/
lemma toRules_eq (hline : line ∈ (ofText path dialect v t).lines) :
    line.content.toRules = rulesFound dialect v line.source := by
  rw [content_of_mem_lines hline, rulesFound]
  rcases Content.ofLine_cases dialect v line.source with
    ⟨h | h, hread⟩ | ⟨rules, h, hread⟩ | ⟨fault, h, hread, -⟩
  all_goals rw [h, hread]; rfl

/-- The rejected lines are those on which the reader finds a fault. -/
lemma rejected_eq (path : Path) (dialect : Dialect) (v : Vocabulary) (t : Text) :
    (ofText path dialect v t).rejected = (ofText path dialect v t).lines.filterMap fun line =>
      (faultFound? dialect v line.source).map fun fault => (line, fault) := by
  refine List.filterMap_congr fun line hline => ?_
  rw [content_of_mem_lines hline, faultFound?]
  rcases Content.ofLine_cases dialect v line.source with
    ⟨h | h, hread⟩ | ⟨rules, h, hread⟩ | ⟨fault, h, hread, hne⟩
  · rw [h, hread]
    rfl
  · rw [h, hread]
    rfl
  · rw [h, hread]
    rfl
  · rw [h, hread]
    simp only [if_neg hne]
    rfl

/-- The lines of a sheet are those of its text, numbered from one. -/
lemma lines_ofText (path : Path) (dialect : Dialect) (v : Vocabulary) (t : Text) :
    (ofText path dialect v t).lines.map (·.source) = Text.lines (dropByteOrderMark t) ∧
      (ofText path dialect v t).lines.map (·.number) =
        List.range' 1 (ofText path dialect v t).lines.length := by
  constructor
  · rw [ofText, List.map_map]
    exact List.zipIdx_map_fst 0 _
  · have hrange : ∀ n, List.range' 1 n = (List.range' 0 n).map (· + 1) :=
      fun n => List.range'_succ_left
    rw [ofText, List.map_map, List.length_map, List.length_zipIdx, hrange,
      ← List.zipIdx_map_snd 0, List.map_map]
    rfl

/-- A sheet is tagged with what the reader of its dialect makes of the physical lines of its text,
one byte order mark in front aside. -/
theorem ofText_isTagged (path : Path) (dialect : Dialect) (v : Vocabulary) (t : Text) :
    ∃ body, (t = '\uFEFF' :: body ∨ t = body ∧ t.head? ≠ some '\uFEFF') ∧
      (ofText path dialect v t).IsTagged dialect v body := by
  obtain ⟨hsources, hnumbers⟩ := lines_ofText path dialect v t
  refine ⟨dropByteOrderMark t, ?_, ?_⟩
  · unfold dropByteOrderMark
    split
    · next hmark =>
      obtain ⟨body, rfl⟩ := List.head?_eq_some_iff.mp hmark
      exact Or.inl rfl
    · next hmark => exact Or.inr ⟨rfl, hmark⟩
  · refine
      { sources := Text.isLines_iff.mpr hsources.symm
        numbers := hnumbers
        passed := fun line hline => ?_
        accepted := fun line hline rules => ?_
        refused := fun line hline fault => ?_
        rules := List.flatMap_congr fun line hline => by rw [toRules_eq hline]
        rejected := rejected_eq path dialect v t }
    · rw [content_of_mem_lines hline]
      exact Content.isPassed_iff
    · rw [content_of_mem_lines hline]
      exact Content.ofLine_eq_rules_iff
    · rw [content_of_mem_lines hline]
      exact Content.ofLine_eq_rejected_iff

end Sheet

end Wardrobe
