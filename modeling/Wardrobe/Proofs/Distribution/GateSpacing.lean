import Mathlib
import Wardrobe.Distribution.Gate
import Wardrobe.Proofs.Rule.BarredSpacing
import Wardrobe.Proofs.Rule.ClausalMeaning
import Wardrobe.Sheet.Basic

/-!
# Spacing, comments and the chance gate

The gate hashes a rule as it is written in its least form.  When a line is respaced and its rules
stay the same, the least form stays the same up to blanks, but it is not always the same text: a
barred rule is written with its form and its level as they stood in the line, and a clausal rule as
the whole line (`SameSlices`).  `verdicts_of_respaced` says that nothing else moves the gate.  The
hash plays no part in this, so the gate is taken with any function in its place (`verdict`).
-/

namespace Wardrobe

/-- The characters beside which blanks may stand in a dialect. -/
def Dialect.separators : Dialect → List Char
  | .barred => ['=', '|', ',', '+', '/']
  | .clausal => [':', '=', ',']

namespace Gate

/-- What the gate says when identities are hashed by some function. -/
def verdict (hash : Text → Nat) (a : Actor) (r : Rule) : Bool :=
  if 100 ≤ r.chance then true
  else if r.chance = 0 then false
  else hash (identity a r) % 100 < r.chance

/-- The parts that the rules of two lines keep as they were written are the same: the forms and the
levels of barred rules, and of clausal lines everything between the ends. -/
def SameSlices (line line' : Text) (f g : Rule) : Dialect → Prop
  | .barred => f.form = g.form ∧ f.level = g.level
  | .clausal => Text.Respaced [] line line'

variable {dialect : Dialect} {v : Vocabulary} {line line' : Text} {f g : Rule} {fs gs : List Rule}

/-- The gate is the one with its own hash. -/
lemma admits_eq_verdict (a : Actor) (r : Rule) : admits a r = verdict draw a r := by
  have hdraw : draw (identity a r) % 100 = draw (identity a r) := Nat.mod_mod _ _
  rw [verdict, hdraw]
  rfl

/-- Identities with the same chance pass together under every hash exactly when they are the same,
or the chance is certain. -/
lemma forall_hash_verdict_eq_iff {a b : Actor} (hchance : f.chance = g.chance) :
    (∀ hash, verdict hash a f = verdict hash b g) ↔
      identity a f = identity b g ∨ f.chance = 0 ∨ 100 ≤ f.chance := by
  constructor
  · intro hall
    by_contra hnot
    obtain ⟨hidentity, hzero, hlarge⟩ := not_or.mp hnot |>.imp_right not_or.mp
    -- A hash that draws the least number for one of the identities and the greatest for all others.
    have heq := hall (Function.update (fun _ => 99) (identity a f) 0)
    rw [verdict, verdict, Function.update_self, Function.update_of_ne (Ne.symm hidentity),
      ← hchance, if_neg hlarge, if_neg hlarge, if_neg hzero, if_neg hzero, decide_eq_decide] at heq
    omega
  · rintro (hidentity | hzero | hlarge) hash
    · rw [verdict, verdict, hidentity, hchance]
    · have hsmall : ¬ 100 ≤ f.chance := by omega
      rw [verdict, verdict, ← hchance, if_neg hsmall, if_neg hsmall, if_pos hzero, if_pos hzero]
    · rw [verdict, verdict, ← hchance, if_pos hlarge, if_pos hlarge]

/-- Two rules with the same chance pass together under every hash exactly when they are written in
the same way, or the chance is certain. -/
lemma forall_verdict_eq_iff (hchance : f.chance = g.chance) :
    (∀ hash a, verdict hash a f = verdict hash a g) ↔
      f.toText = g.toText ∨ f.chance = 0 ∨ 100 ≤ f.chance := by
  have htext : ∀ a, identity a f = identity a g ↔ f.toText = g.toText := fun a =>
    (List.append_cancel_left_eq _ _ _).to_iff.trans (List.cons_inj_right '|')
  constructor
  · intro hall
    let a := Actor.ofKey ⟨[], 0⟩ []
    exact ((forall_hash_verdict_eq_iff hchance).mp fun hash => hall hash a).imp_left (htext a).mp
  · intro h hash a
    exact (forall_hash_verdict_eq_iff hchance).mpr (h.imp_left (htext a).mpr) hash

/-- The rule of a barred line is the one that the line is read as. -/
lemma ruleOfLine_of_mem (h : Content.rulesOfLine .barred v line = .ok fs) (hf : f ∈ fs) :
    Barred.ruleOfLine v line = .ok f := by
  unfold Content.rulesOfLine at h
  cases hread : Barred.ruleOfLine v line with
  | error fault => rw [hread] at h; cases h
  | ok r =>
    rw [hread] at h
    obtain rfl := Except.ok.inj h
    rw [List.mem_singleton.mp hf]

/-- Rules of respaced barred lines that agree are written in the same way up to blanks, and in the
same way exactly when they have the same form and level texts. -/
lemma toText_of_barred (h : Text.Respaced Dialect.barred.separators line line')
    (hf : Barred.ruleOfLine v line = .ok f) (hg : Barred.ruleOfLine v line' = .ok g)
    (hfg : f.Agrees g) : Text.squeeze f.toText = Text.squeeze g.toText ∧
      (f.toText = g.toText ↔ SameSlices line line' f g .barred) := by
  have hf' := Barred.wellFormed_of_ruleOfLine hf
  have hg' := Barred.wellFormed_of_ruleOfLine hg
  obtain ⟨hform, hlevel⟩ := Barred.respaced_form_level h.squeeze_stripComment hf hg hfg
  exact ⟨Rule.squeeze_toText hf'.dialect hg'.dialect hfg hform hlevel,
    Rule.toText_eq_iff hf' hg' hfg hform⟩

/-- Comments and blanks at the ends of lines leave the slices as they are. -/
lemma sameSlices_of_ends (h : Text.Respaced [] line line')
    (hfs : Content.rulesOfLine dialect v line = .ok fs)
    (hgs : Content.rulesOfLine dialect v line' = .ok gs) (hf : f ∈ fs) (hg : g ∈ gs) :
    SameSlices line line' f g dialect := by
  cases dialect with
  | barred =>
    exact Barred.form_level_of_ends (Text.respaced_nil_iff.mp h) (ruleOfLine_of_mem hfs hf)
      (ruleOfLine_of_mem hgs hg)
  | clausal => exact h

/-- Of two respaced lines whose rules agree pairwise, the rules are written in the same way up to
blanks.  They are written in the same way exactly when the slices that they keep are the same, as
they are when only the ends and the comments differ; and that, or a chance that is certain, is what
it takes for the verdicts to be the same whatever the hash. -/
theorem verdicts_of_respaced (h : Text.Respaced dialect.separators line line')
    (hfs : Content.rulesOfLine dialect v line = .ok fs)
    (hgs : Content.rulesOfLine dialect v line' = .ok gs) (hagree : List.Forall₂ Rule.Agrees fs gs) :
    List.Forall₂ (fun f g => Text.squeeze f.toText = Text.squeeze g.toText ∧
      (f.toText = g.toText ↔ SameSlices line line' f g dialect) ∧
      (Text.Respaced [] line line' → SameSlices line line' f g dialect) ∧
      ((∀ hash a, verdict hash a f = verdict hash a g) ↔
        SameSlices line line' f g dialect ∨ f.chance = 0 ∨ 100 ≤ f.chance)) fs gs := by
  obtain ⟨hlength, hpairs⟩ := List.forall₂_iff_zip.mp hagree
  refine List.forall₂_iff_zip.mpr ⟨hlength, fun {f g} hpair => ?_⟩
  have hfg := hpairs hpair
  obtain ⟨hf, hg⟩ := List.of_mem_zip hpair
  have htext : Text.squeeze f.toText = Text.squeeze g.toText ∧
      (f.toText = g.toText ↔ SameSlices line line' f g dialect) := by
    cases dialect with
    | barred => exact toText_of_barred h (ruleOfLine_of_mem hfs hf) (ruleOfLine_of_mem hgs hg) hfg
    | clausal =>
      rw [Clausal.toText_of_mem hfs hf, Clausal.toText_of_mem hgs hg, Text.squeeze_trim,
        Text.squeeze_trim]
      exact ⟨h.squeeze_stripComment, Text.respaced_nil_iff.symm⟩
  refine ⟨htext.1, htext.2, fun hends => sameSlices_of_ends hends hfs hgs hf hg, ?_⟩
  rw [forall_verdict_eq_iff hfg.chance, htext.2]

/-- A blank before a comma and a comment behind the line.  The rules are written in the same way,
and every actor passes the gates of both or of neither. -/
theorem verdicts_of_respaced_comma : ∃ (line line' : Text) (f g : Rule),
    line = "Outfit = X|A,B||5/20|F||50".toList ∧
    line' = "Outfit = X|A ,B||5/20|F||50; day".toList ∧
    Text.Respaced Dialect.barred.separators line line' ∧
    Content.rulesOfLine .barred .standard line = .ok [f] ∧
    Content.rulesOfLine .barred .standard line' = .ok [g] ∧ f.Agrees g ∧
    f.chance = 50 ∧ f.toText = g.toText ∧ ∀ a, admits a f = admits a g := by
  let line := "Outfit = X|A,B||5/20|F||50".toList
  let line' := "Outfit = X|A ,B||5/20|F||50; day".toList
  let f : Rule := ⟨.barred, .outfit, "Outfit".toList, "X".toList, .ofText "A,B".toList, .everything,
    some "5/20".toList, [.between 5 20], TraitDemand.nothing.ask .female true, none, 50, line⟩
  let g : Rule := { f with source := line' }
  have hspace : Text.Edit Dialect.barred.separators line "Outfit = X|A ,B||5/20|F||50".toList :=
    .before "Outfit = X|A".toList "B||5/20|F||50".toList (by decide) (by decide)
  have hcomment : Text.Edit Dialect.barred.separators "Outfit = X|A ,B||5/20|F||50".toList line' :=
    .comment _ " day".toList (Or.inl rfl)
  have h : Text.Respaced Dialect.barred.separators line line' :=
    .trans _ _ _ (.rel _ _ hspace) (.rel _ _ hcomment)
  have hf : Content.rulesOfLine .barred .standard line = .ok [f] := by decide +kernel
  have hg : Content.rulesOfLine .barred .standard line' = .ok [g] := by decide +kernel
  have hfg : f.Agrees g :=
    ⟨rfl, rfl, Reference.rel_same_self _, rfl, rfl, rfl, rfl, rfl, rfl⟩
  have hverdicts := verdicts_of_respaced h hf hg (.cons hfg .nil)
  obtain ⟨-, htext, -, hverdict⟩ := (List.forall₂_cons.mp hverdicts).1
  refine ⟨line, line', f, g, rfl, rfl, h, hf, hg, hfg, rfl, htext.mpr ⟨rfl, rfl⟩, fun a => ?_⟩
  rw [admits_eq_verdict, admits_eq_verdict]
  exact hverdict.mpr (Or.inl ⟨rfl, rfl⟩) draw a

/-- Blanks around the slash of a level range move the gate: with the same rule one of the lines lets
an actor pass, and the other does not. -/
theorem not_verdicts_of_respaced_level : ¬ ∀ (dialect : Dialect) (v : Vocabulary)
    (line line' : Text) (fs gs : List Rule), Text.Respaced dialect.separators line line' →
      Content.rulesOfLine dialect v line = .ok fs → Content.rulesOfLine dialect v line' = .ok gs →
      List.Forall₂ Rule.Agrees fs gs →
      List.Forall₂ (fun f g => f.toText = g.toText ∧ ∀ a, admits a f = admits a g) fs gs := by
  intro hall
  let line := "Outfit = X|NONE|NONE|5/20|NONE|NONE|50".toList
  let line' := "Outfit = X|NONE|NONE|5 / 20|NONE|NONE|50".toList
  let f : Rule := ⟨.barred, .outfit, "Outfit".toList, "X".toList, .everything, .everything,
    some "5/20".toList, [.between 5 20], .nothing, none, 50, line⟩
  let g : Rule := { f with level := some "5 / 20".toList, source := line' }
  have hbefore : Text.Edit Dialect.barred.separators line
      "Outfit = X|NONE|NONE|5 /20|NONE|NONE|50".toList :=
    .before "Outfit = X|NONE|NONE|5".toList "20|NONE|NONE|50".toList (by decide) (by decide)
  have hbehind : Text.Edit Dialect.barred.separators
      "Outfit = X|NONE|NONE|5 /20|NONE|NONE|50".toList line' :=
    .behind "Outfit = X|NONE|NONE|5 ".toList "20|NONE|NONE|50".toList (by decide) (by decide)
  have h : Text.Respaced Dialect.barred.separators line line' :=
    .trans _ _ _ (.rel _ _ hbefore) (.rel _ _ hbehind)
  have hf : Content.rulesOfLine .barred .standard line = .ok [f] := by decide +kernel
  have hg : Content.rulesOfLine .barred .standard line' = .ok [g] := by decide +kernel
  have hfg : f.Agrees g :=
    ⟨rfl, rfl, Reference.rel_same_self _, rfl, rfl, rfl, rfl, rfl, rfl⟩
  have hsame := hall .barred .standard line line' [f] [g] h hf hg (.cons hfg .nil)
  have hadmits := (List.forall₂_cons.mp hsame).1.2 (.ofKey ⟨"Skyrim.esm".toList, 0x13⟩ [])
  have hpasses : admits (.ofKey ⟨"Skyrim.esm".toList, 0x13⟩ []) f = true := by decide +kernel
  have hfails : admits (.ofKey ⟨"Skyrim.esm".toList, 0x13⟩ []) g = false := by decide +kernel
  rw [hpasses, hfails] at hadmits
  cases hadmits

end Gate

end Wardrobe
