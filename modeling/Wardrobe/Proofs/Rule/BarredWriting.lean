import Mathlib
import Wardrobe.Proofs.Rule.BarredReading
import Wardrobe.Proofs.Rule.TraitText

/-!
# What is written for a barred rule

A barred rule is written as its word and a list of texts between bars: the form and the sections
that are left when those at the end that ask nothing are dropped (`toText_eq`).  The sections can
be told apart again, and each of them asks what was to be asked there (`asked_writtenOf`).  The
first bar ends the form, unless the form and the section behind it join (`splitForm_join_cons`).
-/

namespace Wardrobe

open Barred
open Text (Trimmed Unbroken)

namespace Rule

/-- The texts that are written for a list of sections. -/
def writtenOf (l : List (Option Text)) : List Text :=
  (dropNoneEnd l).map (·.getD noneWord)

/-- The texts of the sections as they are written. -/
def written (r : Rule) : List Text :=
  writtenOf r.sections

variable {r : Rule} {v : Vocabulary} {s : Option Text} {l : List (Option Text)} {t : Text}

/-! ## Dropping sections at the end -/

/-- A section is dropped when it asks nothing and everything behind it is dropped. -/
lemma dropNoneEnd_cons (s : Option Text) (l : List (Option Text)) :
    dropNoneEnd (s :: l) = if dropNoneEnd l = [] ∧ s = none then [] else s :: dropNoneEnd l := by
  have hreverse : ∀ m : List (Option Text), m.reverse = [] ↔ m = [] := fun m =>
    List.reverse_eq_nil_iff
  simp only [dropNoneEnd, List.reverse_cons, List.dropWhile_append, hreverse, List.isEmpty_iff]
  by_cases hnil : l.reverse.dropWhile (·.isNone) = []
  · cases s <;> simp [hnil]
  · simp [hnil]

/-- Everything is dropped when nothing is asked. -/
lemma dropNoneEnd_eq_nil_iff : dropNoneEnd l = [] ↔ ∀ s ∈ l, s = none := by
  induction l with
  | nil => simp [dropNoneEnd]
  | cons s l ih =>
    rw [dropNoneEnd_cons, List.forall_mem_cons, ← ih]
    split
    · next h => exact iff_of_true rfl ⟨h.2, h.1⟩
    · next h => exact iff_of_false (List.cons_ne_nil _ _) fun h' => h ⟨h'.2, h'.1⟩

/-- The sections that are left are among those that were there. -/
lemma dropNoneEnd_subset (l : List (Option Text)) : dropNoneEnd l ⊆ l := by
  intro s hs
  exact List.mem_reverse.mp ((List.dropWhile_sublist _).mem (List.mem_reverse.mp hs))

lemma length_dropNoneEnd_le (l : List (Option Text)) : (dropNoneEnd l).length ≤ l.length := by
  rw [dropNoneEnd, List.length_reverse]
  exact (List.length_dropWhile_le _ _).trans_eq (List.length_reverse)

lemma writtenOf_some_cons (t : Text) (l : List (Option Text)) :
    writtenOf (some t :: l) = t :: writtenOf l := by
  rw [writtenOf, dropNoneEnd_cons, if_neg fun h => Option.some_ne_none t h.2]
  rfl

/-- Nothing is written when nothing is asked. -/
lemma writtenOf_eq_nil_iff : writtenOf l = [] ↔ ∀ s ∈ l, s = none := by
  rw [writtenOf, List.map_eq_nil_iff, dropNoneEnd_eq_nil_iff]

/-- A section that asks nothing is written when something is written behind it. -/
lemma writtenOf_none_cons (l : List (Option Text)) :
    writtenOf (none :: l) = if writtenOf l = [] then [] else noneWord :: writtenOf l := by
  by_cases hnil : writtenOf l = []
  · rw [if_pos hnil, writtenOf_eq_nil_iff]
    exact List.forall_mem_cons.mpr ⟨rfl, writtenOf_eq_nil_iff.mp hnil⟩
  · rw [writtenOf, List.map_eq_nil_iff] at hnil
    rw [if_neg (by rwa [writtenOf, List.map_eq_nil_iff]), writtenOf, dropNoneEnd_cons,
      if_neg fun h => hnil h.1]
    rfl

/-- A section that is written asks what was to be asked there, and so does one that is dropped. -/
lemma asked_writtenOf (l : List (Option Text)) (i : Nat) :
    asked (writtenOf l) i = l[i]?.join.bind sectionText? := by
  induction l generalizing i with
  | nil => rfl
  | cons s l ih =>
    cases s with
    | some t =>
      rw [writtenOf_some_cons]
      cases i with
      | zero => rfl
      | succ i => exact ih i
    | none =>
      rw [writtenOf_none_cons]
      split
      · next hnil =>
        cases i with
        | zero => rfl
        | succ i =>
          have htail := ih i
          rw [hnil] at htail
          exact htail
      · cases i with
        | zero => rfl
        | succ i => exact ih i

/-! ## Joining at bars -/

/-- A text with others behind it, each after a bar. -/
lemma append_flatMap_bar (t : Text) (ts : List Text) :
    t ++ ts.flatMap ('|' :: ·) = Text.join ['|'] (t :: ts) := by
  induction ts generalizing t with
  | nil => simp [Text.join]
  | cons u rest ih => rw [List.flatMap_cons, Text.join_cons_cons, ← ih u]; simp

/-- A barred rule is written as its word, the form and the sections. -/
lemma toText_eq (h : r.dialect = .barred) :
    r.toText = r.keyword ++ ' ' :: '=' :: ' ' :: Text.join ['|'] (r.form :: r.written) := by
  rw [← append_flatMap_bar, toText, h]
  simp [written, writtenOf, List.flatMap_map]

/-! ## The sections of a rule -/

/-- A character that may stand anywhere in a section. -/
def isSectionChar (c : Char) : Bool :=
  !Text.isBlank c && c != '|' && c != ';' && c != '#'

/-- A text of such characters fills a section. -/
lemma isSection_of_all (hne : t ≠ []) (h : t.all isSectionChar = true) : IsSection t := by
  have hchar : ∀ c ∈ t, Text.isBlank c = false ∧ c ≠ '|' ∧ c ≠ ';' ∧ c ≠ '#' := by
    intro c hc
    have := List.all_eq_true.mp h c hc
    simpa [isSectionChar, and_assoc] using this
  exact ⟨⟨fun c hc => (hchar c (List.mem_of_mem_head? hc)).1,
    fun c hc => (hchar c (List.mem_of_mem_getLast? hc)).1⟩, hne, fun c hc => (hchar c hc).2⟩

/-- The word for an unconstrained section fills a section. -/
lemma isSection_noneWord : IsSection noneWord :=
  isSection_of_all (by decide) (by decide +kernel)

/-- A text that fills a section and has no `N` is an entry. -/
lemma isEntry_of_isSection (ht : IsSection t) (h : ∀ c ∈ t, (Text.asciiLowerChar c != 'n') = true) :
    IsEntry t := by
  refine ⟨ht, Bool.eq_false_iff.mpr fun hsame => ?_⟩
  have hn : 'n' ∈ Text.asciiLower t := by
    rw [beq_iff_eq.mp hsame]
    decide
  obtain ⟨c, hc, hlower⟩ := List.mem_map.mp hn
  exact bne_iff_ne.mp (h c hc) hlower

/-- A demand is written as an entry, if at all. -/
lemma isEntry_traits (d : TraitDemand) :
    ∀ t ∈ (if d = .nothing then none else some d.toText), IsEntry t := by
  intro t ht
  obtain ⟨hd, ht⟩ := Option.ite_none_left_eq_some.mp ht
  obtain rfl := Option.some.inj ht
  have hletters : ('/' :: TraitDemand.codeLetters).all
      (fun c => isSectionChar c && Text.asciiLowerChar c != 'n') = true := by decide +kernel
  have hchar : ∀ c ∈ d.toText, isSectionChar c = true ∧ (Text.asciiLowerChar c != 'n') = true :=
    fun c hc => Bool.and_eq_true_iff.mp
      (List.all_eq_true.mp hletters c (List.mem_cons.mpr (TraitDemand.mem_toText hc)))
  have hsection : IsSection d.toText := isSection_of_all (TraitDemand.toText_ne_nil hd)
    (List.all_eq_true.mpr fun c hc => (hchar c hc).1)
  exact isEntry_of_isSection hsection fun c hc => (hchar c hc).2

/-- A chance is written as an entry and read back. -/
lemma chance_spec {n : Nat} (hn : n ≤ Chance.always) :
    IsEntry (Text.ofNat n) ∧ Chance.ofText (Text.ofNat n) = .ok n := by
  have hlt : n < 101 := Nat.lt_succ_of_le hn
  have hread : ∀ n < 101, (Chance.ofText (Text.ofNat n)).toOption = some n := by decide +kernel
  have hchars : ∀ n < 101, Text.ofNat n ≠ [] ∧ (Text.ofNat n).all isSectionChar = true ∧
      (Text.ofNat n).all (fun c => Text.asciiLowerChar c != 'n') = true := by decide +kernel
  obtain ⟨hne, hsection, hn⟩ := hchars n hlt
  refine ⟨isEntry_of_isSection (isSection_of_all hne hsection) (List.all_eq_true.mp hn), ?_⟩
  have hsome := hread n hlt
  cases hchance : Chance.ofText (Text.ofNat n) with
  | error e => rw [hchance] at hsome; cases hsome
  | ok m => rw [hchance] at hsome; rw [Option.some.inj hsome]

/-- A chance is written as an entry, if at all. -/
lemma isEntry_chance {n : Nat} (hn : n ≤ Chance.always) :
    ∀ t ∈ (if n = Chance.always then none else some (Text.ofNat n)), IsEntry t := by
  intro t ht
  obtain ⟨-, ht⟩ := Option.ite_none_left_eq_some.mp ht
  exact Option.some.inj ht ▸ (chance_spec hn).1

/-- A legible selection that asks something fills a section. -/
lemma isSection_selection {s : Selection} (hs : s.Legible) (h : s.isEmpty = false) :
    IsSection s.toText :=
  ⟨hs.trimmed_toText, hs.toText_ne_nil h, hs.unbroken_toText⟩

/-- What the sections of a rule hold fills a section. -/
lemma isSection_of_mem_sections (hr : WellFormed v r) (ht : some t ∈ r.sections) : IsSection t := by
  simp only [sections, List.mem_cons, List.not_mem_nil, or_false] at ht
  rcases ht with ht | ht | ht | ht | ht | ht
  · obtain ⟨h, ht⟩ := Option.ite_none_left_eq_some.mp ht.symm
    obtain rfl := Option.some.inj ht
    exact isSection_selection hr.texts (Bool.not_eq_true _ ▸ h)
  · obtain ⟨h, ht⟩ := Option.ite_none_left_eq_some.mp ht.symm
    obtain rfl := Option.some.inj ht
    exact isSection_selection hr.forms (Bool.not_eq_true _ ▸ h)
  · exact (hr.level t ht.symm).toIsSection
  · exact (isEntry_traits r.traits t ht.symm).toIsSection
  · exact (hr.count t ht.symm).toIsSection
  · exact (isEntry_chance hr.chance t ht.symm).toIsSection

/-- Every text that is written behind the form fills a section. -/
lemma isSection_of_mem_written (hr : WellFormed v r) (ht : t ∈ r.written) : IsSection t := by
  obtain ⟨s, hs, rfl⟩ := List.mem_map.mp ht
  cases s with
  | none => exact isSection_noneWord
  | some t => exact isSection_of_mem_sections hr (dropNoneEnd_subset _ hs)

/-- What a section of a rule asks when it is written. -/
lemma asked_written (r : Rule) (i : Nat) :
    asked r.written i = r.sections[i]?.join.bind sectionText? :=
  asked_writtenOf r.sections i

lemma length_written_le (r : Rule) : r.written.length ≤ maxSections := by
  rw [written, writtenOf, List.length_map]
  exact length_dropNoneEnd_le r.sections

/-! ## Telling the form from the sections -/

/-- What follows the form: nothing, or the sections between bars. -/
def behind (ts : List Text) : Option Text :=
  if ts = [] then none else some (Text.join ['|'] ts)

/-- Sections without a bar can be told apart. -/
lemma splitOn_behind {ts : List Text} (h : ∀ t ∈ ts, '|' ∉ t) :
    (behind ts).elim [] (·.splitOn '|') = ts := by
  rw [behind]
  split
  · next hnil => exact hnil.symm
  · next hne => exact Text.splitOn_join h hne

/-- The first text ends at the first bar. -/
lemma join_bar_eq (t : Text) (ts : List Text) :
    Text.join ['|'] (t :: ts) = t ++ (behind ts).elim [] ('|' :: ·) := by
  cases ts with
  | nil => simp [behind, Text.join]
  | cons u rest => simp [behind, Text.join_cons_cons]

/-- Different sections make different texts behind the form. -/
lemma join_bar_inj {ts us : List Text} (hts : ∀ t ∈ ts, '|' ∉ t) (hus : ∀ t ∈ us, '|' ∉ t)
    (h : Text.join ['|'] (t :: ts) = Text.join ['|'] (t :: us)) : ts = us := by
  rw [join_bar_eq, join_bar_eq, List.append_cancel_left_eq] at h
  have hinj : ∀ s s' : Option Text,
      s.elim [] ('|' :: ·) = s'.elim [] ('|' :: ·) → s = s' := by
    intro s s' hs
    cases s with
    | none =>
      cases s' with
      | none => rfl
      | some rest => cases hs
    | some rest =>
      cases s' with
      | none => cases hs
      | some rest' => exact congrArg some (List.cons.inj hs).2
  rw [← splitOn_behind hts, hinj _ _ h, splitOn_behind hus]

/-- A text without a bar comes back whole in front of the next one. -/
lemma bar_append_elim {t : Text} (ht : '|' ∉ t) (rest : Option Text) :
    (t ++ rest.elim [] ('|' :: ·)).takeWhile (· != '|') = t ∧
      (Text.cut '|' (t ++ rest.elim [] ('|' :: ·))).map (·.2) = rest := by
  have hall : ∀ c ∈ t, (c != '|') = true := fun c hc => bne_iff_ne.mpr fun h => ht (h ▸ hc)
  rw [List.takeWhile_append_of_pos hall]
  cases rest with
  | none => simp [Text.cut_eq_none ht]
  | some rest => simp [Text.cut_append_cons ht]

/-- Only the two segments around the first bar decide whether it is inside the form. -/
lemma splitForm_bar {first second : Text} (hfirst : '|' ∉ first) (hsecond : '|' ∉ second)
    (rest : Option Text) : (Joins first second →
      splitForm (first ++ '|' :: (second ++ rest.elim [] ('|' :: ·))) =
        (first ++ '|' :: second, rest)) ∧
    (¬ Joins first second →
      splitForm (first ++ '|' :: (second ++ rest.elim [] ('|' :: ·))) =
        (first, some (second ++ rest.elim [] ('|' :: ·)))) := by
  obtain ⟨htake, hcut⟩ := bar_append_elim hsecond rest
  rw [splitForm, Text.cut_append_cons hfirst]
  simp only [htake, hcut]
  refine ⟨fun h => ?_, fun h => ?_⟩
  · rw [if_pos ((barJoins_iff hfirst).mpr h)]
  · rw [if_neg fun hjoins => h ((barJoins_iff hfirst).mp hjoins)]

/-- A form that is pinned to a plugin ends where it should, whatever is written behind it. -/
lemma splitForm_of_pinned (ht : IsForm t) (hpinned : '~' ∈ t ∨ '|' ∈ t) (rest : Option Text) :
    splitForm (t ++ rest.elim [] ('|' :: ·)) = (t, rest) := by
  by_cases hbar : '|' ∈ t
  · obtain ⟨first, second, rfl, hfirst, hsecond, hjoins⟩ := ht.bar hbar
    rw [List.append_assoc, List.cons_append]
    exact (splitForm_bar hfirst hsecond rest).1 hjoins
  · have htilde : '~' ∈ t := hpinned.resolve_right hbar
    cases rest with
    | none => simp [splitForm, Text.cut_eq_none hbar]
    | some rest =>
      have hno : ¬ barJoins (t ++ '|' :: rest) t (rest.takeWhile (· != '|')) = true :=
        fun hjoins => ((barJoins_iff hbar).mp hjoins).1 htilde
      rw [Option.elim_some, splitForm, Text.cut_append_cons hbar]
      exact if_neg hno

/-- The same for texts that are joined with bars. -/
lemma splitForm_join_cons {first second : Text} (hfirst : '|' ∉ first) (hsecond : '|' ∉ second)
    (ts : List Text) : (Joins first second →
      splitForm (Text.join ['|'] (first :: second :: ts)) = (first ++ '|' :: second, behind ts)) ∧
    (¬ Joins first second →
      splitForm (Text.join ['|'] (first :: second :: ts)) = (first, behind (second :: ts))) := by
  have hbehind : behind (second :: ts) = some (second ++ (behind ts).elim [] ('|' :: ·)) := by
    rw [← join_bar_eq]
    rfl
  rw [join_bar_eq, hbehind]
  exact splitForm_bar hfirst hsecond (behind ts)

/-- The form is made of the first segment between bars, or of the first two when they join. -/
lemma splitForm_segments {value : Text} {segments : List Text} (h : value.splitOn '|' = segments) :
    (∀ t, segments = [t] → (splitForm value).1 = t ∧ sectionsOf value = []) ∧
    ∀ first second rest, segments = first :: second :: rest →
      (Joins first second → (splitForm value).1 = first ++ '|' :: second ∧
        sectionsOf value = rest) ∧
      (¬ Joins first second → (splitForm value).1 = first ∧ sectionsOf value = second :: rest) := by
  subst h
  have hvalue : Text.join ['|'] (value.splitOn '|') = value := List.intercalate_splitOn '|'
  have hbars : ∀ t ∈ value.splitOn '|', '|' ∉ t := fun t ht => (Text.mem_of_mem_splitOn ht).2
  refine ⟨fun t ht => ?_, fun first second rest hsplit => ?_⟩
  · rw [ht] at hvalue hbars
    have hbar : '|' ∉ value := by
      rw [← hvalue]
      simpa [Text.join] using hbars
    have hwhole : splitForm value = (value, none) := by rw [splitForm, Text.cut_eq_none hbar]
    rw [sectionsOf, hwhole]
    exact ⟨by simpa [Text.join] using hvalue.symm, rfl⟩
  · rw [hsplit] at hvalue hbars
    obtain ⟨hfirst, hbehind⟩ := List.forall_mem_cons.mp hbars
    obtain ⟨hsecond, hrest⟩ := List.forall_mem_cons.mp hbehind
    obtain ⟨htwo, hone⟩ := splitForm_join_cons hfirst hsecond rest
    rw [hvalue] at htwo hone
    refine ⟨fun h => ?_, fun h => ?_⟩
    · rw [sectionsOf, htwo h]
      exact ⟨rfl, splitOn_behind hrest⟩
    · rw [sectionsOf, hone h]
      exact ⟨rfl, splitOn_behind hbehind⟩

end Rule

end Wardrobe
