import Mathlib
import Wardrobe.Proofs.Rule.ConditionText
import Wardrobe.Rule.Selection

/-!
# Writing and reading selections

The selections that come from reading are the *legible* ones (`legible_ofText`).  Writing one of
them and reading the text does not always give it back.  An alternative whose only part is negated,
as in `A,-B+*`, is written as a segment that opens no alternative, so it ends up attached to the
alternative before it, or among the exclusions.  `regrouped` is the selection that results
(`ofText_toText`): it has the same conditions in the same order, is written in the same way, and is
the selection that was written exactly when there is no such *lone* alternative.
-/

namespace Wardrobe

/-- A legible condition without a separator in its value, so that it stays in one piece. -/
structure Condition.Plain (c : Condition) : Prop extends Condition.Legible c where
  unbroken : Text.Unbroken c.value
  no_comma : ',' ∉ c.value
  no_plus : '+' ∉ c.value

/-- An alternative whose only part is negated. -/
def Group.IsLone (g : Group) : Prop :=
  ∃ c, g.parts = [c] ∧ c.negated = true

instance (g : Group) : Decidable g.IsLone :=
  match hparts : g.parts with
  | [c] =>
    if hneg : c.negated = true then .isTrue ⟨c, hparts, hneg⟩
    else .isFalse fun ⟨d, hd, hdneg⟩ => by
      rw [hparts, List.singleton_inj] at hd
      exact hneg (hd ▸ hdneg)
  | [] => .isFalse fun ⟨_, hd, _⟩ => List.cons_ne_nil _ _ (hd.symm.trans hparts)
  | _ :: _ :: _ => .isFalse fun ⟨_, hd, _⟩ => by
      rw [hparts] at hd
      exact List.cons_ne_nil _ _ (List.cons.inj hd).2

namespace Selection

open Condition (Plain)
open Text (Trimmed Unbroken)

/-- The conditions of a selection are plain, and what was written as a segment of its own is
negated. -/
structure Legible (s : Selection) : Prop where
  exclusions : ∀ c ∈ s.exclusions, c.Plain ∧ c.negated = true
  parts_ne_nil : ∀ g ∈ s.groups, g.parts ≠ []
  parts : ∀ g ∈ s.groups, ∀ c ∈ g.parts, c.Plain
  attached : ∀ g ∈ s.groups, ∀ c ∈ g.attached, c.Plain ∧ c.negated = true

/-- What becomes of an alternative in front of a selection when both are written and read. -/
def rejoin (g : Group) (s : Selection) : Selection :=
  if g.IsLone then ⟨s.groups, g.parts ++ g.attached ++ s.exclusions⟩
  else ⟨⟨g.parts, g.attached ++ s.exclusions⟩ :: s.groups, []⟩

/-- What becomes of a selection when it is written and read. -/
def regrouped (s : Selection) : Selection :=
  let rest := s.groups.foldr rejoin everything
  ⟨rest.groups, s.exclusions ++ rest.exclusions⟩

/-- The comma segments of a selection. -/
def segments (s : Selection) : List Text :=
  s.exclusions.map Condition.toText ++ s.groups.flatMap groupSegments

variable {s : Selection} {g : Group} {c : Condition} {t : Text}

lemma toText_eq_join (s : Selection) : s.toText = Text.join [','] s.segments := rfl

/-! ## What is written for a plain condition -/

/-- What is written for a plain condition can stand in a section. -/
lemma unbroken_toText_condition (hc : c.Plain) : Unbroken c.toText := by
  intro x hx
  rcases Condition.mem_toText hx with rfl | rfl | hx
  · decide
  · decide
  · exact hc.unbroken x hx

/-- What is written for a plain condition holds no comma. -/
lemma comma_notMem_toText (hc : c.Plain) : ',' ∉ c.toText := by
  intro hx
  rcases Condition.mem_toText hx with h | h | h
  · exact absurd h (by decide)
  · exact absurd h (by decide)
  · exact hc.no_comma h

/-- What is written for a plain condition holds no plus. -/
lemma plus_notMem_toText (hc : c.Plain) : '+' ∉ c.toText := by
  intro hx
  rcases Condition.mem_toText hx with h | h | h
  · exact absurd h (by decide)
  · exact absurd h (by decide)
  · exact hc.no_plus h

/-- What is read from a token without separators is plain. -/
lemma plain_of_ofText? (ht : Unbroken t) (hcomma : ',' ∉ t) (hplus : '+' ∉ t)
    (h : Condition.ofText? t = some c) : c.Plain :=
  { Condition.legible_of_ofText? h with
    unbroken := ht.of_subset fun _ hx => Condition.mem_of_mem_value h hx
    no_comma := fun hx => hcomma (Condition.mem_of_mem_value h hx)
    no_plus := fun hx => hplus (Condition.mem_of_mem_value h hx) }

/-! ## Reading gives legible selections -/

lemma legible_everything : everything.Legible :=
  ⟨fun _ h => absurd h List.not_mem_nil, fun _ h => absurd h List.not_mem_nil,
    fun _ h => absurd h List.not_mem_nil, fun _ h => absurd h List.not_mem_nil⟩

/-- A plain negation may become an exclusion. -/
lemma Legible.exclude (hs : s.Legible) (hc : c.Plain) (hneg : c.negated = true) :
    (s.exclude c).Legible :=
  { hs with exclusions := List.forall_mem_cons.mpr ⟨⟨hc, hneg⟩, hs.exclusions⟩ }

/-- Plain conditions may open an alternative. -/
lemma Legible.openGroup (hs : s.Legible) {parts : List Condition} (hparts : ∀ c ∈ parts, c.Plain) :
    (s.openGroup parts).Legible := by
  unfold Selection.openGroup
  split
  · exact hs
  · next hne =>
    exact
      { exclusions := fun _ h => absurd h List.not_mem_nil
        parts_ne_nil := List.forall_mem_cons.mpr ⟨hne, hs.parts_ne_nil⟩
        parts := List.forall_mem_cons.mpr ⟨hparts, hs.parts⟩
        attached := List.forall_mem_cons.mpr ⟨hs.exclusions, hs.attached⟩ }

/-- A segment is a negation when it begins with a minus and holds no plus. -/
lemma isNegation_iff : isNegation t = true ↔ t.head? = some '-' ∧ '+' ∉ t := by
  simp [isNegation]

/-- Reading one more segment keeps a selection legible. -/
lemma Legible.addSegment (hs : s.Legible) (ht : Unbroken t) (hcomma : ',' ∉ t) :
    (s.addSegment t).Legible := by
  have hcomma' : ',' ∉ Text.trim t := fun h => hcomma (Text.mem_of_mem_trim h)
  simp only [Selection.addSegment]
  split
  · next hneg =>
    obtain ⟨hminus, hplus⟩ := isNegation_iff.mp hneg
    split
    · next c hc =>
      refine hs.exclude (plain_of_ofText? ht.trim hcomma' hplus hc) ?_
      rw [Condition.negated_iff_of_ofText? hc, Text.trim_trim]
      exact hminus
    · exact hs
  · refine hs.openGroup fun c hc => ?_
    obtain ⟨token, htoken, hc⟩ := List.mem_filterMap.mp hc
    obtain ⟨hsub, hplus⟩ := Text.mem_of_mem_splitOn htoken
    exact plain_of_ofText? (ht.trim.of_subset hsub) (fun h => hcomma' (hsub _ h)) hplus hc

/-- Every selection that is read is legible. -/
lemma legible_ofText (ht : Unbroken t) : (ofText t).Legible := by
  have hall : ∀ ts : List Text, (∀ p ∈ ts, Unbroken p ∧ ',' ∉ p) →
      (ts.foldr addSegment everything).Legible := by
    intro ts
    induction ts with
    | nil => exact fun _ => legible_everything
    | cons p rest ih =>
      intro h
      obtain ⟨hp, hrest⟩ := List.forall_mem_cons.mp h
      exact (ih hrest).addSegment hp.1 hp.2
  refine hall _ fun p hp => ?_
  obtain ⟨hsub, hcomma⟩ := Text.mem_of_mem_splitOn hp
  exact ⟨ht.of_subset hsub, hcomma⟩

/-! ## What is written for a legible selection -/

/-- A text that a comma segment can be. -/
structure IsSegment (t : Text) : Prop where
  trimmed : Trimmed t
  ne_nil : t ≠ []
  unbroken : Unbroken t
  no_comma : ',' ∉ t

/-- A plain condition is written as a segment. -/
lemma isSegment_condition (hc : c.Plain) : IsSegment c.toText :=
  ⟨hc.trimmed_toText, hc.toText_ne_nil, unbroken_toText_condition hc, comma_notMem_toText hc⟩

/-- The parts of an alternative are written as a segment. -/
lemma isSegment_parts {parts : List Condition} (hparts : ∀ c ∈ parts, c.Plain) (hne : parts ≠ []) :
    IsSegment (Text.join ['+'] (parts.map Condition.toText)) := by
  have htexts : ∀ t ∈ parts.map Condition.toText, IsSegment t := by
    intro t ht
    obtain ⟨c, hc, rfl⟩ := List.mem_map.mp ht
    exact isSegment_condition (hparts c hc)
  have hchar : ∀ x ∈ Text.join ['+'] (parts.map Condition.toText),
      x = '+' ∨ ∃ t ∈ parts.map Condition.toText, x ∈ t := fun x hx => Text.mem_join hx
  refine ⟨Text.trimmed_join _ fun t ht => ⟨(htexts t ht).trimmed, (htexts t ht).ne_nil⟩,
    Text.join_ne_nil _ (fun t ht => (htexts t ht).ne_nil) (by simpa using hne), ?_, ?_⟩
  · intro x hx
    rcases hchar x hx with rfl | ⟨t, ht, hx⟩
    · decide
    · exact (htexts t ht).unbroken x hx
  · intro hx
    rcases hchar _ hx with h | ⟨t, ht, hx⟩
    · exact absurd h (by decide)
    · exact (htexts t ht).no_comma hx

/-- The segments of a legible selection can be told apart. -/
lemma Legible.isSegment (hs : s.Legible) : ∀ t ∈ s.segments, IsSegment t := by
  have hconditions : ∀ cs : List Condition, (∀ c ∈ cs, c.Plain ∧ c.negated = true) →
      ∀ t ∈ cs.map Condition.toText, IsSegment t := by
    intro cs hcs t ht
    obtain ⟨c, hc, rfl⟩ := List.mem_map.mp ht
    exact isSegment_condition (hcs c hc).1
  intro t ht
  rcases List.mem_append.mp ht with ht | ht
  · exact hconditions _ hs.exclusions t ht
  · obtain ⟨g, hg, ht⟩ := List.mem_flatMap.mp ht
    rcases List.mem_cons.mp ht with rfl | ht
    · exact isSegment_parts (hs.parts g hg) (hs.parts_ne_nil g hg)
    · exact hconditions _ (hs.attached g hg) t ht

/-- Only the selection without conditions has no segments. -/
lemma segments_eq_nil_iff : s.segments = [] ↔ s.isEmpty = true := by
  have hgroups : s.groups.flatMap groupSegments = [] ↔ s.groups = [] := by
    rw [List.flatMap_eq_nil_iff]
    refine ⟨fun h => List.eq_nil_iff_forall_not_mem.mpr fun g hg => ?_, fun h => by simp [h]⟩
    exact List.cons_ne_nil _ _ (h g hg)
  rw [segments, List.append_eq_nil_iff, List.map_eq_nil_iff, hgroups, isEmpty, Bool.and_eq_true,
    List.isEmpty_iff, List.isEmpty_iff, and_comm]

/-- What is written for a legible selection is trimmed. -/
lemma Legible.trimmed_toText (hs : s.Legible) : Trimmed s.toText :=
  Text.trimmed_join _ fun t ht => ⟨(hs.isSegment t ht).trimmed, (hs.isSegment t ht).ne_nil⟩

/-- Only the selection without conditions is written as nothing. -/
lemma Legible.toText_ne_nil (hs : s.Legible) (h : s.isEmpty = false) : s.toText ≠ [] := by
  refine Text.join_ne_nil _ (fun t ht => (hs.isSegment t ht).ne_nil) fun hnil => ?_
  rw [segments_eq_nil_iff.mp hnil] at h
  exact Bool.false_ne_true h.symm

/-- What is written for a legible selection can stand in a section. -/
lemma Legible.unbroken_toText (hs : s.Legible) : Unbroken s.toText := by
  intro x hx
  rcases Text.mem_join hx with rfl | ⟨t, ht, hx⟩
  · decide
  · exact (hs.isSegment t ht).unbroken x hx

/-! ## Reading what is written -/

/-- A negation is read back as an exclusion. -/
lemma addSegment_toText (hc : c.Plain) (hneg : c.negated = true) (s : Selection) :
    addSegment c.toText s = s.exclude c := by
  have htrim : Text.trim c.toText = c.toText := Text.trim_eq_self hc.trimmed_toText
  have hnegation : isNegation c.toText = true :=
    isNegation_iff.mpr ⟨hc.head?_toText.mpr hneg, plus_notMem_toText hc⟩
  simp only [addSegment, htrim, if_pos hnegation, hc.ofText?_toText]

/-- Negations are read back as exclusions. -/
lemma foldr_addSegment_negations {cs : List Condition} (h : ∀ c ∈ cs, c.Plain ∧ c.negated = true)
    (s : Selection) :
    (cs.map Condition.toText).foldr addSegment s = ⟨s.groups, cs ++ s.exclusions⟩ := by
  induction cs with
  | nil => rfl
  | cons c rest ih =>
    obtain ⟨⟨hc, hneg⟩, hrest⟩ := List.forall_mem_cons.mp h
    rw [List.map_cons, List.foldr_cons, ih hrest, addSegment_toText hc hneg]
    rfl

/-- The parts of an alternative open it again, unless there is one of them and it is negated. -/
lemma addSegment_parts {parts : List Condition} (hparts : ∀ c ∈ parts, c.Plain) (hne : parts ≠ [])
    (hlone : ∀ c, parts = [c] → c.negated = false) (s : Selection) :
    addSegment (Text.join ['+'] (parts.map Condition.toText)) s =
      ⟨⟨parts, s.exclusions⟩ :: s.groups, []⟩ := by
  have htrim := Text.trim_eq_self (isSegment_parts hparts hne).trimmed
  have hsplit : (Text.join ['+'] (parts.map Condition.toText)).splitOn '+' =
      parts.map Condition.toText := by
    refine Text.splitOn_join (fun t ht => ?_) (by simpa using hne)
    obtain ⟨c, hc, rfl⟩ := List.mem_map.mp ht
    exact plus_notMem_toText (hparts c hc)
  have hread : (parts.map Condition.toText).filterMap Condition.ofText? = parts := by
    have hpart : ∀ c ∈ parts, (Condition.ofText? ∘ Condition.toText) c = some c :=
      fun c hc => (hparts c hc).ofText?_toText
    rw [List.filterMap_map, List.filterMap_congr hpart, List.filterMap_some]
  have hnegation : ¬ isNegation (Text.join ['+'] (parts.map Condition.toText)) = true := by
    rw [isNegation_iff]
    rintro ⟨hminus, hplus⟩
    obtain ⟨c, rest, rfl⟩ := List.exists_cons_of_ne_nil hne
    cases rest with
    | nil =>
      have htext : Text.join ['+'] ([c].map Condition.toText) = c.toText := by simp [Text.join]
      rw [htext, (hparts c List.mem_cons_self).head?_toText, hlone c rfl] at hminus
      exact Bool.false_ne_true hminus
    | cons d rest =>
      refine hplus ?_
      rw [List.map_cons, List.map_cons, Text.join_cons_cons]
      simp
  simp only [addSegment, htrim, if_neg hnegation, hsplit, hread, openGroup, if_neg hne]

/-- An alternative is read back as `rejoin` puts it. -/
lemma foldr_addSegment_groupSegments (hne : g.parts ≠ []) (hparts : ∀ c ∈ g.parts, c.Plain)
    (hattached : ∀ c ∈ g.attached, c.Plain ∧ c.negated = true) (s : Selection) :
    (groupSegments g).foldr addSegment s = rejoin g s := by
  rw [groupSegments, List.foldr_cons, foldr_addSegment_negations hattached, rejoin]
  split
  · next hlone =>
    obtain ⟨c, hc, hneg⟩ := hlone
    have htext : Text.join ['+'] (g.parts.map Condition.toText) = c.toText := by
      rw [hc]
      simp [Text.join]
    rw [htext, addSegment_toText (hparts c (by simp [hc])) hneg, hc]
    rfl
  · next hlone =>
    refine addSegment_parts hparts hne (fun c hc => ?_) _
    exact Bool.eq_false_iff.mpr fun hneg => hlone ⟨c, hc, hneg⟩

/-- Reading what is written for a legible selection regroups it. -/
theorem ofText_toText (hs : s.Legible) : ofText s.toText = s.regrouped := by
  have hgroups : (s.groups.flatMap groupSegments).foldr addSegment everything =
      s.groups.foldr rejoin everything := by
    rw [List.foldr_flatMap]
    refine List.foldr_ext _ _ _ fun g hg rest => ?_
    exact foldr_addSegment_groupSegments (hs.parts_ne_nil g hg) (hs.parts g hg)
      (hs.attached g hg) rest
  have hread : s.segments.foldr addSegment everything = s.regrouped := by
    rw [segments, List.foldr_append, hgroups, foldr_addSegment_negations hs.exclusions]
    rfl
  by_cases hnil : s.segments = []
  · rw [toText_eq_join, ← hread, hnil]
    rfl
  · rw [ofText, toText_eq_join,
      Text.splitOn_join (fun t ht => (hs.isSegment t ht).no_comma) hnil, hread]

/-! ## Regrouping -/

/-- Regrouping leaves the segments of an alternative in their place. -/
lemma segments_rejoin (g : Group) (s : Selection) :
    (rejoin g s).segments = groupSegments g ++ s.segments := by
  rw [rejoin]
  split
  · next hlone =>
    obtain ⟨c, hc, -⟩ := hlone
    simp [segments, groupSegments, hc, Text.join]
  · simp [segments, groupSegments]

/-- Regrouping changes no segment. -/
lemma segments_regrouped (s : Selection) : s.regrouped.segments = s.segments := by
  have hgroups : ∀ gs : List Group,
      (gs.foldr rejoin everything).segments = gs.flatMap groupSegments := by
    intro gs
    induction gs with
    | nil => rfl
    | cons g rest ih => rw [List.foldr_cons, segments_rejoin, ih, List.flatMap_cons]
  have hrest := hgroups s.groups
  rw [segments] at hrest
  rw [regrouped, segments, List.map_append, List.append_assoc, hrest, segments]

/-- Regrouping changes nothing of what is written. -/
lemma toText_regrouped (s : Selection) : s.regrouped.toText = s.toText := by
  rw [toText_eq_join, toText_eq_join, segments_regrouped]

/-- Regrouping leaves a selection without conditions only when it had none. -/
lemma isEmpty_regrouped (s : Selection) : s.regrouped.isEmpty = s.isEmpty := by
  rw [Bool.eq_iff_iff, ← segments_eq_nil_iff, ← segments_eq_nil_iff, segments_regrouped]

/-- Without a lone alternative nothing is regrouped. -/
lemma foldr_rejoin_eq (gs : List Group) (h : ∀ g ∈ gs, ¬ g.IsLone) :
    gs.foldr rejoin everything = ⟨gs, []⟩ := by
  induction gs with
  | nil => rfl
  | cons g rest ih =>
    obtain ⟨hg, hrest⟩ := List.forall_mem_cons.mp h
    rw [List.foldr_cons, ih hrest, rejoin, if_neg hg, List.append_nil]

/-- A lone alternative is lost by regrouping. -/
lemma length_foldr_rejoin (gs : List Group) :
    (gs.foldr rejoin everything).groups.length = gs.countP fun g => !decide g.IsLone := by
  induction gs with
  | nil => rfl
  | cons g rest ih =>
    rw [List.foldr_cons, rejoin]
    by_cases hg : g.IsLone
    · rw [if_pos hg, List.countP_cons_of_neg (by simpa using hg)]
      exact ih
    · rw [if_neg hg, List.countP_cons_of_pos (by simpa using hg), List.length_cons, ih]

/-- A selection is kept by regrouping exactly when no alternative is lone. -/
theorem regrouped_eq_self_iff : s.regrouped = s ↔ ∀ g ∈ s.groups, ¬ g.IsLone := by
  constructor
  · intro h g hg
    have hlength := length_foldr_rejoin s.groups
    have hgroups : s.regrouped.groups = s.groups := by rw [h]
    have hcount : s.groups.length = s.groups.countP fun g => !decide g.IsLone := by
      rw [← hlength]
      exact congrArg List.length hgroups.symm
    rw [eq_comm, List.countP_eq_length] at hcount
    simpa using hcount g hg
  · intro h
    rw [regrouped, foldr_rejoin_eq s.groups h, List.append_nil]

end Selection

end Wardrobe
