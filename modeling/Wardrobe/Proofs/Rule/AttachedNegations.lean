import Mathlib
import Wardrobe.Proofs.Rule.SelectionText
import Wardrobe.Proofs.Text.Loosening

/-!
# Negations behind a comma

A negation in a comma segment of its own is attached to the alternative before it and asks what it
would ask among the parts of that alternative (`holds_attached_eq_joined`).  The two spellings read
into selections of different shape, which are `Alike`: they exclude the same, and their alternatives
have the same conditions in the same order.  Reading one more segment in front keeps selections
alike (`Alike.addSegment`), so nothing depends on what stands around the alternative.
-/

namespace Wardrobe.Selection

/-- Two selections that differ at most in which conditions of an alternative are attached. -/
structure Alike (s s' : Selection) : Prop where
  exclusions : s.exclusions = s'.exclusions
  conditions : s.groups.map Group.conditions = s'.groups.map Group.conditions

/-- The conditions that the parts of a segment are read as. -/
def partsOf (segment : Text) : List Condition :=
  (segment.splitOn '+').filterMap Condition.ofText?

/-- A text with a minus in front. -/
def minus (t : Text) : Text := '-' :: t

variable {s s' : Selection} {parts : List Condition} {g segment : Text} {xs : List Text}
  {sep : Char}

/-! ## Alike selections -/

namespace Alike

/-- Alike selections hold together, whatever is hit. -/
lemma holds_eq (h : s.Alike s') (hit : Condition → Bool) : s.holds hit = s'.holds hit := by
  have hany : ∀ gs : List Group, gs.any (groupHolds hit) =
      (gs.map Group.conditions).any fun cs => cs.all (Condition.holds hit) := by
    intro gs
    rw [List.any_map]
    rfl
  have hnil : s.groups.isEmpty = s'.groups.isEmpty := by
    rw [← List.isEmpty_map (f := Group.conditions), h.conditions, List.isEmpty_map]
  rw [holds, holds, h.exclusions, hnil, hany, hany, h.conditions]

/-- The same negation may be put in front of alike selections. -/
lemma exclude (h : s.Alike s') (c : Condition) : (s.exclude c).Alike (s'.exclude c) :=
  ⟨congrArg (c :: ·) h.exclusions, h.conditions⟩

/-- The same alternative may be put in front of alike selections. -/
lemma openGroup (h : s.Alike s') (parts : List Condition) :
    (s.openGroup parts).Alike (s'.openGroup parts) := by
  unfold Selection.openGroup
  split
  · exact h
  · refine ⟨rfl, ?_⟩
    rw [List.map_cons, List.map_cons, h.exclusions, h.conditions]

/-- The same segment may be read in front of alike selections. -/
lemma addSegment (h : s.Alike s') (segment : Text) :
    (s.addSegment segment).Alike (s'.addSegment segment) := by
  simp only [Selection.addSegment]
  split
  · split
    · exact h.exclude _
    · exact h
  · exact h.openGroup _

/-- The same segments may be read in front of alike selections. -/
lemma foldr_addSegment (h : s.Alike s') (segments : List Text) :
    (segments.foldr Selection.addSegment s).Alike (segments.foldr Selection.addSegment s') := by
  induction segments with
  | nil => exact h
  | cons segment rest ih => exact ih.addSegment segment

end Alike

/-! ## Reading the segments -/

/-- Blanks around a segment do not count. -/
lemma partsOf_trim (segment : Text) : partsOf (Text.trim segment) = partsOf segment := by
  have hpieces : ∀ t : Text, partsOf t =
      ((t.splitOn '+').map Text.trim).filterMap Condition.ofText? := by
    intro t
    rw [partsOf, List.filterMap_map]
    exact List.filterMap_congr fun piece _ => (Condition.ofText?_trim piece).symm
  rw [hpieces, hpieces, Text.map_trim_splitOn_trim (by decide)]

/-- A segment that is no negation opens an alternative with its parts. -/
lemma addSegment_of_not_isNegation (h : isNegation (Text.trim segment) = false) (s : Selection) :
    s.addSegment segment = s.openGroup (partsOf segment) := by
  rw [← partsOf_trim]
  simp only [Selection.addSegment, h, Bool.false_eq_true, if_false]
  rfl

/-- Segments with a minus in front and no plus are exclusions in front of what follows. -/
lemma foldr_addSegment_minus (hxs : ∀ x ∈ xs, '+' ∉ x) (s : Selection) :
    (xs.map minus).foldr addSegment s =
      ⟨s.groups, (xs.map minus).filterMap Condition.ofText? ++ s.exclusions⟩ := by
  induction xs with
  | nil => rfl
  | cons x rest ih =>
    obtain ⟨hx, hrest⟩ := List.forall_mem_cons.mp hxs
    have htrim : Text.trim (minus x) = '-' :: Text.trimEnd x :=
      Text.trim_append_cons (by decide) [] x
    have hnegation : isNegation (Text.trim (minus x)) = true := by
      rw [htrim, isNegation_iff]
      refine ⟨rfl, fun hmem => ?_⟩
      rcases List.mem_cons.mp hmem with h | h
      · exact absurd h (by decide)
      · exact hx (Text.mem_of_mem_trimEnd h)
    rw [List.map_cons, List.foldr_cons, ih hrest]
    simp only [Selection.addSegment, if_pos hnegation, Condition.ofText?_trim]
    cases hcondition : Condition.ofText? (minus x) with
    | none => rw [List.filterMap_cons_none hcondition]
    | some c => rw [List.filterMap_cons_some hcondition]; rfl

/-! ## The two spellings -/

/-- An alternative and negations, each in a comma segment of its own, between two texts. -/
def attachedText (a g : Text) (xs : List Text) (b : Text) : Text :=
  Text.join [','] (a :: g :: (xs.map minus ++ [b]))

/-- An alternative with the negations among its parts, between two texts. -/
def joinedText (a g : Text) (xs : List Text) (b : Text) : Text :=
  Text.join [','] [a, Text.join ['+'] (g :: xs.map minus), b]

/-- Another character than the minus stands in no negation when it stands in no text behind one. -/
lemma notMem_minus (hsep : sep ≠ '-') (hxs : ∀ x ∈ xs, sep ∉ x) : ∀ t ∈ xs.map minus, sep ∉ t := by
  intro t ht
  obtain ⟨x, hx, rfl⟩ := List.mem_map.mp ht
  exact List.not_mem_cons_of_ne_of_not_mem hsep (hxs x hx)

/-- Joining negations to an alternative adds them to its parts. -/
lemma partsOf_joined (hxs : ∀ x ∈ xs, '+' ∉ x) (g : Text) :
    partsOf (Text.join ['+'] (g :: xs.map minus)) =
      partsOf g ++ (xs.map minus).filterMap Condition.ofText? := by
  rw [partsOf, Text.splitOn_join_eq_flatMap '+' (List.cons_ne_nil g _), List.flatMap_cons,
    Text.flatMap_splitOn_eq_self (notMem_minus (by decide) hxs), List.filterMap_append, partsOf]

/-- A segment that opens an alternative still does so when negations are joined to it. -/
lemma isNegation_joined (hg : isNegation (Text.trim g) = false) (xs : List Text) :
    isNegation (Text.trim (Text.join ['+'] (g :: xs.map minus))) = false := by
  cases xs with
  | nil => simpa [Text.join] using hg
  | cons x rest =>
    rw [List.map_cons, Text.join_cons_cons, List.append_assoc, List.singleton_append,
      Text.trim_append_cons (by decide), Bool.eq_false_iff]
    intro hnegation
    exact (isNegation_iff.mp hnegation).2 (List.mem_append_right _ List.mem_cons_self)

/-- What stands behind some segments is read before them, and what stands in front after them. -/
lemma ofText_between {segments : List Text} (h : ∀ t ∈ segments, ',' ∉ t) (a b : Text) :
    ofText (Text.join [','] (a :: (segments ++ [b]))) =
      (a.splitOn ',').foldr addSegment (segments.foldr addSegment (ofText b)) := by
  rw [ofText, Text.splitOn_join_eq_flatMap ',' (List.cons_ne_nil a _), List.flatMap_cons,
    List.flatMap_append, Text.flatMap_splitOn_eq_self h, List.flatMap_singleton,
    List.foldr_append, List.foldr_append, ofText]

/-- Attached to an alternative with parts, negations ask what they ask among its parts. -/
lemma alike_openGroup (hparts : parts ≠ []) (negations : List Condition) (s : Selection) :
    (openGroup parts ⟨s.groups, negations ++ s.exclusions⟩).Alike
      (s.openGroup (parts ++ negations)) := by
  rw [openGroup, openGroup, if_neg hparts, if_neg (List.append_ne_nil_of_left_ne_nil hparts _)]
  refine ⟨rfl, ?_⟩
  rw [List.map_cons, List.map_cons, Group.conditions, Group.conditions, List.append_assoc]

/-- A selection holds for the same hits whether negations are attached to an alternative behind
commas or joined to it by plus signs, whatever stands around.  The alternative must have a part, and
it may begin with a minus only if it holds a plus. -/
theorem holds_attached_eq_joined (hit : Condition → Bool) (a b : Text) (hcomma : ',' ∉ g)
    (hparts : (g.splitOn '+').filterMap Condition.ofText? ≠ [])
    (hminus : (Text.trim g).head? = some '-' → '+' ∈ g) (hxs : ∀ x ∈ xs, ',' ∉ x ∧ '+' ∉ x) :
    (ofText (attachedText a g xs b)).holds hit = (ofText (joinedText a g xs b)).holds hit := by
  have hcommas : ∀ t ∈ g :: xs.map minus, ',' ∉ t :=
    List.forall_mem_cons.mpr ⟨hcomma, notMem_minus (by decide) fun x hx => (hxs x hx).1⟩
  have hplus : ∀ x ∈ xs, '+' ∉ x := fun x hx => (hxs x hx).2
  have hg : isNegation (Text.trim g) = false := by
    rw [Bool.eq_false_iff]
    intro hnegation
    obtain ⟨hhead, hnot⟩ := isNegation_iff.mp hnegation
    exact hnot ((Text.mem_trim_iff (by decide)).mpr (hminus hhead))
  have hattached : ofText (attachedText a g xs b) = (a.splitOn ',').foldr addSegment
      (openGroup (partsOf g) ⟨(ofText b).groups,
        (xs.map minus).filterMap Condition.ofText? ++ (ofText b).exclusions⟩) := by
    have hread := ofText_between hcommas a b
    rw [List.foldr_cons, foldr_addSegment_minus hplus, addSegment_of_not_isNegation hg] at hread
    exact hread
  have hjoined : ofText (joinedText a g xs b) = (a.splitOn ',').foldr addSegment
      ((ofText b).openGroup (partsOf g ++ (xs.map minus).filterMap Condition.ofText?)) := by
    have hnot : ',' ∉ Text.join ['+'] (g :: xs.map minus) := by
      intro hmem
      rcases Text.mem_join hmem with h | ⟨t, ht, hmem⟩
      · exact absurd h (by decide)
      · exact hcommas t ht hmem
    have hread := ofText_between (List.forall_mem_singleton.mpr hnot) a b
    rw [List.foldr_cons, List.foldr_nil, addSegment_of_not_isNegation (isNegation_joined hg xs),
      partsOf_joined hplus] at hread
    exact hread
  rw [hattached, hjoined]
  exact ((alike_openGroup hparts _ _).foldr_addSegment _).holds_eq hit

/-- Behind an exclusion and another alternative, and before a negation of the text that follows.
The selections have different shapes. -/
theorem holds_attached_eq_joined_between :
    attachedText "-Z,A".toList " C + *D".toList ["X ".toList, "*Y".toList] "-W,E".toList =
      "-Z,A, C + *D,-X ,-*Y,-W,E".toList ∧
    joinedText "-Z,A".toList " C + *D".toList ["X ".toList, "*Y".toList] "-W,E".toList =
      "-Z,A, C + *D+-X +-*Y,-W,E".toList ∧
    ofText "-Z,A, C + *D,-X ,-*Y,-W,E".toList ≠ ofText "-Z,A, C + *D+-X +-*Y,-W,E".toList ∧
    (ofText (attachedText "-Z,A".toList " C + *D".toList ["X ".toList, "*Y".toList]
      "-W,E".toList)).holds (fun c => c.value ∈ ["C".toList, "D".toList]) =
    (ofText (joinedText "-Z,A".toList " C + *D".toList ["X ".toList, "*Y".toList]
      "-W,E".toList)).holds (fun c => c.value ∈ ["C".toList, "D".toList]) := by
  refine ⟨by decide, by decide, by decide, ?_⟩
  exact holds_attached_eq_joined _ _ _ (by decide) (by decide) (by decide) (by decide)

end Wardrobe.Selection
