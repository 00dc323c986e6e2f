import Mathlib
import Wardrobe.Proofs.Text.Pieces
import Wardrobe.Form.Key

/-!
# Plugin names before a bar

A plugin name that leads a text ends at the first bar right behind an ending.  When the text before
the first bar of all has an ending, that is the bar (`atBar?_iff`); whatever follows makes no
difference.
-/

namespace Wardrobe.Plugin

variable {t first stem ending rest after : Text}

/-- A text that ends like a plugin name and has something before the ending. -/
def HasEnding (t : Text) : Prop :=
  ∃ stem ending, t = stem ++ ending ∧ stem ≠ [] ∧ Text.asciiLower ending ∈ extensions

/-! ## Endings -/

/-- Folding the case changes the number of characters in no text. -/
lemma length_asciiLower (t : Text) : (Text.asciiLower t).length = t.length :=
  List.length_map _

/-- An ending has four characters. -/
lemma length_of_ending (h : Text.asciiLower ending ∈ extensions) : ending.length = 4 := by
  have hlengths : ∀ ext ∈ extensions, ext.length = 4 := by decide
  rw [← length_asciiLower]
  exact hlengths _ h

/-- A bar is in no ending. -/
lemma bar_notMem_ending (h : Text.asciiLower ending ∈ extensions) : '|' ∉ ending := by
  have hbars : ∀ ext ∈ extensions, '|' ∉ ext := by decide
  intro hmem
  exact hbars _ h (List.mem_map.mpr ⟨'|', hmem, by decide⟩)

/-- The first bar can be in one place only. -/
lemma append_bar_inj {a b : Text} (ha : '|' ∉ a) (hb : '|' ∉ b)
    (h : a ++ '|' :: after = b ++ '|' :: rest) : a = b ∧ after = rest := by
  have hcut := Text.cut_append_cons ha after
  rw [h, Text.cut_append_cons hb, Option.some.injEq, Prod.mk.injEq] at hcut
  exact ⟨hcut.1.symm, hcut.2.symm⟩

/-- An ending at a bar is taken off together with the bar. -/
lemma endingAtBar?_eq_some_iff : endingAtBar? t = some (ending, rest) ↔
    t = ending ++ '|' :: rest ∧ Text.asciiLower ending ∈ extensions := by
  constructor
  · intro h
    unfold endingAtBar? at h
    split at h
    · next d e s x rest' =>
      split at h
      · next hext =>
        rw [Option.some.injEq, Prod.mk.injEq] at h
        obtain ⟨rfl, rfl⟩ := h
        exact ⟨rfl, List.contains_iff_mem.mp hext⟩
      · cases h
    · cases h
  · rintro ⟨rfl, hext⟩
    obtain ⟨d, e, s, x, rfl⟩ : ∃ d e s x, ending = [d, e, s, x] :=
      List.length_eq_four.mp (length_of_ending hext)
    simp only [endingAtBar?, List.cons_append, List.nil_append,
      if_pos (List.contains_iff_mem.mpr hext)]

/-! ## The first bar -/

/-- A plugin name at a bar has an ending. -/
lemma hasEnding_of_atBar? (h : atBar? t = some (first, rest)) : HasEnding first := by
  induction t generalizing first with
  | nil => cases h
  | cons c t ih =>
    unfold atBar? at h
    split at h
    · next ending rest' hending =>
      rw [Option.some.injEq, Prod.mk.injEq] at h
      obtain ⟨rfl, rfl⟩ := h
      exact ⟨[c], ending, rfl, List.cons_ne_nil c [], (endingAtBar?_eq_some_iff.mp hending).2⟩
    · obtain ⟨⟨name, rest'⟩, hname, h⟩ := Option.map_eq_some_iff.mp h
      rw [Prod.mk.injEq] at h
      obtain ⟨rfl, rfl⟩ := h
      obtain ⟨stem, ending, rfl, -, hext⟩ := ih hname
      exact ⟨c :: stem, ending, rfl, List.cons_ne_nil c stem, hext⟩

/-- A text with an ending before the first bar is taken off there. -/
lemma atBar?_of_ending (hstem : stem ≠ []) (hbar : '|' ∉ stem)
    (hext : Text.asciiLower ending ∈ extensions) (after : Text) :
    atBar? (stem ++ ending ++ '|' :: after) = some (stem ++ ending, after) := by
  induction stem with
  | nil => exact absurd rfl hstem
  | cons c stem ih =>
    have hbar' : '|' ∉ stem := fun h => hbar (List.mem_cons_of_mem c h)
    cases stem with
    | nil =>
      have hending : endingAtBar? (ending ++ '|' :: after) = some (ending, after) :=
        endingAtBar?_eq_some_iff.mpr ⟨rfl, hext⟩
      simp only [List.cons_append, List.nil_append, atBar?, hending]
    | cons d stem =>
      have hnone : endingAtBar? (d :: stem ++ ending ++ '|' :: after) = none := by
        rw [Option.eq_none_iff_forall_ne_some]
        rintro ⟨ending', rest'⟩ hending
        obtain ⟨heq, hext'⟩ := endingAtBar?_eq_some_iff.mp hending
        have hmem : '|' ∉ d :: stem ++ ending := by
          rw [List.mem_append]
          exact not_or.mpr ⟨hbar', bar_notMem_ending hext⟩
        obtain ⟨heq, -⟩ := append_bar_inj hmem (bar_notMem_ending hext') heq
        have hlength := congrArg List.length heq
        rw [List.length_append, length_of_ending hext, length_of_ending hext'] at hlength
        simp at hlength
      have hrest := ih (List.cons_ne_nil d stem) hbar'
      rw [List.cons_append, List.cons_append, atBar?, hnone, hrest]
      rfl

/-- The name that leads a text is what stands before its first bar exactly when that has an ending.
-/
lemma atBar?_iff (hbar : '|' ∉ first) (after : Text) :
    (atBar? (first ++ '|' :: after)).map (·.1) = some first ↔ HasEnding first := by
  constructor
  · intro h
    obtain ⟨⟨name, rest⟩, hname, rfl⟩ := Option.map_eq_some_iff.mp h
    exact hasEnding_of_atBar? hname
  · rintro ⟨stem, ending, rfl, hstem, hext⟩
    have hbar' : '|' ∉ stem := fun h => hbar (List.mem_append_left _ h)
    rw [atBar?_of_ending hstem hbar' hext]
    rfl

/-! ## File names -/

/-- A file name has an ending and no delimiter. -/
lemma isFileName_iff : isFileName t = true ↔
    '|' ∉ Text.trim t ∧ '~' ∉ Text.trim t ∧ HasEnding (Text.trim t) := by
  have hending : ∀ name : Text, (extensions.any fun ext =>
      ext.length < name.length && ext.isSuffixOf (Text.asciiLower name)) = true ↔
        HasEnding name := by
    intro name
    rw [List.any_eq_true]
    constructor
    · rintro ⟨ext, hext, h⟩
      rw [Bool.and_eq_true, decide_eq_true_eq, List.isSuffixOf_iff_suffix] at h
      obtain ⟨hlength, front, hfront⟩ := h
      obtain ⟨stem, ending, rfl, rfl, rfl⟩ := List.map_eq_append_iff.mp hfront.symm
      refine ⟨stem, ending, rfl, ?_, hext⟩
      rintro rfl
      simp at hlength
    · rintro ⟨stem, ending, rfl, hstem, hext⟩
      refine ⟨Text.asciiLower ending, hext, ?_⟩
      rw [Bool.and_eq_true, decide_eq_true_eq, List.isSuffixOf_iff_suffix, length_asciiLower,
        List.length_append]
      refine ⟨Nat.lt_add_of_pos_left (List.length_pos_iff.mpr hstem), Text.asciiLower stem, ?_⟩
      exact List.map_append.symm
  simp only [isFileName, Bool.and_eq_true, Bool.not_eq_true', List.contains_eq_mem,
    decide_eq_false_iff_not, hending, and_assoc]

@[simp] lemma isFileName_trim (t : Text) : isFileName (Text.trim t) = isFileName t := by
  rw [isFileName, isFileName, Text.trim_trim]

/-- Only a text with an ending is a file name, and a trimmed one without delimiters is. -/
lemma hasEnding_iff (ht : Text.Trimmed t) (hbar : '|' ∉ t) (htilde : '~' ∉ t) :
    HasEnding t ↔ isFileName t = true := by
  rw [isFileName_iff, Text.trim_eq_self ht]
  exact ⟨fun h => ⟨hbar, htilde, h⟩, fun h => h.2.2⟩

end Wardrobe.Plugin

namespace Wardrobe.FormId

/-- Blanks around an id are passed over. -/
@[simp] lemma ofText?_trim (t : Text) : ofText? (Text.trim t) = ofText? t := by
  rw [ofText?, ofText?, Text.trim_trim]

end Wardrobe.FormId
