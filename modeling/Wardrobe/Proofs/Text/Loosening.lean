import Mathlib
import Wardrobe.Proofs.Text.Respacing

/-!
# Blanks beside a separator

A text is `Loosened` when blanks are added directly before or behind some of its separators.  The
pieces between separators are then the same but for the blanks around them (`map_trim_splitOn`), and
the first of them can only have got blanks at its end (`takeWhile_ne`).  A cut at another character
loosens both sides (`cut`).
-/

namespace Wardrobe.Text

/-- One blank is added directly before or behind a separator. -/
inductive Loosen (sep : Char) : Text → Text → Prop
  | before {b : Char} (l r : Text) (hb : isBlank b = true) :
      Loosen sep (l ++ sep :: r) (l ++ b :: sep :: r)
  | behind {b : Char} (l r : Text) (hb : isBlank b = true) :
      Loosen sep (l ++ sep :: r) (l ++ sep :: b :: r)

/-- Blanks are added directly before or behind separators. -/
def Loosened (sep : Char) : Text → Text → Prop :=
  Relation.ReflTransGen (Loosen sep)

variable {s t a b : Text} {c sep : Char}

/-! ## Pieces between separators -/

/-- What is added in front without a separator goes to the first piece. -/
lemma splitOn_notMem_append (ha : sep ∉ a) (t : Text) :
    ∃ q qs, t.splitOn sep = q :: qs ∧ (a ++ t).splitOn sep = (a ++ q) :: qs := by
  induction a with
  | nil =>
    obtain ⟨q, qs, hq⟩ := List.exists_cons_of_ne_nil (List.splitOn_ne_nil sep t)
    exact ⟨q, qs, hq, hq⟩
  | cons c a ih =>
    rw [List.mem_cons, not_or] at ha
    obtain ⟨hc, ha⟩ := ha
    obtain ⟨q, qs, hq, hsplit⟩ := ih ha
    refine ⟨q, qs, hq, ?_⟩
    rw [List.cons_append, List.splitOn_cons_eq_if_modifyHead, if_neg (by simpa using Ne.symm hc),
      hsplit, List.modifyHead_cons, List.cons_append]

/-- What is added at the end without a separator goes to the last piece. -/
lemma splitOn_append_notMem (ha : sep ∉ a) (t : Text) :
    ∃ qs q, t.splitOn sep = qs ++ [q] ∧ (t ++ a).splitOn sep = qs ++ [q ++ a] := by
  induction t with
  | nil =>
    obtain ⟨q, qs, hq, hsplit⟩ := splitOn_notMem_append ha []
    rw [List.splitOn_nil, List.cons.injEq] at hq
    obtain ⟨rfl, rfl⟩ := hq
    rw [List.append_nil] at hsplit
    exact ⟨[], [], List.splitOn_nil sep, hsplit⟩
  | cons c t ih =>
    obtain ⟨qs, q, hq, hsplit⟩ := ih
    rw [List.cons_append, List.splitOn_cons_eq_if_modifyHead, List.splitOn_cons_eq_if_modifyHead,
      hq, hsplit]
    by_cases hc : c = sep
    · rw [if_pos (beq_iff_eq.mpr hc), if_pos (beq_iff_eq.mpr hc)]
      exact ⟨[] :: qs, q, rfl, rfl⟩
    · rw [if_neg (by simpa using hc), if_neg (by simpa using hc)]
      cases qs with
      | nil => exact ⟨[], c :: q, rfl, rfl⟩
      | cons q' qs => exact ⟨(c :: q') :: qs, q, rfl, rfl⟩

/-- A separator that is no blank is not among blanks. -/
lemma notMem_of_blank (hsep : isBlank sep = false) (ha : ∀ c ∈ a, isBlank c = true) : sep ∉ a :=
  fun hmem => Bool.false_ne_true (hsep.symm.trans (ha sep hmem))

/-- Blanks at the end are trimmed off the pieces. -/
lemma map_trim_splitOn_append_blanks (hsep : isBlank sep = false) (ha : ∀ c ∈ a, isBlank c = true)
    (t : Text) : ((t ++ a).splitOn sep).map trim = (t.splitOn sep).map trim := by
  obtain ⟨qs, q, hq, hsplit⟩ := splitOn_append_notMem (notMem_of_blank hsep ha) t
  rw [hq, hsplit, List.map_append, List.map_append, List.map_singleton, List.map_singleton,
    trim_append_blanks ha]

/-- Blanks in front are trimmed off the pieces. -/
lemma map_trim_splitOn_blanks_append (hsep : isBlank sep = false) (ha : ∀ c ∈ a, isBlank c = true)
    (t : Text) : ((a ++ t).splitOn sep).map trim = (t.splitOn sep).map trim := by
  obtain ⟨q, qs, hq, hsplit⟩ := splitOn_notMem_append (notMem_of_blank hsep ha) t
  rw [hq, hsplit, List.map_cons, List.map_cons, trim_blanks_append ha]

/-- The pieces of a trimmed text are the pieces of the text, blanks around them aside. -/
lemma map_trim_splitOn_trim (hsep : isBlank sep = false) (t : Text) :
    ((trim t).splitOn sep).map trim = (t.splitOn sep).map trim := by
  obtain ⟨a, b, ht, ha, hb⟩ := exists_eq_append_trim t
  have hpieces := congrArg (fun u : Text => (u.splitOn sep).map trim) ht
  simp only [map_trim_splitOn_append_blanks hsep hb, map_trim_splitOn_blanks_append hsep ha]
    at hpieces
  exact hpieces.symm

/-- Of two pieces the first ends at the first separator. -/
lemma eq_append_of_splitOn {first second : Text} {rest : List Text}
    (h : t.splitOn sep = first :: second :: rest) :
    ∃ m, t = first ++ sep :: m ∧ sep ∉ first ∧ m.splitOn sep = second :: rest := by
  have hjoin : join [sep] (t.splitOn sep) = t := List.intercalate_splitOn sep
  have hpieces : ∀ u ∈ t.splitOn sep, sep ∉ u := fun u hu => (mem_of_mem_splitOn hu).2
  rw [h] at hjoin hpieces
  rw [join_cons_cons, List.append_assoc, List.singleton_append] at hjoin
  obtain ⟨hfirst, hrest⟩ := List.forall_mem_cons.mp hpieces
  exact ⟨_, hjoin.symm, hfirst, splitOn_join hrest (List.cons_ne_nil second rest)⟩

/-- Trimming a text takes blanks from its pieces, from the first of several only those in front. -/
lemma splitOn_trim_cons (hsep : isBlank sep = false) {first second : Text} {rest : List Text}
    (h : t.splitOn sep = first :: second :: rest) :
    ∃ second' rest', (trim t).splitOn sep = trimStart first :: second' :: rest' ∧
      trim second' = trim second ∧ rest'.map trim = rest.map trim := by
  obtain ⟨m, rfl, hfirst, hm⟩ := eq_append_of_splitOn h
  have hstart : sep ∉ trimStart first := fun hmem => hfirst (mem_of_mem_trimStart hmem)
  have hpieces : ((trimEnd m).splitOn sep).map trim = (m.splitOn sep).map trim := by
    rw [← map_trim_splitOn_trim hsep, trim_trimEnd, map_trim_splitOn_trim hsep]
  rw [hm, List.map_cons, List.map_eq_cons_iff] at hpieces
  obtain ⟨second', rest', hsplit, hsecond, hrest⟩ := hpieces
  refine ⟨second', rest', ?_, hsecond, hrest⟩
  rw [trim_append_cons hsep, List.splitOn_append_cons_self, hsplit,
    List.splitOn_eq_singleton hstart]
  rfl

/-! ## One blank -/

/-- What follows on a text is out of reach from the front, unless everything before it passes. -/
lemma span_append (p : Char → Bool) (l : Text) : (∀ c ∈ l, p c = true) ∨
    ∀ m, (l ++ m).takeWhile p = l.takeWhile p ∧ (l ++ m).dropWhile p = l.dropWhile p ++ m := by
  by_cases hl : ∀ c ∈ l, p c = true
  · exact Or.inl hl
  · have htake : (l.takeWhile p).length ≠ l.length := fun h =>
      hl (List.takeWhile_eq_self_iff.mp ((List.takeWhile_prefix p).eq_of_length h))
    have hdrop : ¬ (l.dropWhile p).isEmpty = true := fun h =>
      hl (List.dropWhile_eq_nil_iff.mp (List.isEmpty_iff.mp h))
    refine Or.inr fun m => ⟨?_, ?_⟩
    · rw [List.takeWhile_append, if_neg htake]
    · rw [List.dropWhile_append, if_neg hdrop]

namespace Loosen

/-- The pieces are the same but for the blanks around them. -/
lemma map_trim_splitOn (hsep : isBlank sep = false) (h : Loosen sep s t) :
    (s.splitOn sep).map trim = (t.splitOn sep).map trim := by
  cases h with
  | @before b l r hb =>
    have hblank : ∀ c ∈ [b], isBlank c = true := List.forall_mem_singleton.mpr hb
    rw [List.append_cons l b, List.splitOn_append_cons_self, List.splitOn_append_cons_self,
      List.map_append, List.map_append, map_trim_splitOn_append_blanks hsep hblank]
  | @behind b l r hb =>
    have hblank : ∀ c ∈ [b], isBlank c = true := List.forall_mem_singleton.mpr hb
    rw [List.splitOn_append_cons_self, List.splitOn_append_cons_self, List.map_append,
      List.map_append, ← List.singleton_append, map_trim_splitOn_blanks_append hsep hblank]

/-- A separator is there to put a blank beside. -/
lemma mem (h : Loosen sep s t) : sep ∈ s := by
  cases h <;> simp

/-- The first piece can only have got a blank at its end. -/
lemma takeWhile_ne (hsep : isBlank sep = false) (h : Loosen sep s t) :
    ∃ a, (∀ c ∈ a, isBlank c = true) ∧ t.takeWhile (· != sep) = s.takeWhile (· != sep) ++ a := by
  cases h with
  | @before b l r hb =>
    rcases span_append (· != sep) l with hl | hl
    · have hne : (b != sep) = true := bne_iff_ne.mpr fun heq => by
        rw [← heq, hb] at hsep
        cases hsep
      refine ⟨[b], List.forall_mem_singleton.mpr hb, ?_⟩
      rw [List.takeWhile_append_of_pos hl, List.takeWhile_append_of_pos hl]
      simp [hne]
    · exact ⟨[], fun c hc => absurd hc List.not_mem_nil, by rw [(hl _).1, (hl _).1]; simp⟩
  | @behind b l r hb =>
    refine ⟨[], fun c hc => absurd hc List.not_mem_nil, ?_⟩
    rcases span_append (· != sep) l with hl | hl
    · rw [List.takeWhile_append_of_pos hl, List.takeWhile_append_of_pos hl]
      simp
    · rw [(hl _).1, (hl _).1, List.append_nil]

/-- What a text begins with is loosened when no blank or separator ends it, and so is the rest. -/
lemma span (p : Char → Bool) (hsep : p sep = true) (hblank : ∀ b, isBlank b = true → p b = true)
    (h : Loosen sep s t) : Loosened sep (s.takeWhile p) (t.takeWhile p) ∧
      Loosened sep (s.dropWhile p) (t.dropWhile p) := by
  cases h with
  | @before b l r hb =>
    rcases span_append p l with hl | hl
    · rw [List.takeWhile_append_of_pos hl, List.takeWhile_append_of_pos hl,
        List.dropWhile_append_of_pos hl, List.dropWhile_append_of_pos hl]
      simp only [List.takeWhile_cons, List.dropWhile_cons, hsep, hblank b hb, if_true]
      exact ⟨.single (.before l _ hb), .refl⟩
    · rw [(hl _).1, (hl _).1, (hl _).2, (hl _).2]
      exact ⟨.refl, .single (.before _ r hb)⟩
  | @behind b l r hb =>
    rcases span_append p l with hl | hl
    · rw [List.takeWhile_append_of_pos hl, List.takeWhile_append_of_pos hl,
        List.dropWhile_append_of_pos hl, List.dropWhile_append_of_pos hl]
      simp only [List.takeWhile_cons, List.dropWhile_cons, hsep, hblank b hb, if_true]
      exact ⟨.single (.behind l _ hb), .refl⟩
    · rw [(hl _).1, (hl _).1, (hl _).2, (hl _).2]
      exact ⟨.refl, .single (.behind _ r hb)⟩

/-- A first character that is no separator stays in front. -/
lemma of_cons (hc : c ≠ sep) (h : Loosen sep (c :: s) t) : ∃ u, t = c :: u ∧ Loosen sep s u := by
  generalize hcs : c :: s = cs at h
  cases h with
  | @before b l r hb =>
    cases l with
    | nil => exact absurd (List.cons.inj hcs).1 hc
    | cons d l =>
      obtain ⟨rfl, rfl⟩ := List.cons.inj hcs
      exact ⟨_, rfl, .before l r hb⟩
  | @behind b l r hb =>
    cases l with
    | nil => exact absurd (List.cons.inj hcs).1 hc
    | cons d l =>
      obtain ⟨rfl, rfl⟩ := List.cons.inj hcs
      exact ⟨_, rfl, .behind l r hb⟩

end Loosen

/-! ## Any number of blanks -/

namespace Loosened

/-- The pieces are the same but for the blanks around them. -/
theorem map_trim_splitOn (hsep : isBlank sep = false) (h : Loosened sep s t) :
    (s.splitOn sep).map trim = (t.splitOn sep).map trim := by
  induction h with
  | refl => rfl
  | tail _ hstep ih => exact ih.trans (hstep.map_trim_splitOn hsep)

/-- The first piece can only have got blanks at its end. -/
theorem takeWhile_ne (hsep : isBlank sep = false) (h : Loosened sep s t) :
    ∃ a, (∀ c ∈ a, isBlank c = true) ∧ t.takeWhile (· != sep) = s.takeWhile (· != sep) ++ a := by
  induction h with
  | refl => exact ⟨[], fun c hc => absurd hc List.not_mem_nil, (List.append_nil _).symm⟩
  | tail _ hstep ih =>
    obtain ⟨a, ha, htake⟩ := ih
    obtain ⟨b, hb, htake'⟩ := hstep.takeWhile_ne hsep
    exact ⟨a ++ b, List.forall_mem_append.mpr ⟨ha, hb⟩,
      by rw [htake', htake, List.append_assoc]⟩

/-- What a text begins with is loosened when no blank or separator ends it, and so is the rest. -/
lemma span (p : Char → Bool) (hsep : p sep = true) (hblank : ∀ b, isBlank b = true → p b = true)
    (h : Loosened sep s t) : Loosened sep (s.takeWhile p) (t.takeWhile p) ∧
      Loosened sep (s.dropWhile p) (t.dropWhile p) := by
  induction h with
  | refl => exact ⟨.refl, .refl⟩
  | tail _ hstep ih =>
    obtain ⟨htake, hdrop⟩ := hstep.span p hsep hblank
    exact ⟨ih.1.trans htake, ih.2.trans hdrop⟩

/-- A first character that is no separator stays in front. -/
lemma of_cons (hc : c ≠ sep) (h : Loosened sep (c :: s) t) :
    ∃ u, t = c :: u ∧ Loosened sep s u := by
  induction h with
  | refl => exact ⟨s, rfl, .refl⟩
  | tail _ hstep ih =>
    obtain ⟨u, rfl, hu⟩ := ih
    obtain ⟨w, rfl, hw⟩ := hstep.of_cons hc
    exact ⟨w, rfl, hu.tail hw⟩

/-- A text without separators stays as it is. -/
lemma eq_of_notMem (hs : sep ∉ s) (h : Loosened sep s t) : s = t := by
  rcases h.cases_head with rfl | ⟨u, hstep, -⟩
  · rfl
  · exact absurd hstep.mem hs

/-- A comment stays where it is. -/
theorem stripComment (hsep : sep ≠ ';' ∧ sep ≠ '#') (h : Loosened sep s t) :
    Loosened sep (stripComment s) (stripComment t) :=
  (h.span _ (by simpa using hsep) fun _ => ne_mark_of_isBlank).1

/-- A cut at another character loosens both sides. -/
theorem cut {x : Char} (hx : isBlank x = false) (hne : x ≠ sep) (h : Loosened sep s t)
    (hcut : cut x s = some (a, b)) :
    ∃ a' b', Text.cut x t = some (a', b') ∧ Loosened sep a a' ∧ Loosened sep b b' := by
  have hblank : ∀ c, isBlank c = true → (c != x) = true := fun c hc => bne_iff_ne.mpr fun heq => by
    rw [← heq, hc] at hx
    cases hx
  obtain ⟨rfl, ha⟩ := cut_eq_some_iff.mp hcut
  have hall : ∀ c ∈ a, (c != x) = true := fun c hc => bne_iff_ne.mpr fun heq => ha (heq ▸ hc)
  obtain ⟨htake, hdrop⟩ := h.span (· != x) (bne_iff_ne.mpr hne.symm) hblank
  rw [List.takeWhile_append_of_pos hall] at htake
  rw [List.dropWhile_append_of_pos hall] at hdrop
  simp only [List.takeWhile_cons, List.dropWhile_cons, bne_self_eq_false, Bool.false_eq_true,
    if_false, List.append_nil] at htake hdrop
  obtain ⟨b', hb', hloosened⟩ := hdrop.of_cons hne
  refine ⟨t.takeWhile (· != x), b', ?_, htake, hloosened⟩
  rw [Text.cut, hb']

end Loosened

end Wardrobe.Text
