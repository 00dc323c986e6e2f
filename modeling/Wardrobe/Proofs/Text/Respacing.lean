import Mathlib
import Wardrobe.Proofs.Text.Pieces

/-!
# Lines that differ in spacing and comments

An `Edit` puts one blank at an end of a line or beside a separator, or a comment at the end.  Lines
are `Respaced` when edits lead from one to the other, forwards or backwards.  What is before the
comment then stays the same up to blanks (`squeeze_stripComment`), and so do the pieces between
separators (`map_squeeze_splitOn`).  Without separators only the ends may be edited, and that is
possible exactly when what is left of the lines is the same (`respaced_nil_iff`).
-/

namespace Wardrobe.Text

/-- A text without its blanks. -/
def squeeze (t : Text) : Text :=
  t.filter fun c => !isBlank c

/-- One edit of a line: a blank at an end or beside a separator, or a comment at the end. -/
inductive Edit (separators : List Char) : Text → Text → Prop
  | front {b : Char} (t : Text) (hb : isBlank b = true) : Edit separators t (b :: t)
  | back {b : Char} (t : Text) (hb : isBlank b = true) : Edit separators t (t ++ [b])
  | before {b sep : Char} (l r : Text) (hb : isBlank b = true) (hsep : sep ∈ separators) :
      Edit separators (l ++ sep :: r) (l ++ b :: sep :: r)
  | behind {b sep : Char} (l r : Text) (hb : isBlank b = true) (hsep : sep ∈ separators) :
      Edit separators (l ++ sep :: r) (l ++ sep :: b :: r)
  | comment {mark : Char} (t r : Text) (hmark : mark = ';' ∨ mark = '#') :
      Edit separators t (t ++ mark :: r)

/-- Edits lead from one line to the other, each of them made or undone. -/
def Respaced (separators : List Char) : Text → Text → Prop :=
  Relation.EqvGen (Edit separators)

variable {s t a b x y : Text} {c sep : Char} {separators : List Char}

/-! ## Texts up to blanks -/

lemma squeeze_append (a b : Text) : squeeze (a ++ b) = squeeze a ++ squeeze b :=
  List.filter_append a b

lemma squeeze_cons_of_blank (hc : isBlank c = true) (t : Text) : squeeze (c :: t) = squeeze t :=
  List.filter_cons_of_neg (by simp [hc])

lemma squeeze_cons_of_not_blank (hc : isBlank c = false) (t : Text) :
    squeeze (c :: t) = c :: squeeze t :=
  List.filter_cons_of_pos (by simp [hc])

/-- A blank makes no difference anywhere. -/
lemma squeeze_insert (hc : isBlank c = true) (a b : Text) :
    squeeze (a ++ c :: b) = squeeze (a ++ b) := by
  rw [squeeze_append, squeeze_append, squeeze_cons_of_blank hc]

lemma mem_squeeze : c ∈ squeeze t ↔ c ∈ t ∧ isBlank c = false := by
  simp [squeeze]

/-- A text without blanks stays as it is. -/
lemma squeeze_eq_self (h : ∀ c ∈ t, isBlank c = false) : squeeze t = t :=
  List.filter_eq_self.mpr fun c hc => by simp [h c hc]

lemma squeeze_eq_nil_iff : squeeze t = [] ↔ ∀ c ∈ t, isBlank c = true := by
  simp [squeeze, List.filter_eq_nil_iff]

/-- What is trimmed off are blanks. -/
lemma exists_eq_append_trim (t : Text) : ∃ a b, t = a ++ trim t ++ b ∧
    (∀ c ∈ a, isBlank c = true) ∧ ∀ c ∈ b, isBlank c = true := by
  have hend : trimStart t = trim t ++ ((trimStart t).reverse.takeWhile isBlank).reverse := by
    rw [trim, trimEnd, ← List.reverse_append, List.takeWhile_append_dropWhile, List.reverse_reverse]
  refine ⟨t.takeWhile isBlank, ((trimStart t).reverse.takeWhile isBlank).reverse, ?_,
    fun c => List.mem_takeWhile_imp, fun c hc => List.mem_takeWhile_imp (List.mem_reverse.mp hc)⟩
  rw [List.append_assoc, ← hend]
  exact List.takeWhile_append_dropWhile.symm

@[simp] lemma squeeze_trim (t : Text) : squeeze (trim t) = squeeze t := by
  obtain ⟨a, b, ht, ha, hb⟩ := exists_eq_append_trim t
  have hsqueeze := congrArg squeeze ht
  rw [squeeze_append, squeeze_append, squeeze_eq_nil_iff.mpr ha, squeeze_eq_nil_iff.mpr hb,
    List.nil_append, List.append_nil] at hsqueeze
  exact hsqueeze.symm

/-- Characters that are no blanks are not trimmed off. -/
lemma mem_trim_iff (hc : isBlank c = false) : c ∈ trim t ↔ c ∈ t := by
  have hsqueeze : c ∈ squeeze (trim t) ↔ c ∈ squeeze t := by rw [squeeze_trim]
  rwa [mem_squeeze, mem_squeeze, and_iff_left hc, and_iff_left hc] at hsqueeze

/-- Nothing is left of a text without other characters than blanks. -/
lemma trim_eq_nil_iff : trim t = [] ↔ squeeze t = [] := by
  refine ⟨fun h => ?_, fun h => ?_⟩
  · rw [← squeeze_trim, h]
    rfl
  · rw [trim, trimStart_eq_nil (squeeze_eq_nil_iff.mp h)]
    rfl

/-- A cut at a character that is no blank cuts the squeezed text. -/
lemma squeeze_cut (hsep : isBlank sep = false) (h : cut sep s = some (a, b))
    (h' : cut sep t = some (x, y)) (hst : squeeze s = squeeze t) :
    squeeze a = squeeze x ∧ squeeze b = squeeze y := by
  obtain ⟨rfl, ha⟩ := cut_eq_some_iff.mp h
  obtain ⟨rfl, hx⟩ := cut_eq_some_iff.mp h'
  rw [squeeze_append, squeeze_append, squeeze_cons_of_not_blank hsep,
    squeeze_cons_of_not_blank hsep] at hst
  have hcut := congrArg (cut sep) hst
  rw [cut_append_cons fun hmem => ha (mem_squeeze.mp hmem).1,
    cut_append_cons fun hmem => hx (mem_squeeze.mp hmem).1, Option.some.injEq,
    Prod.mk.injEq] at hcut
  exact hcut

/-- The pieces of a squeezed text are squeezed pieces. -/
lemma map_squeeze_splitOn (hsep : isBlank sep = false) (t : Text) :
    (t.splitOn sep).map squeeze = (squeeze t).splitOn sep := by
  induction t with
  | nil => simp [squeeze]
  | cons c rest ih =>
    obtain ⟨p, ps, hp⟩ := List.exists_cons_of_ne_nil (List.splitOn_ne_nil sep rest)
    rw [hp] at ih
    rw [List.splitOn_cons_eq_if_modifyHead, hp]
    by_cases hc : c = sep
    · subst hc
      rw [squeeze_cons_of_not_blank hsep, List.splitOn_cons_eq_if_modifyHead, ← ih]
      simp [squeeze]
    · rw [if_neg (by simpa using hc), List.modifyHead_cons]
      cases hblank : isBlank c with
      | true => rw [squeeze_cons_of_blank hblank, ← ih, List.map_cons, List.map_cons,
          squeeze_cons_of_blank hblank]
      | false =>
        rw [squeeze_cons_of_not_blank hblank, List.splitOn_cons_eq_if_modifyHead, ← ih,
          if_neg (by simpa using hc), List.map_cons, List.map_cons, List.modifyHead_cons,
          squeeze_cons_of_not_blank hblank]

/-- Joining squeezed texts gives a squeezed text. -/
lemma squeeze_join (hsep : isBlank sep = false) (ts : List Text) :
    squeeze (join [sep] ts) = join [sep] (ts.map squeeze) := by
  induction ts with
  | nil => rfl
  | cons t rest ih =>
    cases rest with
    | nil => simp [join]
    | cons u rest =>
      rw [join_cons_cons, squeeze_append, squeeze_append, ih, squeeze_cons_of_not_blank hsep]
      simp only [List.map_cons, join_cons_cons]
      rfl

/-- Trimmed texts that are the same up to blanks are the same when one continues the other. -/
lemma eq_of_append_eq (ha : Trimmed a) (hb : Trimmed b) (hab : squeeze a = squeeze b)
    (h : a ++ x = b ++ y) : a = b := by
  have hcontinued : ∀ {p q : Text}, Trimmed (p ++ q) → squeeze (p ++ q) = squeeze p → q = [] := by
    intro p q htrimmed hsame
    rw [squeeze_append, List.append_right_eq_self, squeeze_eq_nil_iff] at hsame
    by_contra hne
    have hlast := htrimmed.last (q.getLast hne)
      (by rw [List.getLast?_append_of_ne_nil _ hne, List.getLast?_eq_some_getLast hne]; rfl)
    rw [hsame _ (List.getLast_mem hne)] at hlast
    cases hlast
  rcases List.append_eq_append_iff.mp h with ⟨q, rfl, -⟩ | ⟨q, rfl, -⟩
  · rw [hcontinued hb hab.symm, List.append_nil]
  · rw [hcontinued ha hab, List.append_nil]

/-! ## Comments -/

/-- What follows on a comment belongs to it. -/
lemma stripComment_append (t u : Text) : stripComment (t ++ u) = stripComment t ∨
    stripComment t = t ∧ stripComment (t ++ u) = t ++ stripComment u := by
  unfold stripComment
  rw [List.takeWhile_append]
  split
  · next hlength => exact Or.inr ⟨(List.takeWhile_prefix _).eq_of_length hlength, rfl⟩
  · exact Or.inl rfl

lemma stripComment_append_mark {mark : Char} (hmark : mark = ';' ∨ mark = '#') (t r : Text) :
    stripComment (t ++ mark :: r) = stripComment t := by
  have hnil : stripComment (mark :: r) = [] := by
    rcases hmark with rfl | rfl <;> rfl
  rcases stripComment_append t (mark :: r) with h | ⟨hself, h⟩
  · exact h
  · rw [h, hself, hnil, List.append_nil]

/-- A blank opens no comment. -/
lemma ne_mark_of_isBlank (hc : isBlank c = true) : (c != ';' && c != '#') = true := by
  rw [Bool.and_eq_true, bne_iff_ne, bne_iff_ne]
  constructor <;> rintro rfl <;> revert hc <;> decide

/-- A comment is found with or without the blanks. -/
lemma stripComment_squeeze (t : Text) : stripComment (squeeze t) = squeeze (stripComment t) := by
  induction t with
  | nil => rfl
  | cons c rest ih =>
    unfold stripComment at ih ⊢
    cases hc : isBlank c with
    | true =>
      rw [squeeze_cons_of_blank hc, List.takeWhile_cons, if_pos (ne_mark_of_isBlank hc),
        squeeze_cons_of_blank hc, ih]
    | false =>
      rw [squeeze_cons_of_not_blank hc, List.takeWhile_cons, List.takeWhile_cons, ih]
      split
      · rw [squeeze_cons_of_not_blank hc]
      · rfl

/-! ## Respaced lines -/

/-- An edit changes nothing but blanks before the comment. -/
lemma Edit.squeeze_stripComment (h : Edit separators s t) :
    squeeze (stripComment s) = squeeze (stripComment t) := by
  rw [← stripComment_squeeze, ← stripComment_squeeze]
  cases h with
  | front t hb => rw [squeeze_cons_of_blank hb]
  | back t hb => rw [squeeze_insert hb, List.append_nil]
  | before l r hb => rw [squeeze_insert hb]
  | @behind b sep l r hb =>
    rw [List.append_cons l sep r, List.append_cons l sep (b :: r), squeeze_insert hb]
  | comment t r hmark =>
    rw [stripComment_squeeze, stripComment_squeeze, stripComment_append_mark hmark]

/-- Respaced lines are the same up to blanks and comments. -/
lemma Respaced.squeeze_stripComment (h : Respaced separators s t) :
    squeeze (stripComment s) = squeeze (stripComment t) := by
  induction h with
  | rel s t h => exact h.squeeze_stripComment
  | refl s => rfl
  | symm s t _ ih => exact ih.symm
  | trans s t u _ _ first second => exact first.trans second

/-- An edit that needs no separator leaves the same text. -/
lemma Edit.trim_stripComment (h : Edit [] s t) :
    trim (stripComment s) = trim (stripComment t) := by
  cases h with
  | @front b t hb =>
    have hline : stripComment (b :: s) = [b] ++ stripComment s := by
      rw [stripComment, List.takeWhile_cons, if_pos (ne_mark_of_isBlank hb)]
      rfl
    rw [hline, trim_blanks_append (List.forall_mem_singleton.mpr hb)]
  | @back b t hb =>
    rcases stripComment_append s [b] with h | ⟨hself, h⟩
    · rw [h]
    · have hblank : ∀ c ∈ stripComment [b], isBlank c = true := by
        intro c hc
        obtain rfl := List.mem_singleton.mp (mem_stripComment hc).1
        exact hb
      rw [h, hself, trim_append_blanks hblank]
  | before l r hb hsep => cases hsep
  | behind l r hb hsep => cases hsep
  | comment t r hmark => rw [stripComment_append_mark hmark]

/-- Blanks in front of a line are edits. -/
lemma respaced_blanks_append (ha : ∀ c ∈ a, isBlank c = true) (t : Text) :
    Respaced separators t (a ++ t) := by
  induction a with
  | nil => exact .refl t
  | cons c rest ih =>
    obtain ⟨hc, hrest⟩ := List.forall_mem_cons.mp ha
    exact .trans _ _ _ (ih hrest) (.rel _ _ (.front _ hc))

/-- Blanks at the end of a line are edits. -/
lemma respaced_append_blanks (ha : ∀ c ∈ a, isBlank c = true) (t : Text) :
    Respaced separators t (t ++ a) := by
  induction a generalizing t with
  | nil => rw [List.append_nil]; exact .refl t
  | cons c rest ih =>
    obtain ⟨hc, hrest⟩ := List.forall_mem_cons.mp ha
    have hedits := ih hrest (t ++ [c])
    rw [List.append_assoc, List.singleton_append] at hedits
    exact .trans _ _ _ (.rel _ _ (.back _ hc)) hedits

/-- The comment and the blanks at the ends can be edited away. -/
lemma respaced_trim_stripComment (t : Text) : Respaced separators (trim (stripComment t)) t := by
  have hcomment : Respaced separators (stripComment t) t := by
    have hline : stripComment t ++ t.dropWhile (fun c => c != ';' && c != '#') = t :=
      List.takeWhile_append_dropWhile
    cases hrest : t.dropWhile (fun c => c != ';' && c != '#') with
    | nil =>
      rw [hrest, List.append_nil] at hline
      rw [hline]
      exact .refl t
    | cons mark rest =>
      have hmark := List.head?_dropWhile_not (fun c => c != ';' && c != '#') t
      rw [hrest] at hmark hline
      have hedit : Edit separators (stripComment t) (stripComment t ++ mark :: rest) := by
        refine .comment _ rest ?_
        simp only [List.head?_cons, Bool.and_eq_false_iff, bne_eq_false_iff_eq] at hmark
        exact hmark
      rw [hline] at hedit
      exact .rel _ _ hedit
  obtain ⟨a, b, ht, ha, hb⟩ := exists_eq_append_trim (stripComment t)
  have hfront : Respaced separators (trim (stripComment t)) (a ++ trim (stripComment t)) :=
    respaced_blanks_append ha _
  have hends : Respaced separators (trim (stripComment t)) (stripComment t) := by
    have hback : Respaced separators _ _ := respaced_append_blanks hb (a ++ trim (stripComment t))
    rw [← ht] at hback
    exact .trans _ _ _ hfront hback
  exact .trans _ _ _ hends hcomment

/-- The ends of one line can be edited into those of another exactly when the same is left of both
without blanks and comment. -/
theorem respaced_nil_iff :
    Respaced [] s t ↔ trim (stripComment s) = trim (stripComment t) := by
  constructor
  · intro h
    induction h with
    | rel s t h => exact h.trim_stripComment
    | refl s => rfl
    | symm s t _ ih => exact ih.symm
    | trans s t u _ _ first second => exact first.trans second
  · intro h
    have hs : Respaced [] (trim (stripComment s)) s := respaced_trim_stripComment s
    rw [h] at hs
    exact .trans _ _ _ hs.symm (respaced_trim_stripComment t)

end Wardrobe.Text
