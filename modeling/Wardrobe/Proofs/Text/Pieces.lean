import Mathlib
import Wardrobe.Rule.Basic

/-!
# Trimming and cutting texts

The grammars of rules cut texts at separators and trim the pieces.  `Trimmed` says that there is no
blank at either end; trimming gives such a text and keeps it (`trim_eq_self`).  A character that is
no blank keeps the two sides of a text apart (`trim_append_cons`), so trimming before a cut is
trimming the outer sides of its pieces (`cut_trim`).
-/

namespace Wardrobe.Text

/-- No blank stands at either end of a text. -/
structure Trimmed (t : Text) : Prop where
  head : ∀ c ∈ t.head?, isBlank c = false
  last : ∀ c ∈ t.getLast?, isBlank c = false

variable {t a b : Text} {x sep : Char}

/-! ## Trimming -/

/-- Nothing is dropped in front of a character that is no blank. -/
lemma trimStart_eq_self (h : ∀ c ∈ t.head?, isBlank c = false) : trimStart t = t := by
  cases t with
  | nil => rfl
  | cons c rest => exact List.dropWhile_cons_of_neg (by rw [h c rfl]; exact Bool.false_ne_true)

/-- Blanks in front are dropped. -/
lemma trimStart_append (ha : ∀ c ∈ a, isBlank c = true) (t : Text) :
    trimStart (a ++ t) = trimStart t :=
  List.dropWhile_append_of_pos ha

/-- What begins with a character that is no blank is out of reach from the front. -/
lemma trimStart_append_cons (hx : isBlank x = false) (a b : Text) :
    trimStart (a ++ x :: b) = trimStart a ++ x :: b := by
  unfold trimStart
  induction a with
  | nil => simp [hx]
  | cons c rest ih =>
    by_cases hc : isBlank c = true
    · simp [hc, ih]
    · simp [hc]

/-- The end of a text is trimmed like the front of its mirror image. -/
lemma trimEnd_eq_reverse (t : Text) : trimEnd t = (trimStart t.reverse).reverse := rfl

/-- What ends with a character that is no blank is out of reach from the end. -/
lemma trimEnd_append_cons (hx : isBlank x = false) (a b : Text) :
    trimEnd (a ++ x :: b) = a ++ x :: trimEnd b := by
  have hmirror : (a ++ x :: b).reverse = b.reverse ++ x :: a.reverse := by simp
  rw [trimEnd_eq_reverse, hmirror, trimStart_append_cons hx, trimEnd_eq_reverse]
  simp

/-- A character that is no blank keeps the two sides of a text apart. -/
lemma trim_append_cons (hx : isBlank x = false) (a b : Text) :
    trim (a ++ x :: b) = trimStart a ++ x :: trimEnd b := by
  rw [trim, trimStart_append_cons hx, trimEnd_append_cons hx]

lemma trimEnd_eq_self (h : ∀ c ∈ t.getLast?, isBlank c = false) : trimEnd t = t := by
  rw [trimEnd_eq_reverse, trimStart_eq_self, List.reverse_reverse]
  rwa [List.head?_reverse]

/-- A trimmed text stays as it is. -/
lemma trim_eq_self (h : Trimmed t) : trim t = t := by
  rw [trim, trimStart_eq_self h.head, trimEnd_eq_self h.last]

/-- A text is blank throughout, or it begins with blanks and a character that is none. -/
lemma blank_or_exists (t : Text) : (∀ c ∈ t, isBlank c = true) ∨
    ∃ a x b, t = a ++ x :: b ∧ (∀ c ∈ a, isBlank c = true) ∧ isBlank x = false := by
  induction t with
  | nil => exact Or.inl fun c hc => absurd hc List.not_mem_nil
  | cons c rest ih =>
    cases hc : isBlank c with
    | false => exact Or.inr ⟨[], c, rest, rfl, fun d hd => absurd hd List.not_mem_nil, hc⟩
    | true =>
      rcases ih with hblank | ⟨a, x, b, rfl, ha, hx⟩
      · exact Or.inl (List.forall_mem_cons.mpr ⟨hc, hblank⟩)
      · exact Or.inr ⟨c :: a, x, b, rfl, List.forall_mem_cons.mpr ⟨hc, ha⟩, hx⟩

/-- Nothing is left of blanks. -/
lemma trimStart_eq_nil (h : ∀ c ∈ t, isBlank c = true) : trimStart t = [] := by
  have := trimStart_append h []
  rwa [List.append_nil] at this

lemma trimEnd_eq_nil (h : ∀ c ∈ t, isBlank c = true) : trimEnd t = [] := by
  rw [trimEnd_eq_reverse, trimStart_eq_nil fun c hc => h c (List.mem_reverse.mp hc)]
  rfl

/-- The two ends may be trimmed in either order. -/
lemma trimStart_trimEnd (t : Text) : trimStart (trimEnd t) = trim t := by
  rcases blank_or_exists t with hblank | ⟨a, x, b, rfl, ha, hx⟩
  · rw [trimEnd_eq_nil hblank, trim, trimStart_eq_nil hblank]
    rfl
  · rw [trimEnd_append_cons hx, trim_append_cons hx, trimStart_append_cons hx]

/-- The result of trimming is trimmed. -/
lemma trimmed_trim (t : Text) : Trimmed (trim t) := by
  have hstart : ∀ s : Text, ∀ c ∈ (trimStart s).head?, isBlank c = false := by
    intro s c hc
    rcases blank_or_exists s with hblank | ⟨a, x, b, rfl, ha, hx⟩
    · rw [trimStart_eq_nil hblank] at hc
      cases hc
    · rw [trimStart_append_cons hx, trimStart_eq_nil ha, List.nil_append, List.head?_cons,
        Option.mem_some] at hc
      exact hc ▸ hx
  refine ⟨?_, ?_⟩
  · rw [← trimStart_trimEnd]
    exact hstart _
  · rw [trim, trimEnd_eq_reverse, List.getLast?_reverse]
    exact hstart _

@[simp] lemma trim_trim (t : Text) : trim (trim t) = trim t :=
  trim_eq_self (trimmed_trim t)

lemma trimStart_trimStart (t : Text) : trimStart (trimStart t) = trimStart t :=
  List.dropWhile_idempotent _ t

@[simp] lemma trim_trimStart (t : Text) : trim (trimStart t) = trim t := by
  rw [trim, trimStart_trimStart, trim]

@[simp] lemma trim_trimEnd (t : Text) : trim (trimEnd t) = trim t := by
  rw [← trimStart_trimEnd, ← trimStart_trimEnd, trimEnd_eq_reverse, trimEnd_eq_reverse,
    List.reverse_reverse, trimStart_trimStart]

lemma trimEnd_append_blanks (ha : ∀ c ∈ a, isBlank c = true) (t : Text) :
    trimEnd (t ++ a) = trimEnd t := by
  rw [trimEnd_eq_reverse, List.reverse_append,
    trimStart_append fun c hc => ha c (List.mem_reverse.mp hc), ← trimEnd_eq_reverse]

/-- A text is changed at its end exactly when a blank stands there. -/
lemma trimEnd_ne_self_iff : trimEnd t ≠ t ↔ ∃ u b, t = u ++ [b] ∧ isBlank b = true := by
  constructor
  · intro h
    rcases List.eq_nil_or_concat t with rfl | ⟨u, b, rfl⟩
    · exact absurd rfl h
    · rw [List.concat_eq_append] at h ⊢
      refine ⟨u, b, rfl, ?_⟩
      by_contra hb
      rw [Bool.not_eq_true] at hb
      exact h (by rw [trimEnd_append_cons hb, trimEnd_eq_nil (by simp)])
  · rintro ⟨u, b, rfl, hb⟩ h
    have hlength := congrArg List.length h
    rw [trimEnd_append_blanks (List.forall_mem_singleton.mpr hb)] at hlength
    have hle : (trimEnd u).length ≤ u.length := by
      rw [trimEnd_eq_reverse, List.length_reverse]
      exact (List.dropWhile_sublist _).length_le.trans_eq List.length_reverse
    rw [List.length_append, List.length_singleton] at hlength
    omega

/-- When nothing is dropped at the end of a text, it does not end in blanks. -/
lemma eq_nil_of_trimEnd_append (ha : ∀ c ∈ a, isBlank c = true) (h : trimEnd (t ++ a) = t ++ a) :
    a = [] := by
  rcases List.eq_nil_or_concat a with rfl | ⟨u, b, rfl⟩
  · rfl
  · have hb : isBlank b = true := ha b (by simp)
    exact absurd h (trimEnd_ne_self_iff.mpr ⟨t ++ u, b, by simp, hb⟩)

/-- Blanks at the end are dropped. -/
lemma trim_append_blanks (ha : ∀ c ∈ a, isBlank c = true) (t : Text) : trim (t ++ a) = trim t := by
  rw [← trimStart_trimEnd, trimEnd_append_blanks ha, trimStart_trimEnd]

/-- Blanks in front are dropped. -/
lemma trim_blanks_append (ha : ∀ c ∈ a, isBlank c = true) (t : Text) : trim (a ++ t) = trim t := by
  rw [trim, trimStart_append ha, trim]

lemma mem_of_mem_trimStart {c : Char} (h : c ∈ trimStart t) : c ∈ t :=
  (List.dropWhile_sublist _).mem h

lemma mem_of_mem_trimEnd {c : Char} (h : c ∈ trimEnd t) : c ∈ t := by
  rw [trimEnd_eq_reverse, List.mem_reverse] at h
  exact List.mem_reverse.mp (mem_of_mem_trimStart h)

/-- Trimming adds no character. -/
lemma mem_of_mem_trim {c : Char} (h : c ∈ trim t) : c ∈ t :=
  mem_of_mem_trimStart (mem_of_mem_trimEnd h)

/-- The first character stays when it is no blank. -/
lemma head?_trim (h : ∀ c ∈ t.head?, isBlank c = false) : (trim t).head? = t.head? := by
  cases t with
  | nil => rfl
  | cons c rest =>
    have hc : isBlank c = false := h c rfl
    have htrim := trim_append_cons hc [] rest
    rw [List.nil_append] at htrim
    rw [htrim]
    rfl

/-- The last character stays when it is no blank. -/
lemma getLast?_trim (h : ∀ c ∈ t.getLast?, isBlank c = false) :
    (trim t).getLast? = t.getLast? := by
  rcases List.eq_nil_or_concat t with rfl | ⟨rest, c, rfl⟩
  · rfl
  · have hc : isBlank c = false := h c (by simp)
    rw [List.concat_eq_append, trim_append_cons hc, trimEnd_eq_nil (by simp)]
    simp

/-! ## Trimmed pieces -/

lemma trimmed_nil : Trimmed [] :=
  ⟨fun _ h => (Option.not_mem_none _ h).elim, fun _ h => (Option.not_mem_none _ h).elim⟩

/-- A character that is no blank may stand in front of a trimmed text. -/
lemma Trimmed.cons (hx : isBlank x = false) (ht : Trimmed t) : Trimmed (x :: t) := by
  refine ⟨fun c hc => ?_, fun c hc => ?_⟩
  · rw [List.head?_cons, Option.mem_some] at hc
    exact hc ▸ hx
  · cases t with
    | nil =>
      rw [List.getLast?_singleton, Option.mem_some] at hc
      exact hc ▸ hx
    | cons d rest =>
      rw [List.getLast?_cons_cons] at hc
      exact ht.last c hc

/-- A character that is no blank may stand behind a trimmed text. -/
lemma Trimmed.concat (hx : isBlank x = false) (ht : Trimmed t) : Trimmed (t ++ [x]) := by
  refine ⟨fun c hc => ?_, fun c hc => ?_⟩
  · cases t with
    | nil =>
      rw [List.nil_append, List.head?_cons, Option.mem_some] at hc
      exact hc ▸ hx
    | cons d rest => exact ht.head c hc
  · rw [List.getLast?_append, List.getLast?_singleton, Option.some_or, Option.mem_some] at hc
    exact hc ▸ hx

/-- The ends of two nonempty texts are the ends of the whole. -/
lemma Trimmed.append (ha : Trimmed a) (hb : Trimmed b) (hane : a ≠ []) (hbne : b ≠ []) (m : Text) :
    Trimmed (a ++ m ++ b) := by
  refine ⟨?_, ?_⟩
  · rw [List.append_assoc, List.head?_append_of_ne_nil a hane]
    exact ha.head
  · rw [List.getLast?_append_of_ne_nil _ hbne]
    exact hb.last

lemma join_cons_cons (sep t s : Text) (rest : List Text) :
    join sep (t :: s :: rest) = t ++ sep ++ join sep (s :: rest) :=
  List.intercalate_cons_cons

/-- Texts that are not empty are not lost when joined. -/
lemma join_ne_nil (sep : Text) {ts : List Text} (h : ∀ t ∈ ts, t ≠ []) (hne : ts ≠ []) :
    join sep ts ≠ [] := by
  obtain ⟨t, rest, rfl⟩ := List.exists_cons_of_ne_nil hne
  have ht : t ≠ [] := h t List.mem_cons_self
  cases rest with
  | nil => simpa [join] using ht
  | cons s rest => simp [join_cons_cons, ht]

/-- Trimmed texts that are not empty make a trimmed text when joined. -/
lemma trimmed_join (sep : Text) {ts : List Text} (h : ∀ t ∈ ts, Trimmed t ∧ t ≠ []) :
    Trimmed (join sep ts) := by
  induction ts with
  | nil => simpa [join] using trimmed_nil
  | cons t rest ih =>
    obtain ⟨ht, hrest⟩ := List.forall_mem_cons.mp h
    cases rest with
    | nil => simpa [join] using ht.1
    | cons s rest =>
      have hne : join sep (s :: rest) ≠ [] :=
        join_ne_nil sep (fun u hu => (hrest u hu).2) (List.cons_ne_nil s rest)
      rw [join_cons_cons]
      exact ht.1.append (ih hrest) ht.2 hne sep

/-! ## Cutting -/

/-- A cut gives the two sides of the first separator. -/
lemma cut_eq_some_iff : cut sep t = some (a, b) ↔ t = a ++ sep :: b ∧ sep ∉ a := by
  constructor
  · intro h
    by_cases hmem : sep ∈ t
    · obtain ⟨a', b', rfl, ha'⟩ := List.eq_append_cons_of_mem hmem
      rw [cut_append_cons ha', Option.some.injEq, Prod.mk.injEq] at h
      obtain ⟨rfl, rfl⟩ := h
      exact ⟨rfl, ha'⟩
    · rw [cut_eq_none hmem] at h
      cases h
  · rintro ⟨rfl, ha⟩
    exact cut_append_cons ha b

/-- A text ends at a separator behind it, when it holds none itself. -/
lemma takeWhile_append_sep (ha : sep ∉ a) (b : Text) :
    (a ++ sep :: b).takeWhile (· != sep) = a := by
  have hall : ∀ c ∈ a, (c != sep) = true := fun c hc => bne_iff_ne.mpr fun h => ha (h ▸ hc)
  rw [List.takeWhile_append_of_pos hall]
  simp

/-- A text that cannot be cut has no separator. -/
lemma notMem_of_cut_eq_none (h : cut sep t = none) : sep ∉ t := by
  intro hmem
  obtain ⟨a, b, rfl, ha⟩ := List.eq_append_cons_of_mem hmem
  rw [cut_append_cons ha] at h
  cases h

/-- Cutting a trimmed text trims the outer ends of its pieces. -/
lemma cut_trim (hsep : isBlank sep = false) (t : Text) :
    cut sep (trim t) = (cut sep t).map fun p => (trimStart p.1, trimEnd p.2) := by
  by_cases hmem : sep ∈ t
  · obtain ⟨a, b, rfl, ha⟩ := List.eq_append_cons_of_mem hmem
    rw [trim_append_cons hsep, cut_append_cons ha,
      cut_append_cons fun h => ha (mem_of_mem_trimStart h)]
    rfl
  · rw [cut_eq_none hmem, cut_eq_none fun h => hmem (mem_of_mem_trim h)]
    rfl

/-- The pieces of a text hold only its characters, and not the separator. -/
lemma mem_of_mem_splitOn {p : Text} (hp : p ∈ t.splitOn sep) :
    (∀ c ∈ p, c ∈ t) ∧ sep ∉ p := by
  induction t generalizing p with
  | nil =>
    rw [List.splitOn_nil, List.mem_singleton] at hp
    subst hp
    exact ⟨fun c hc => hc, List.not_mem_nil⟩
  | cons d rest ih =>
    obtain ⟨q, qs, hq⟩ := List.exists_cons_of_ne_nil (List.splitOn_ne_nil sep rest)
    rw [List.splitOn_cons_eq_if_modifyHead, hq] at hp
    rw [hq] at ih
    by_cases hd : d = sep
    · rw [if_pos (beq_iff_eq.mpr hd)] at hp
      rcases List.mem_cons.mp hp with rfl | hp
      · exact ⟨fun c hc => absurd hc List.not_mem_nil, List.not_mem_nil⟩
      · exact ⟨fun c hc => List.mem_cons_of_mem d ((ih hp).1 c hc), (ih hp).2⟩
    · rw [if_neg (by simpa using hd), List.modifyHead_cons] at hp
      rcases List.mem_cons.mp hp with rfl | hp
      · have hq' := ih List.mem_cons_self
        refine ⟨fun c hc => ?_, fun hsep => ?_⟩
        · rcases List.mem_cons.mp hc with rfl | hc
          · exact List.mem_cons_self
          · exact List.mem_cons_of_mem d (hq'.1 c hc)
        · rcases List.mem_cons.mp hsep with rfl | hsep
          · exact hd rfl
          · exact hq'.2 hsep
      · have hp' := ih (List.mem_cons_of_mem q hp)
        exact ⟨fun c hc => List.mem_cons_of_mem d (hp'.1 c hc), hp'.2⟩

/-- Pieces without the separator come back when they are joined and split again. -/
lemma splitOn_join {ts : List Text} (h : ∀ t ∈ ts, sep ∉ t) (hne : ts ≠ []) :
    (join [sep] ts).splitOn sep = ts :=
  List.splitOn_intercalate sep h hne

/-- A joined text falls into the pieces of the texts. -/
lemma splitOn_join_eq_flatMap (sep : Char) {ts : List Text} (hne : ts ≠ []) :
    (join [sep] ts).splitOn sep = ts.flatMap (·.splitOn sep) := by
  induction ts with
  | nil => exact absurd rfl hne
  | cons t rest ih =>
    cases rest with
    | nil => simp [join]
    | cons s rest =>
      rw [join_cons_cons, List.append_assoc, List.singleton_append, List.splitOn_append_cons_self,
        ih (List.cons_ne_nil s rest)]
      rfl

/-- Texts without the separator are pieces of their own. -/
lemma flatMap_splitOn_eq_self {ts : List Text} (h : ∀ t ∈ ts, sep ∉ t) :
    ts.flatMap (·.splitOn sep) = ts := by
  induction ts with
  | nil => rfl
  | cons t rest ih =>
    obtain ⟨ht, hrest⟩ := List.forall_mem_cons.mp h
    rw [List.flatMap_cons, List.splitOn_eq_singleton ht, ih hrest]
    rfl

/-- A joined text has the characters of its pieces and the separator. -/
lemma mem_join {ts : List Text} {c : Char} (h : c ∈ join [sep] ts) :
    c = sep ∨ ∃ t ∈ ts, c ∈ t := by
  induction ts with
  | nil => simp [join] at h
  | cons t rest ih =>
    cases rest with
    | nil => exact Or.inr ⟨t, List.mem_cons_self, by simpa [join] using h⟩
    | cons s rest =>
      rw [join_cons_cons, List.mem_append, List.mem_append, List.mem_singleton] at h
      rcases h with (h | h) | h
      · exact Or.inr ⟨t, List.mem_cons_self, h⟩
      · exact Or.inl h
      · rcases ih h with h | ⟨u, hu, hc⟩
        · exact Or.inl h
        · exact Or.inr ⟨u, List.mem_cons_of_mem t hu, hc⟩

/-! ## Comments and sections -/

/-- No bar and no mark of a comment occurs, so that the text can stand in a section of a rule. -/
def Unbroken (t : Text) : Prop :=
  ∀ c ∈ t, c ≠ '|' ∧ c ≠ ';' ∧ c ≠ '#'

/-- A text without the marks of a comment is kept whole. -/
lemma stripComment_eq_self (h : ∀ c ∈ t, c ≠ ';' ∧ c ≠ '#') : stripComment t = t := by
  refine List.takeWhile_eq_self_iff.mpr fun c hc => ?_
  simp [h c hc]

/-- A piece of a text that can stand in a section can stand there, too. -/
lemma Unbroken.of_subset (ht : Unbroken t) (h : ∀ c ∈ a, c ∈ t) : Unbroken a :=
  fun c hc => ht c (h c hc)

lemma Unbroken.trim (ht : Unbroken t) : Unbroken (trim t) :=
  ht.of_subset fun _ => mem_of_mem_trim

/-- What is left of a line holds only its characters, and no mark of a comment. -/
lemma mem_stripComment {c : Char} (h : c ∈ stripComment t) : c ∈ t ∧ c ≠ ';' ∧ c ≠ '#' := by
  refine ⟨(List.takeWhile_sublist _).mem h, ?_⟩
  have := List.mem_takeWhile_imp h
  simpa using this

end Wardrobe.Text
