import Mathlib
import Wardrobe.Proofs.Text.Pieces
import Wardrobe.Rule.Condition

/-!
# Writing and reading conditions

The conditions that come from reading are the *legible* ones: their value is a trimmed text that is
not empty, and it does not begin or end with a character that would be taken for one of the markers.
Every condition that is read is legible (`legible_of_ofText?`), and a legible condition is read back
from what is written for it (`ofText?_toText`).
-/

namespace Wardrobe.Condition

open Text (Trimmed)

/-- No character of the value can be taken for a marker of the condition, nor get lost. -/
structure Legible (c : Condition) : Prop where
  ne_nil : c.value ≠ []
  trimmed : Trimmed c.value
  front : c.wildcard.openFront = false → c.value.head? ≠ some '*'
  back : c.wildcard.openBack = false → c.value.getLast? ≠ some '*'
  sign : c.negated = false → c.wildcard.openFront = false → c.value.head? ≠ some '-'

/-- The star that stands on an open side. -/
def star (isOpen : Bool) : Text :=
  if isOpen then ['*'] else []

variable {c : Condition} {t token mid : Text} {negated front back : Bool}

/-! ## Markers -/

@[simp] lemma openFront_ofSides (front back : Bool) :
    (Wildcard.ofSides front back).openFront = front := by
  cases front <;> cases back <;> rfl

@[simp] lemma openBack_ofSides (front back : Bool) :
    (Wildcard.ofSides front back).openBack = back := by
  cases front <;> cases back <;> rfl

@[simp] lemma ofSides_open (w : Wildcard) : Wildcard.ofSides w.openFront w.openBack = w := by
  cases w <;> rfl

/-- A star in front is taken off, if there is one. -/
lemma takeFront_star (h : front = false → t.head? ≠ some '*') :
    takeFront (star front ++ t) = (front, t) := by
  cases front with
  | true => rfl
  | false =>
    have hne := h rfl
    unfold takeFront
    split
    · next rest heq =>
      rw [star, if_neg Bool.false_ne_true, List.nil_append] at heq
      rw [heq] at hne
      exact absurd rfl hne
    · rfl

/-- A star at the end is taken off, if there is one. -/
lemma takeBack_star (h : back = false → t.getLast? ≠ some '*') :
    takeBack (t ++ star back) = (back, t) := by
  cases back with
  | true => simp [takeBack, star]
  | false => simpa [takeBack, star] using h rfl

/-- What is taken off the front is the star that stood there. -/
lemma takeFront_spec (t : Text) : t = star (takeFront t).1 ++ (takeFront t).2 ∧
    ((takeFront t).1 = false → t.head? ≠ some '*') := by
  unfold takeFront
  split
  · exact ⟨rfl, fun h => absurd h.symm Bool.false_ne_true⟩
  · next hno =>
    refine ⟨rfl, fun _ hhead => ?_⟩
    obtain ⟨rest, rfl⟩ := List.head?_eq_some_iff.mp hhead
    exact hno rest rfl

/-- What is taken off the end is the star that stood there. -/
lemma takeBack_spec (t : Text) : t = (takeBack t).2 ++ star (takeBack t).1 ∧
    ((takeBack t).1 = false → (takeBack t).2.getLast? ≠ some '*') := by
  unfold takeBack
  split
  · next hlast =>
    obtain ⟨rest, rfl⟩ := List.getLast?_eq_some_iff.mp hlast
    exact ⟨by simp [star], fun h => absurd h.symm Bool.false_ne_true⟩
  · next hlast => exact ⟨by simp [star], fun _ => hlast⟩

/-- What is read as a condition without a sign is a value between stars. -/
lemma ofUnsigned?_eq_some_iff : ofUnsigned? negated t = some c ↔
    ∃ front back mid, t = star front ++ (mid ++ star back) ∧
      (front = false → t.head? ≠ some '*') ∧ (back = false → mid.getLast? ≠ some '*') ∧
      Text.trim mid ≠ [] ∧ c = ⟨Text.trim mid, negated, .ofSides front back⟩ := by
  constructor
  · intro h
    obtain ⟨hfront, hhead⟩ := takeFront_spec t
    obtain ⟨hback, hlast⟩ := takeBack_spec (takeFront t).2
    simp only [ofUnsigned?] at h
    split at h
    · cases h
    · next hne =>
      rw [Option.some.injEq] at h
      refine ⟨_, _, (takeBack (takeFront t).2).2, ?_, hhead, hlast, hne, h.symm⟩
      rw [← hback]
      exact hfront
  · rintro ⟨front, back, mid, rfl, hfront, hback, hne, rfl⟩
    have hfront' : front = false → (mid ++ star back).head? ≠ some '*' := fun h => by
      have := hfront h
      rwa [star, if_neg (by simp [h]), List.nil_append] at this
    simp only [ofUnsigned?, takeFront_star hfront', takeBack_star hback, if_neg hne]

/-- Blanks around a token do not count. -/
lemma ofText?_trim (token : Text) : ofText? (Text.trim token) = ofText? token := by
  rw [ofText?, ofText?, Text.trim_trim]

/-! ## Reading gives legible conditions -/

/-- What is read from a trimmed text without a sign is legible. -/
lemma legible_of_ofUnsigned? (ht : Trimmed t) (hsign : negated = false → t.head? ≠ some '-')
    (h : ofUnsigned? negated t = some c) : c.Legible := by
  obtain ⟨front, back, mid, rfl, hfront, hback, hne, rfl⟩ := ofUnsigned?_eq_some_iff.mp h
  have hmid : mid ≠ [] := fun hnil => hne (by rw [hnil]; rfl)
  have hhead : front = false →
      (Text.trim mid).head? = (star front ++ (mid ++ star back)).head? := by
    rintro rfl
    have heq : (star false ++ (mid ++ star back)).head? = mid.head? := by
      rw [star, if_neg Bool.false_ne_true, List.nil_append, List.head?_append_of_ne_nil mid hmid]
    rw [heq]
    exact Text.head?_trim fun c hc => ht.head c (heq ▸ hc)
  have hlast : back = false → (Text.trim mid).getLast? = mid.getLast? := by
    rintro rfl
    refine Text.getLast?_trim fun c hc => ht.last c ?_
    rw [star, List.getLast?_append_of_ne_nil _ (by simp [hmid])]
    simpa [star] using hc
  refine ⟨hne, Text.trimmed_trim mid, ?_, ?_, ?_⟩
  · intro h
    rw [openFront_ofSides] at h
    exact hhead h ▸ hfront h
  · intro h
    rw [openBack_ofSides] at h
    exact hlast h ▸ hback h
  · intro hneg h
    rw [openFront_ofSides] at h
    exact hhead h ▸ hsign hneg

/-- Behind a minus a token is read as a negated condition. -/
lemma ofText?_of_minus {rest : Text} (h : Text.trim token = '-' :: rest) :
    ofText? token = ofUnsigned? true (Text.trim rest) := by
  have hend : Text.trimEnd rest = rest := by
    have htrim := Text.trimmed_trim token
    rw [h] at htrim
    refine Text.trimEnd_eq_self fun c hc => htrim.last c ?_
    rw [List.getLast?_cons]
    simp [Option.mem_def.mp hc]
  have htrim : Text.trim rest = Text.trimStart rest := by rw [← Text.trimStart_trimEnd, hend]
  rw [ofText?, h, htrim]
  rfl

/-- Without a minus a token is read as a plain condition. -/
lemma ofText?_of_no_minus (h : (Text.trim token).head? ≠ some '-') :
    ofText? token = ofUnsigned? false (Text.trim token) := by
  unfold ofText?
  split
  · next rest heq =>
    rw [heq] at h
    exact absurd rfl h
  · rfl

/-- A token that is read begins with a minus exactly when the condition is negated. -/
lemma negated_iff_of_ofText? (h : ofText? token = some c) :
    c.negated = true ↔ (Text.trim token).head? = some '-' := by
  by_cases hminus : (Text.trim token).head? = some '-'
  · obtain ⟨rest, hrest⟩ := List.head?_eq_some_iff.mp hminus
    rw [ofText?_of_minus hrest] at h
    obtain ⟨_, _, _, -, -, -, -, rfl⟩ := ofUnsigned?_eq_some_iff.mp h
    simp [hminus]
  · rw [ofText?_of_no_minus hminus] at h
    obtain ⟨_, _, _, -, -, -, -, rfl⟩ := ofUnsigned?_eq_some_iff.mp h
    simp [hminus]

/-- Every condition that is read is legible. -/
lemma legible_of_ofText? (h : ofText? token = some c) : c.Legible := by
  by_cases hminus : (Text.trim token).head? = some '-'
  · obtain ⟨rest, hrest⟩ := List.head?_eq_some_iff.mp hminus
    rw [ofText?_of_minus hrest] at h
    exact legible_of_ofUnsigned? (Text.trimmed_trim rest)
      (fun h => absurd h.symm Bool.false_ne_true) h
  · rw [ofText?_of_no_minus hminus] at h
    exact legible_of_ofUnsigned? (Text.trimmed_trim token) (fun _ => hminus) h

/-- The value of a condition has only characters of its token. -/
lemma mem_of_mem_value (h : ofText? token = some c) {x : Char} (hx : x ∈ c.value) : x ∈ token := by
  have hpart : ∀ {negated : Bool} {s : Text}, ofUnsigned? negated s = some c → x ∈ s := by
    intro negated s hs
    obtain ⟨front, back, mid, rfl, -, -, -, rfl⟩ := ofUnsigned?_eq_some_iff.mp hs
    have := Text.mem_of_mem_trim hx
    simp [this]
  by_cases hminus : (Text.trim token).head? = some '-'
  · obtain ⟨rest, hrest⟩ := List.head?_eq_some_iff.mp hminus
    rw [ofText?_of_minus hrest] at h
    refine Text.mem_of_mem_trim ?_
    rw [hrest]
    exact List.mem_cons_of_mem _ (Text.mem_of_mem_trim (hpart h))
  · rw [ofText?_of_no_minus hminus] at h
    exact Text.mem_of_mem_trim (hpart h)

/-! ## Reading what is written -/

/-- What is written for a condition, without its sign. -/
def body (c : Condition) : Text :=
  star c.wildcard.openFront ++ (c.value ++ star c.wildcard.openBack)

lemma toText_eq (c : Condition) : c.toText = (if c.negated then ['-'] else []) ++ c.body := by
  simp [toText, body, star]

/-- A star is no blank. -/
lemma trimmed_star_append (ht : Trimmed t) : Trimmed (star front ++ (t ++ star back)) := by
  have hstar : Text.isBlank '*' = false := by decide
  cases front <;> cases back
  · simpa [star] using ht
  · simpa [star] using ht.concat hstar
  · simpa [star] using ht.cons hstar
  · simpa [star] using (ht.concat hstar).cons hstar

namespace Legible

lemma trimmed_body (hc : c.Legible) : Trimmed c.body :=
  trimmed_star_append hc.trimmed

lemma body_ne_nil (hc : c.Legible) : c.body ≠ [] := by
  simp [body, hc.ne_nil]

/-- Without a star in front the value comes first. -/
lemma head?_body (hc : c.Legible) (h : c.wildcard.openFront = false) :
    c.body.head? = c.value.head? := by
  rw [body, star, h, if_neg Bool.false_ne_true, List.nil_append,
    List.head?_append_of_ne_nil _ hc.ne_nil]

/-- A minus comes first only as a sign. -/
lemma head?_body_ne_minus (hc : c.Legible) (hneg : c.negated = false) :
    c.body.head? ≠ some '-' := by
  cases hfront : c.wildcard.openFront with
  | false => exact hc.head?_body hfront ▸ hc.sign hneg hfront
  | true => simp [body, star, hfront]

/-- What is written for a condition is trimmed. -/
lemma trimmed_toText (hc : c.Legible) : Trimmed c.toText := by
  rw [toText_eq]
  cases c.negated with
  | false => exact hc.trimmed_body
  | true => exact hc.trimmed_body.cons (by decide)

lemma toText_ne_nil (hc : c.Legible) : c.toText ≠ [] := by
  simp [toText_eq, hc.body_ne_nil]

/-- What is written for a condition begins with a minus exactly when it is negated. -/
lemma head?_toText (hc : c.Legible) : c.toText.head? = some '-' ↔ c.negated = true := by
  rw [toText_eq]
  cases hneg : c.negated with
  | false => simpa using hc.head?_body_ne_minus hneg
  | true => simp

/-- A condition is read back from what is written without its sign. -/
lemma ofUnsigned?_body (hc : c.Legible) : ofUnsigned? c.negated c.body = some c := by
  refine ofUnsigned?_eq_some_iff.mpr
    ⟨c.wildcard.openFront, c.wildcard.openBack, c.value, rfl, ?_, hc.back, ?_, ?_⟩
  · exact fun h => hc.head?_body h ▸ hc.front h
  · rw [Text.trim_eq_self hc.trimmed]
    exact hc.ne_nil
  · rw [Text.trim_eq_self hc.trimmed, ofSides_open]

/-- A legible condition is read back from what is written for it. -/
lemma ofText?_toText (hc : c.Legible) : ofText? c.toText = some c := by
  have htrim : Text.trim c.toText = c.toText := Text.trim_eq_self hc.trimmed_toText
  cases hneg : c.negated with
  | false =>
    have hminus : c.toText.head? ≠ some '-' := by
      rw [Ne, hc.head?_toText, hneg]
      exact Bool.false_ne_true
    have htext : c.toText = c.body := by rw [toText_eq, hneg]; rfl
    rw [ofText?_of_no_minus (by rwa [htrim]), htrim, htext, ← hneg]
    exact hc.ofUnsigned?_body
  | true =>
    have htext : c.toText = '-' :: c.body := by rw [toText_eq, hneg]; rfl
    rw [ofText?_of_minus (htrim.trans htext), Text.trim_eq_self hc.trimmed_body, ← hneg]
    exact hc.ofUnsigned?_body

end Legible

/-- What is written for a condition has the characters of its value, the sign and stars. -/
lemma mem_toText {x : Char} (hx : x ∈ c.toText) : x = '-' ∨ x = '*' ∨ x ∈ c.value := by
  have hstar : ∀ isOpen, x ∈ star isOpen → x = '*' := by
    intro isOpen h
    cases isOpen with
    | false => exact absurd h List.not_mem_nil
    | true => exact List.mem_singleton.mp h
  rw [toText_eq, body, List.mem_append, List.mem_append, List.mem_append] at hx
  rcases hx with hx | hx | hx | hx
  · cases hneg : c.negated with
    | false => rw [hneg] at hx; exact absurd hx List.not_mem_nil
    | true => rw [hneg] at hx; exact Or.inl (List.mem_singleton.mp hx)
  · exact Or.inr (Or.inl (hstar _ hx))
  · exact Or.inr (Or.inr hx)
  · exact Or.inr (Or.inl (hstar _ hx))

/-- A condition that was read is read back from what is written for it, however many signs, stars
and blanks stood around its value.  What is written is trimmed, and a minus comes first exactly when
the condition is negated. -/
theorem reread_of_ofText? (h : ofText? token = some c) : ofText? c.toText = some c ∧
    Trimmed c.toText ∧ (c.toText.head? = some '-' ↔ c.negated = true) := by
  have hc : c.Legible := legible_of_ofText? h
  exact ⟨hc.ofText?_toText, hc.trimmed_toText, hc.head?_toText⟩

/-- A value that begins with a star and ends with a minus, between signs, stars and blanks. -/
theorem reread_of_markers : ∃ (token : Text) (c : Condition),
    token = " - ** x -* ".toList ∧ ofText? token = some c ∧
    c = ⟨"* x -".toList, true, .both⟩ ∧ c.toText = "-** x -*".toList ∧
    ofText? c.toText = some c ∧ Trimmed c.toText ∧
    (c.toText.head? = some '-' ↔ c.negated = true) := by
  let token := " - ** x -* ".toList
  let c : Condition := ⟨"* x -".toList, true, .both⟩
  have h : ofText? token = some c := by decide
  exact ⟨token, c, rfl, h, rfl, by decide, reread_of_ofText? h⟩

end Wardrobe.Condition
