import Mathlib
import Wardrobe.Text.Casing

/-!
# Lower case inside a text

The lower case of a character does not depend on what stands around it, except for the capital
sigma, which becomes `ς` at the end of a word.  A piece of a text may therefore have another lower
case there than by itself (`lower_append_append`).  What stands around the piece makes no difference
when every sigma has the neighbors inside the piece that settle its form (`isSettled`), and it does
make one when some sigma has not (`occursIn_lower_iff`).
-/

namespace Wardrobe.Text

variable {s t before after : Text} {x : Char}

/-! ## Sigmas and their neighbors -/

/-- The first character of a text that is not case-ignorable. -/
def neighbor? (t : Text) : Option Char :=
  (t.dropWhile isCaseIgnorable).head?

/-- True when the form of a capital sigma is settled by the characters before it, last first, and
those after it: an uncased neighbor is before it, a cased one after it, or there is one on each
side. -/
def settlesSigma (before after : Text) : Bool :=
  (neighbor? before).any (fun c => !isCased c) || (neighbor? after).any isCased ||
    ((neighbor? before).isSome && (neighbor? after).isSome)

/-- True when every capital sigma of a text is settled, where `before` holds the characters before
the text, last first. -/
def isSettledAfter (before : Text) : Text → Bool
  | [] => true
  | c :: rest => (c != 'Σ' || settlesSigma before rest) && isSettledAfter (c :: before) rest

/-- True when the text settles the form of every capital sigma in it. -/
def isSettled (t : Text) : Bool :=
  isSettledAfter [] t

/-- The lower case of a text between the characters before it, last first, and those after it. -/
def lowerBetween (after before : Text) : Text → Text
  | [] => []
  | c :: rest =>
    (if c = 'Σ' then [lowerSigma before (rest ++ after)] else lowerChar c) ++
      lowerBetween after (c :: before) rest

/-- A neighbor counts behind a text exactly when there is none in the text. -/
lemma neighbor?_append (s t : Text) : neighbor? (s ++ t) = (neighbor? s).or (neighbor? t) := by
  rw [neighbor?, neighbor?, neighbor?, List.dropWhile_append]
  cases hs : s.dropWhile isCaseIgnorable with
  | nil => rfl
  | cons c rest => rfl

/-- Whether a cased letter is met is up to the neighbor. -/
lemma meetsCased_eq (t : Text) : meetsCased t = (neighbor? t).any isCased := by
  rw [meetsCased, neighbor?]
  cases t.dropWhile isCaseIgnorable <;> rfl

/-- A sigma ends a word when its neighbor before it is cased and the one after it is not. -/
lemma lowerSigma_eq (before after : Text) : lowerSigma before after =
    if (neighbor? before).any isCased && !(neighbor? after).any isCased then 'ς' else 'σ' := by
  rw [lowerSigma, meetsCased_eq, meetsCased_eq]

/-- A settled sigma has the same form whatever stands around the text. -/
lemma lowerSigma_of_settles (h : settlesSigma before after = true) (u w : Text) :
    lowerSigma (before ++ u) (after ++ w) = lowerSigma before after := by
  rw [lowerSigma_eq, lowerSigma_eq, neighbor?_append, neighbor?_append]
  rw [settlesSigma, Bool.or_eq_true, Bool.or_eq_true, Bool.and_eq_true, Option.any_eq_true,
    Option.any_eq_true, Option.isSome_iff_exists, Option.isSome_iff_exists] at h
  rcases h with (⟨b, hb, huncased⟩ | ⟨a, ha, hcased⟩) | ⟨⟨b, hb⟩, a, ha⟩
  · rw [Bool.not_eq_true'] at huncased
    simp only [hb, Option.some_or, Option.any_some, huncased, Bool.false_and]
  · simp only [ha, Option.some_or, Option.any_some, hcased, Bool.not_true, Bool.and_false]
  · simp only [hb, ha, Option.some_or]

/-- A letter that settles the form of the sigmas beside it and is its own lower case. -/
structure IsPlain (x : Char) : Prop where
  neighbor : neighbor? [x] = some x
  cased : isCased x = true
  ne_sigma : x ≠ 'Σ'
  lowerChar_eq : lowerChar x = [x]

/-- A sigma that is not settled has another form with a letter in front, or with one behind. -/
lemma lowerSigma_ne_of_not_settles (h : settlesSigma before after = false) :
    (∀ x, IsPlain x → lowerSigma (before ++ [x]) after ≠ lowerSigma before after) ∨
      (∀ x, IsPlain x → lowerSigma before (after ++ [x]) ≠ lowerSigma before after) := by
  simp only [lowerSigma_eq, neighbor?_append]
  rw [settlesSigma, Bool.or_eq_false_iff, Bool.or_eq_false_iff] at h
  obtain ⟨⟨hbefore, hafter⟩, hboth⟩ := h
  cases hb : neighbor? before with
  | none =>
    refine Or.inl fun x hx => ?_
    rw [hx.neighbor, Option.none_or, Option.any_some, hx.cased, hafter]
    decide
  | some b =>
    refine Or.inr fun x hx => ?_
    have hb' : isCased b = true := by simpa [hb] using hbefore
    have ha : neighbor? after = none := by simpa [hb] using hboth
    rw [ha, hx.neighbor, Option.none_or, Option.any_some, Option.any_some, hb', hx.cased]
    decide

/-! ## Lower case between other characters -/

@[simp] lemma lowerBetween_nil (after before : Text) : lowerBetween after before [] = [] := rfl

/-- The characters of a text stand between each other. -/
lemma lowerBetween_append (after before s t : Text) : lowerBetween after before (s ++ t) =
    lowerBetween (t ++ after) before s ++ lowerBetween after (s.reverse ++ before) t := by
  induction s generalizing before with
  | nil => rfl
  | cons c rest ih =>
    rw [List.cons_append, lowerBetween, lowerBetween, ih, List.append_assoc, List.append_assoc,
      List.reverse_cons, List.append_assoc, List.singleton_append]

/-- What `lowerAfter` gives is the lower case with nothing behind. -/
lemma lowerAfter_eq (before t : Text) : lowerAfter before t = lowerBetween [] before t := by
  induction t generalizing before with
  | nil => rfl
  | cons c rest ih => rw [lowerAfter, lowerBetween, ih, List.append_nil]

lemma lower_eq (t : Text) : lower t = lowerBetween [] [] t :=
  lowerAfter_eq [] t

/-- The lower case of a text is made of the lower cases of its pieces, each between the others. -/
lemma lower_append_append (u t w : Text) : lower (u ++ t ++ w) =
    lowerBetween (t ++ w) [] u ++ lowerBetween w u.reverse t ++
      lowerBetween [] (t.reverse ++ u.reverse) w := by
  rw [lower_eq, lowerBetween_append, lowerBetween_append, List.append_nil, List.append_nil,
    List.reverse_append, List.append_nil]

/-- What stands around a text makes no difference to the number of characters. -/
lemma length_lowerBetween_eq (after before after' before' t : Text) :
    (lowerBetween after before t).length = (lowerBetween after' before' t).length := by
  induction t generalizing before before' with
  | nil => rfl
  | cons c rest ih =>
    have hchar : (if c = 'Σ' then [lowerSigma before (rest ++ after)] else lowerChar c).length =
        (if c = 'Σ' then [lowerSigma before' (rest ++ after')] else lowerChar c).length := by
      split <;> rfl
    rw [lowerBetween, lowerBetween, List.length_append, List.length_append, hchar,
      ih (c :: before) (c :: before')]

lemma length_lowerBetween (after before t : Text) :
    (lowerBetween after before t).length = (lower t).length :=
  lower_eq t ▸ length_lowerBetween_eq _ _ _ _ t

/-- When every sigma is settled, what stands around the text makes no difference. -/
lemma lowerBetween_of_settled (h : isSettledAfter before t = true) (after u : Text) :
    lowerBetween after (before ++ u) t = lowerBetween [] before t := by
  induction t generalizing before with
  | nil => rfl
  | cons c rest ih =>
    rw [isSettledAfter, Bool.and_eq_true] at h
    have hrest := ih h.2
    rw [List.cons_append] at hrest
    rw [lowerBetween, lowerBetween, hrest, List.append_nil]
    by_cases hc : c = 'Σ'
    · have hsigma : settlesSigma before rest = true := by simpa [hc] using h.1
      rw [if_pos hc, if_pos hc, lowerSigma_of_settles hsigma]
    · rw [if_neg hc, if_neg hc]

/-- A text that is not settled has a sigma that is not. -/
lemma exists_of_not_settled (h : isSettledAfter before t = false) :
    ∃ s r, t = s ++ 'Σ' :: r ∧ settlesSigma (s.reverse ++ before) r = false := by
  induction t generalizing before with
  | nil => cases h
  | cons c rest ih =>
    rw [isSettledAfter, Bool.and_eq_false_iff] at h
    rcases h with hc | hrest
    · rw [Bool.or_eq_false_iff, bne_eq_false_iff_eq] at hc
      exact ⟨[], rest, by rw [hc.1, List.nil_append], hc.2⟩
    · obtain ⟨s, r, rfl, hsigma⟩ := ih hrest
      exact ⟨c :: s, r, rfl, by simpa using hsigma⟩

/-- When a sigma has another form, so has the text. -/
lemma lowerBetween_ne {r after' before' : Text}
    (h : lowerSigma (s.reverse ++ before) (r ++ after) ≠
      lowerSigma (s.reverse ++ before') (r ++ after')) :
    lowerBetween after before (s ++ 'Σ' :: r) ≠ lowerBetween after' before' (s ++ 'Σ' :: r) := by
  intro heq
  rw [lowerBetween_append, lowerBetween_append] at heq
  have hlength : (lowerBetween ('Σ' :: r ++ after) before s).length =
      (lowerBetween ('Σ' :: r ++ after') before' s).length := length_lowerBetween_eq _ _ _ _ s
  have htail := (List.append_inj heq hlength).2
  rw [lowerBetween, lowerBetween, if_pos rfl, if_pos rfl] at htail
  exact h (List.cons.inj htail).1

/-! ## Pieces -/

/-- A text occurs in another one when it is a piece of it. -/
lemma occursIn_iff : occursIn s t = true ↔ s <:+: t := by
  induction t with
  | nil => rw [occursIn, List.isEmpty_iff, List.infix_nil]
  | cons c rest ih =>
    rw [occursIn, Bool.or_eq_true, List.isPrefixOf_iff_prefix, ih, List.infix_cons_iff]

/-- A text that occurs in another one of its length with a character in front, and is not that
text, begins with the character. -/
lemma head?_of_infix_cons {l l' : Text} (h : l <:+: x :: l') (hlength : l.length = l'.length)
    (hne : l ≠ l') : l.head? = some x := by
  rcases List.infix_cons_iff.mp h with hfront | hrest
  · cases l with
    | nil => exact absurd (List.length_eq_zero_iff.mp hlength.symm).symm hne
    | cons c rest => rw [(List.cons_prefix_cons.mp hfront).1, List.head?_cons]
  · exact absurd (hrest.eq_of_length hlength) hne

lemma getLast?_of_infix_concat {l l' : Text} (h : l <:+: l' ++ [x])
    (hlength : l.length = l'.length) (hne : l ≠ l') : l.getLast? = some x := by
  rw [← List.head?_reverse]
  have hreverse : l.reverse <:+: x :: l'.reverse := by
    rw [← List.reverse_concat, List.reverse_infix]
    exact h
  refine head?_of_infix_cons hreverse ?_ fun heq => hne (List.reverse_inj.mp heq)
  rw [List.length_reverse, List.length_reverse, hlength]

lemma lowerBetween_plain (hx : IsPlain x) (after before : Text) :
    lowerBetween after before [x] = [x] := by
  rw [lowerBetween, if_neg hx.ne_sigma, hx.lowerChar_eq, lowerBetween_nil, List.append_nil]

/-- There is always another letter to put beside a text. -/
lemma exists_plain (c? : Option Char) : ∃ x, IsPlain x ∧ c? ≠ some x := by
  have ha : IsPlain 'a' := ⟨by decide +kernel, by decide +kernel, by decide, rfl⟩
  have hb : IsPlain 'b' := ⟨by decide +kernel, by decide +kernel, by decide, rfl⟩
  by_cases hc : c? = some 'a'
  · exact ⟨'b', hb, by rw [hc]; decide⟩
  · exact ⟨'a', ha, hc⟩

/-- A settled text is found in lower case wherever it occurs. -/
lemma occursIn_lower_of_settled (h : isSettled t = true) (u w : Text) :
    occursIn (lower t) (lower (u ++ t ++ w)) = true := by
  have hpiece : lowerBetween w u.reverse t = lower t := by
    rw [lower_eq]
    exact lowerBetween_of_settled h w u.reverse
  rw [occursIn_iff, lower_append_append, hpiece]
  exact List.infix_append _ _ _

/-- A letter in front by which the text has another lower case hides the text, when the text does
not begin with it. -/
lemma not_occursIn_lower_cons (hx : IsPlain x) (hfirst : (lower t).head? ≠ some x)
    (hne : lowerBetween [] [x] t ≠ lower t) : occursIn (lower t) (lower (x :: t)) ≠ true := by
  have hlower : lower (x :: t) = x :: lowerBetween [] [x] t := by
    have hsplit := lower_append_append [x] t []
    rwa [lowerBetween_plain hx, lowerBetween_nil, List.append_nil, List.append_nil] at hsplit
  rw [Ne, occursIn_iff, hlower]
  exact fun hpiece => hfirst
    (head?_of_infix_cons hpiece (length_lowerBetween _ _ t).symm hne.symm)

lemma not_occursIn_lower_concat (hx : IsPlain x) (hlast : (lower t).getLast? ≠ some x)
    (hne : lowerBetween [x] [] t ≠ lower t) : occursIn (lower t) (lower (t ++ [x])) ≠ true := by
  have hlower : lower (t ++ [x]) = lowerBetween [x] [] t ++ [x] := by
    have hsplit := lower_append_append [] t [x]
    rwa [lowerBetween_plain hx, lowerBetween_nil, List.nil_append, List.nil_append] at hsplit
  rw [Ne, occursIn_iff, hlower]
  exact fun hpiece => hlast
    (getLast?_of_infix_concat hpiece (length_lowerBetween _ _ t).symm hne.symm)

/-- A text is found in lower case wherever it occurs exactly when it settles all its sigmas. -/
theorem occursIn_lower_iff :
    (∀ u w, occursIn (lower t) (lower (u ++ t ++ w)) = true) ↔ isSettled t = true := by
  refine ⟨fun hfound => ?_, occursIn_lower_of_settled⟩
  by_contra hunsettled
  obtain ⟨s, r, ht, hsigma⟩ := exists_of_not_settled (Bool.eq_false_of_not_eq_true hunsettled)
  rcases lowerSigma_ne_of_not_settles hsigma with hfront | hback
  · obtain ⟨x, hx, hfirst⟩ := exists_plain (lower t).head?
    refine not_occursIn_lower_cons hx hfirst ?_ (by simpa using hfound [x] [])
    rw [lower_eq, ht]
    exact lowerBetween_ne (by simpa using hfront x hx)
  · obtain ⟨x, hx, hlast⟩ := exists_plain (lower t).getLast?
    refine not_occursIn_lower_concat hx hlast ?_ (by simpa using hfound [] [x])
    rw [lower_eq, ht]
    exact lowerBetween_ne (by simpa using hback x hx)

end Wardrobe.Text
