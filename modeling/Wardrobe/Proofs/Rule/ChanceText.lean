import Mathlib
import Wardrobe.Proofs.Numeral.Rounding
import Wardrobe.Proofs.Text.DecimalDigits
import Wardrobe.Rule.Chance

/-!
# Chances and exact truncation

`Spells` lists the plain numerals, an optional sign, digits and optionally a point with more digits,
with their exact values.  The chance that such a numeral says is its value, truncated and clamped,
unless the value lies just below a whole percentage: then the rounding that comes before the
truncation reaches this percentage (`eq_exact_iff`).
-/

namespace Wardrobe

/-! ## Plain numerals -/

namespace Decimal

open Text (IsDigits)

/-- The number that a run of digits says. -/
def whole (digits : Text) : ℕ :=
  Nat.ofDigits 10 (digits.reverse.map Text.digitValue)

/-- Numerals without a sign, with their values. -/
inductive SpellsUnsigned : Text → ℚ → Prop
  | digits {w : Text} (hne : w ≠ []) (hw : IsDigits w) : SpellsUnsigned w (whole w)
  | point {w f : Text} (hne : w ≠ []) (hw : IsDigits w) (hf : IsDigits f) :
      SpellsUnsigned (w ++ '.' :: f) (whole w + whole f / 10 ^ f.length)

/-- Numerals with an optional sign, with their values. -/
inductive Spells : Text → ℚ → Prop
  | unsigned {t : Text} {v : ℚ} (h : SpellsUnsigned t v) : Spells t v
  | plus {t : Text} {v : ℚ} (h : SpellsUnsigned t v) : Spells ('+' :: t) v
  | minus {t : Text} {v : ℚ} (h : SpellsUnsigned t v) : Spells ('-' :: t) (-v)

variable {s t : Text} {v : ℚ} {negative : Bool}

/-- A numeral without a sign begins with a digit. -/
lemma SpellsUnsigned.takeSign (h : SpellsUnsigned t v) : takeSign t = (false, t) := by
  have hdigit : ∃ c rest, t = c :: rest ∧ Text.isDigit c = true := by
    cases h with
    | digits hne hw =>
      obtain ⟨c, w, rfl⟩ := List.exists_cons_of_ne_nil hne
      exact ⟨c, w, rfl, hw c List.mem_cons_self⟩
    | point hne hw hf =>
      obtain ⟨c, w, rfl⟩ := List.exists_cons_of_ne_nil hne
      exact ⟨c, _, rfl, hw c List.mem_cons_self⟩
  obtain ⟨c, rest, rfl, hc⟩ := hdigit
  rw [Decimal.takeSign.eq_def]
  split
  · next heq =>
    obtain ⟨rfl, -⟩ := List.cons.inj heq
    cases hc
  · next heq =>
    obtain ⟨rfl, -⟩ := List.cons.inj heq
    cases hc
  · rfl

lemma natOfDigits_eq_whole (w : Text) : Text.natOfDigits w = whole w :=
  Text.natOfDigits_eq_ofDigits w

/-- Digits, and digits behind a point, say the same as all of them moved in front of the point. -/
lemma magnitude_append (negative : Bool) (w f : Text) :
    magnitude ⟨negative, Text.natOfDigits (w ++ f), 0 - f.length⟩ =
      whole w + whole f / 10 ^ f.length := by
  rw [magnitude, Text.natOfDigits_append, natOfDigits_eq_whole, natOfDigits_eq_whole, zero_sub,
    zpow_neg, zpow_natCast]
  push_cast
  field_simp

/-- Behind its sign a numeral is read with its value. -/
lemma SpellsUnsigned.exists_ofText? (h : SpellsUnsigned t v)
    (hsign : Decimal.takeSign s = (negative, t)) :
    ∃ d, ofText? s = some d ∧ d.negative = negative ∧ d.magnitude = v := by
  cases h with
  | digits hne hw =>
    refine ⟨⟨negative, Text.natOfDigits (t ++ []), 0 - ([] : Text).length⟩, ?_, rfl, ?_⟩
    · simp only [ofText?, hsign, Text.span_isDigit_self hw, takeFraction, hne, false_and, if_false,
        exponentOfText?, Option.map_some]
    · rw [magnitude_append]
      simp [whole]
  | @point w f hne hw hf =>
    have hpoint : ∀ c ∈ ('.' :: f).head?, Text.isDigit c = false := by
      rintro c ⟨⟩
      decide
    refine ⟨⟨negative, Text.natOfDigits (w ++ f), 0 - f.length⟩, ?_, rfl, magnitude_append ..⟩
    simp only [ofText?, hsign, Text.span_isDigit_append hw hpoint, takeFraction,
      Text.span_isDigit_self hf, hne, false_and, if_false, exponentOfText?, Option.map_some]

/-- A plain numeral is read with its value, split into sign and magnitude. -/
lemma Spells.exists_ofText? (h : Spells t v) : ∃ d, ofText? t = some d ∧
    v = if d.negative then -d.magnitude else d.magnitude := by
  cases h with
  | unsigned h =>
    obtain ⟨d, hread, hsign, rfl⟩ := h.exists_ofText? h.takeSign
    exact ⟨d, hread, by rw [hsign]; rfl⟩
  | plus h =>
    obtain ⟨d, hread, hsign, rfl⟩ := h.exists_ofText? (s := '+' :: _) rfl
    exact ⟨d, hread, by rw [hsign]; rfl⟩
  | minus h =>
    obtain ⟨d, hread, hsign, rfl⟩ := h.exists_ofText? (s := '-' :: _) rfl
    exact ⟨d, hread, by rw [hsign]; rfl⟩

end Decimal

/-! ## Chances -/

namespace Chance

open Binary64 (slack)
open Decimal (Spells)

/-- A percentage without its fraction, clamped. -/
def exact (v : ℚ) : ℤ :=
  max 0 (min always (if 0 ≤ v then ⌊v⌋ else ⌈v⌉))

/-- A percentage so little below a whole one that rounding reaches it. -/
structure RoundsUp (v : ℚ) (k : ℕ) : Prop where
  pos : 1 ≤ k
  le : k ≤ always
  near : (k : ℚ) - slack k ≤ v
  below : v < k

variable {t : Text} {v : ℚ} {c k : ℕ}

/-- A chance reaches a whole percentage exactly when the numeral is at most `slack k` below it. -/
lemma le_iff (hv : Spells (Text.trim t) v) (hc : ofText t = .ok c) (hk₁ : 1 ≤ k) (hk : k ≤ always) :
    k ≤ c ↔ (k : ℚ) - slack k ≤ v := by
  have hbig : k ≤ 2 ^ 52 := hk.trans (by decide)
  obtain ⟨d, hread, rfl⟩ := hv.exists_ofText?
  rw [ofText] at hc
  simp only [hread] at hc
  split at hc
  · cases hc
  · next m hm =>
    obtain rfl := Except.ok.inj hc
    cases hsign : d.negative with
    | false =>
      rw [if_neg Bool.false_ne_true, if_neg Bool.false_ne_true, le_min_iff,
        Binary64.le_truncate_iff hm hk₁ hbig]
      exact and_iff_right hk
    | true =>
      have hmagnitude : 0 ≤ d.magnitude := by
        rw [Decimal.magnitude]
        positivity
      have hone : (1 : ℚ) ≤ k := Nat.one_le_cast.mpr hk₁
      have hquarter := Binary64.slack_le hbig
      rw [if_pos rfl, if_pos rfl]
      exact iff_of_false (by omega) (by linarith)

lemma le_always (hc : ofText t = .ok c) : c ≤ always := by
  rw [ofText] at hc
  split at hc
  · cases hc
  · split at hc
    · cases hc
    · obtain rfl := Except.ok.inj hc
      split_ifs
      · exact Nat.zero_le _
      · exact min_le_left _ _

/-- Exact truncation reaches the whole percentages up to the value. -/
lemma le_exact_iff (hk₁ : 1 ≤ k) (hk : k ≤ always) : (k : ℤ) ≤ exact v ↔ (k : ℚ) ≤ v := by
  have hk₁' : (1 : ℤ) ≤ k := by exact_mod_cast hk₁
  have hk' : (k : ℤ) ≤ always := by exact_mod_cast hk
  rw [exact, le_max_iff, le_min_iff]
  have hzero : ¬ (k : ℤ) ≤ 0 := by omega
  simp only [hzero, hk', false_or, true_and]
  split_ifs with hv
  · rw [Int.le_floor]
    rfl
  · have hone : (1 : ℚ) ≤ k := Nat.one_le_cast.mpr hk₁
    have hceil : ⌈v⌉ ≤ 0 := Int.ceil_le.mpr (by push_cast; linarith)
    exact iff_of_false (by omega) (by linarith)

lemma exact_nonneg (v : ℚ) : 0 ≤ exact v :=
  le_max_left 0 _

lemma exact_le_always (v : ℚ) : exact v ≤ always :=
  max_le (Int.natCast_nonneg always) (min_le_left _ _)

/-- A chance that reaches the same whole percentages as the exact truncation is that truncation. -/
lemma eq_exact_of_forall (hc : c ≤ always) (h : ∀ k, 1 ≤ k → k ≤ always → (k ≤ c ↔ (k : ℚ) ≤ v)) :
    (c : ℤ) = exact v := by
  have hreach : ∀ k : ℕ, 1 ≤ k → k ≤ always → (k ≤ c ↔ (k : ℤ) ≤ exact v) :=
    fun k hk₁ hk => (h k hk₁ hk).trans (le_exact_iff hk₁ hk).symm
  have hle := exact_le_always v
  obtain ⟨n, hn⟩ := Int.eq_ofNat_of_zero_le (exact_nonneg v)
  rw [hn] at hreach hle ⊢
  simp only [Nat.cast_le] at hreach hle
  refine congrArg Nat.cast (le_antisymm ?_ ?_)
  · rcases Nat.eq_zero_or_pos c with rfl | hpos
    · exact Nat.zero_le n
    · exact (hreach c hpos hc).mp le_rfl
  · rcases Nat.eq_zero_or_pos n with rfl | hpos
    · exact Nat.zero_le c
    · exact (hreach n hpos hle).mpr le_rfl

/-- A value that rounds up to a whole percentage becomes this percentage. -/
lemma RoundsUp.eq (h : RoundsUp v k) (hv : Spells (Text.trim t) v) (hc : ofText t = .ok c) :
    c = k := by
  apply le_antisymm
  · -- the next percentage is out of reach
    by_contra hlarge
    have hnext : k + 1 ≤ always := (Nat.lt_of_not_le hlarge).trans_le (le_always hc)
    have hreach := (le_iff hv hc (Nat.succ_pos k) hnext).mp (Nat.lt_of_not_le hlarge)
    have hquarter := Binary64.slack_le (hnext.trans (by decide))
    have hbelow := h.below
    push_cast at hreach
    linarith
  · exact (le_iff hv hc h.pos h.le).mpr h.near

/-- A chance is the exact truncation of a plain numeral if and only if its value does not lie just
below a whole percentage that rounding reaches; else it is this percentage. -/
theorem eq_exact_iff (hv : Spells (Text.trim t) v) (hc : ofText t = .ok c) :
    ((c : ℤ) = exact v ↔ ∀ k, ¬ RoundsUp v k) ∧ ∀ k, RoundsUp v k → c = k := by
  refine ⟨⟨?_, fun hno => ?_⟩, fun k hk => hk.eq hv hc⟩
  · intro hexact k hk
    have hreach : (k : ℤ) ≤ exact v := by rw [← hexact, hk.eq hv hc]
    exact ((le_exact_iff hk.pos hk.le).mp hreach).not_gt hk.below
  · -- without such a percentage the chance and the exact truncation reach the same ones
    refine eq_exact_of_forall (le_always hc) fun k hk₁ hk => ?_
    rw [le_iff hv hc hk₁ hk]
    constructor
    · intro hnear
      exact not_lt.mp fun hbelow => hno k ⟨hk₁, hk, hnear, hbelow⟩
    · intro hle
      have hslack := Binary64.slack_pos k
      linarith

/-- `33.9` says the chance 33. -/
theorem eq_exact_of_fraction :
    Spells (Text.trim " 33.9".toList) (33 + 9 / 10) ∧ ofText " 33.9".toList = .ok 33 ∧
    (((33 : ℕ) : ℤ) = exact (33 + 9 / 10) ↔ ∀ k, ¬ RoundsUp (33 + 9 / 10) k) ∧
      ∀ k, RoundsUp (33 + 9 / 10) k → 33 = k := by
  have hspells : Spells (Text.trim " 33.9".toList) (33 + 9 / 10) := by
    have hpoint := Decimal.SpellsUnsigned.point (w := ['3', '3']) (f := ['9'])
      (by decide) (by decide) (by decide)
    have hwhole : Decimal.whole ['3', '3'] = 33 := (Decimal.natOfDigits_eq_whole _).symm
    have hfraction : Decimal.whole ['9'] = 9 := (Decimal.natOfDigits_eq_whole _).symm
    have htrim : Text.trim " 33.9".toList = ['3', '3'] ++ '.' :: ['9'] := by decide
    rw [hwhole, hfraction, List.length_singleton, pow_one] at hpoint
    rw [htrim]
    exact .unsigned hpoint
  have hok : ofText " 33.9".toList = .ok 33 := by decide +kernel
  exact ⟨hspells, hok, eq_exact_iff hspells hok⟩

/-- `99.999999999999999` is below 100 and says 100: the rule always applies. -/
theorem not_eq_exact_of_nines : ¬ ∀ (t : Text) (v : ℚ) (c : ℕ), Spells (Text.trim t) v →
    ofText t = .ok c → (c : ℤ) = exact v := by
  intro h
  have hpoint := Decimal.SpellsUnsigned.point (w := ['9', '9']) (f := List.replicate 15 '9')
    (by decide) (by decide) (by decide)
  have hwhole : Decimal.whole ['9', '9'] = 99 := (Decimal.natOfDigits_eq_whole _).symm
  have hfraction : Decimal.whole (List.replicate 15 '9') = 999999999999999 :=
    (Decimal.natOfDigits_eq_whole _).symm
  have htrim : Text.trim "99.999999999999999".toList =
    ['9', '9'] ++ '.' :: List.replicate 15 '9' := by decide
  have hok : ofText "99.999999999999999".toList = .ok 100 := by decide +kernel
  rw [hwhole, hfraction, List.length_replicate, ← htrim] at hpoint
  have hexact := h _ _ 100 (.unsigned hpoint) hok
  have hle := (le_exact_iff (by decide) le_rfl).mp hexact.le
  norm_num [always] at hle

end Chance

end Wardrobe
