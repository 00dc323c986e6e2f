import Mathlib
import Wardrobe.Numeral.Binary64

/-!
# Rounding and the whole numbers

Below `2 ^ 53` every whole number is a floating point number, so rounding a quotient to the nearest
one never carries it down across a whole number.  It does carry up: the floating point numbers just
below `k` are `2 * slack k` apart, and a quotient at most `slack k` below `k` becomes `k`, the tie
included since the significand of `k` is even.  `le_truncate_nearest_iff` says that this is all that
the rounding changes about the part before the point, and `le_truncate_iff` says it of decimal
numerals.
-/

namespace Wardrobe

/-- The value of a numeral without its sign. -/
def Decimal.magnitude (d : Decimal) : ℚ :=
  d.digits * 10 ^ d.exponent

namespace Binary64

variable {num den n d k : ℕ} {e : ℤ}

/-! ## Rounding a quotient -/

/-- An even number is reached by rounding from a half below it on: the tie goes to the even
neighbour. -/
lemma le_roundDiv_iff (hd : 0 < d) (hk : Even k) :
    k ≤ roundDiv n d ↔ (k : ℚ) - 1 / 2 ≤ (n : ℚ) / d := by
  have hd' : (0 : ℚ) < d := Nat.cast_pos.mpr hd
  have hscaled : (k : ℚ) - 1 / 2 ≤ (n : ℚ) / d ↔ 2 * (k * d) ≤ 2 * n + d := by
    rw [le_div_iff₀ hd', ← Nat.cast_le (α := ℚ)]
    push_cast
    constructor <;> intro h <;> linarith
  have hround : k ≤ roundDiv n d ↔ k ≤ n / d ∨ k = n / d + 1 ∧ d ≤ 2 * (n % d) := by
    obtain ⟨m, rfl⟩ := hk
    simp only [roundDiv]
    split_ifs <;> omega
  have hsplit : n / d * d + n % d = n := Nat.div_add_mod' n d
  have hlt : n % d < d := Nat.mod_lt n hd
  rw [hscaled, hround]
  rcases lt_trichotomy k (n / d + 1) with hle | rfl | hlarge
  · have hscale : k * d ≤ n / d * d := Nat.mul_le_mul_right d (Nat.lt_succ_iff.mp hle)
    omega
  · rw [Nat.add_one_mul (n / d)]
    omega
  · have hscale : (n / d + 1 + 1) * d ≤ k * d := Nat.mul_le_mul_right d (Nat.succ_le_of_lt hlarge)
    rw [Nat.add_one_mul, Nat.add_one_mul] at hscale
    omega

/-! ## Units -/

lemma inUnits_den_pos (hden : 0 < den) (num : ℕ) (e : ℤ) : 0 < (inUnits num den e).2 := by
  rw [inUnits]
  split_ifs
  · exact Nat.mul_pos hden (Nat.two_pow_pos _)
  · exact hden

/-- In units of `2 ^ e` a quotient is divided by `2 ^ e`. -/
lemma inUnits_div (num den : ℕ) (e : ℤ) :
    ((inUnits num den e).1 : ℚ) / (inUnits num den e).2 = num / den / 2 ^ e := by
  rw [inUnits]
  split_ifs with he
  · obtain ⟨m, rfl⟩ := Int.eq_ofNat_of_zero_le he
    rw [Int.toNat_natCast, Nat.pow_eq, Nat.cast_mul, Nat.cast_pow, zpow_natCast, div_div]
    rfl
  · obtain ⟨m, rfl⟩ : ∃ m : ℕ, e = -m := ⟨(-e).toNat, by omega⟩
    rw [neg_neg, Int.toNat_natCast, Nat.pow_eq, Nat.cast_mul, Nat.cast_pow, zpow_neg, zpow_natCast,
      div_inv_eq_mul, mul_div_right_comm]
    rfl

/-- A number in terms of its binary logarithm. -/
lemma log2_bounds (hn : 0 < n) :
    (2 : ℚ) ^ (n.log2 : ℤ) ≤ n ∧ (n : ℚ) < 2 ^ ((n.log2 : ℤ) + 1) := by
  constructor
  · rw [zpow_natCast]
    exact_mod_cast Nat.log2_self_le hn.ne'
  · rw [← Nat.cast_one, ← Nat.cast_add, zpow_natCast]
    exact_mod_cast Nat.lt_log2_self

/-- A quotient in terms of the binary logarithms of its parts. -/
lemma div_bounds (hnum : 0 < num) (hden : 0 < den) :
    (2 : ℚ) ^ ((num.log2 : ℤ) - den.log2 - 1) ≤ num / den ∧
      (num : ℚ) / den < 2 ^ ((num.log2 : ℤ) - den.log2 + 1) := by
  have hden' : (0 : ℚ) < den := Nat.cast_pos.mpr hden
  obtain ⟨hnum₁, hnum₂⟩ := log2_bounds hnum
  obtain ⟨hden₁, hden₂⟩ := log2_bounds hden
  constructor
  · rw [le_div_iff₀ hden']
    calc (2 : ℚ) ^ ((num.log2 : ℤ) - den.log2 - 1) * den
        ≤ 2 ^ ((num.log2 : ℤ) - den.log2 - 1) * 2 ^ ((den.log2 : ℤ) + 1) := by gcongr
      _ = 2 ^ (num.log2 : ℤ) := by
        rw [← zpow_add₀ two_ne_zero]
        congr 1
        ring
      _ ≤ num := hnum₁
  · rw [div_lt_iff₀ hden']
    calc (num : ℚ) < 2 ^ ((num.log2 : ℤ) + 1) := hnum₂
      _ = 2 ^ ((num.log2 : ℤ) - den.log2 + 1) * 2 ^ (den.log2 : ℤ) := by
        rw [← zpow_add₀ two_ne_zero]
        congr 1
        ring
      _ ≤ 2 ^ ((num.log2 : ℤ) - den.log2 + 1) * den := by gcongr

/-- The part of a quotient before the point has at most 53 bits in units of `2 ^ e` exactly when the
quotient is below `2 ^ (e + 53)`. -/
lemma inUnits_div_lt_iff (hden : 0 < den) (num : ℕ) (e : ℤ) :
    (inUnits num den e).1 / (inUnits num den e).2 < Nat.pow 2 53 ↔
      (num : ℚ) / den < 2 ^ (e + 53) := by
  have hpos := inUnits_den_pos hden num e
  have hpos' : (0 : ℚ) < (inUnits num den e).2 := Nat.cast_pos.mpr hpos
  rw [Nat.div_lt_iff_lt_mul hpos, ← Nat.cast_lt (α := ℚ), Nat.cast_mul, ← div_lt_iff₀ hpos',
    inUnits_div, div_lt_iff₀ (zpow_pos two_pos e), zpow_add₀ two_ne_zero, mul_comm ((2 : ℚ) ^ e)]
  rfl

/-- The unit of the last place leaves 53 bits before the point, unless it is the least unit. -/
lemma unitOf_spec (hnum : 0 < num) (hden : 0 < den) :
    (num : ℚ) / den < 2 ^ (unitOf num den + 53) ∧
      ((2 : ℚ) ^ (unitOf num den + 52) ≤ num / den ∨ unitOf num den = -1074) := by
  -- the logarithms leave 53 bits or 54, and are corrected in the second case
  obtain ⟨e, hunit, hlow, hhigh⟩ : ∃ e, unitOf num den = max e (-1074) ∧
      (2 : ℚ) ^ (e + 52) ≤ num / den ∧ (num : ℚ) / den < 2 ^ (e + 53) := by
    obtain ⟨hlow, hhigh⟩ := div_bounds hnum hden
    rw [unitOf]
    generalize hguess : (num.log2 : ℤ) - den.log2 - 53 = e₀
    by_cases hsmall : (num : ℚ) / den < 2 ^ (e₀ + 53)
    · refine ⟨e₀, ?_, ?_, hsmall⟩
      · exact congrArg (max · (-1074)) (if_pos ((inUnits_div_lt_iff hden num e₀).mpr hsmall))
      · rwa [← hguess, show (num.log2 : ℤ) - den.log2 - 53 + 52 = num.log2 - den.log2 - 1 by ring]
    · refine ⟨e₀ + 1, ?_, ?_, ?_⟩
      · exact congrArg (max · (-1074)) (if_neg (mt (inUnits_div_lt_iff hden num e₀).mp hsmall))
      · rw [add_assoc]
        exact not_lt.mp hsmall
      · rwa [← hguess,
          show (num.log2 : ℤ) - den.log2 - 53 + 1 + 53 = num.log2 - den.log2 + 1 by ring]
  rw [hunit]
  refine ⟨hhigh.trans_le (zpow_le_zpow_right₀ one_le_two (by omega)), ?_⟩
  rcases max_choice e (-1074) with hmax | hmax
  · exact .inl (hmax.symm ▸ hlow)
  · exact .inr hmax

/-! ## Whole numbers -/

/-- Half the distance from `k` to the floating point number before it. -/
def slack (k : ℕ) : ℚ :=
  2 ^ Nat.clog 2 k / 2 ^ 54

lemma slack_eq_zpow (k : ℕ) : slack k = 2 ^ ((Nat.clog 2 k : ℤ) - 54) := by
  rw [slack, zpow_sub₀ two_ne_zero, zpow_natCast]
  rfl

lemma slack_pos (k : ℕ) : 0 < slack k := by
  rw [slack]
  positivity

lemma slack_le (hk : k ≤ 2 ^ 52) : slack k ≤ 1 / 4 := by
  have hclog : Nat.clog 2 k ≤ 52 := Nat.clog_le_of_le_pow hk
  calc slack k = 2 ^ Nat.clog 2 k / 2 ^ 54 := rfl
    _ ≤ 2 ^ 52 / 2 ^ 54 := by gcongr; norm_num
    _ = 1 / 4 := by norm_num

/-- With places behind the point a whole number is reached from half a unit below it on. -/
lemma le_truncate_iff_of_neg (hden : 0 < den) (he : e < 0) (k : ℕ) :
    k ≤ Magnitude.truncate ⟨roundDiv (inUnits num den e).1 (inUnits num den e).2, e⟩ ↔
      (k : ℚ) - 2 ^ (e - 1) ≤ num / den := by
  obtain ⟨m, rfl⟩ : ∃ m : ℕ, e = -(m + 1 : ℕ) := ⟨(-e - 1).toNat, by omega⟩
  have heven : Even (k * 2 ^ (m + 1)) := (Nat.even_pow.mpr ⟨even_two, m.succ_ne_zero⟩).mul_left k
  have hpos : (0 : ℚ) < 2 ^ (-(m + 1 : ℕ) : ℤ) := zpow_pos two_pos _
  have hunit : ((k * 2 ^ (m + 1) : ℕ) - 1 / 2 : ℚ) * 2 ^ (-(m + 1 : ℕ) : ℤ) =
      k - 2 ^ (-(m + 1 : ℕ) - 1 : ℤ) := by
    rw [zpow_sub_one₀ two_ne_zero, zpow_neg, zpow_natCast]
    push_cast
    field_simp
  rw [Magnitude.truncate, if_neg he.not_ge, neg_neg, Int.toNat_natCast, Nat.pow_eq,
    Nat.le_div_iff_mul_le (Nat.two_pow_pos _), le_roundDiv_iff (inUnits_den_pos hden num _) heven,
    inUnits_div, le_div_iff₀ hpos, hunit]

/-- Without places behind the point the significand has 53 bits, and every small whole number is
reached. -/
lemma le_truncate_of_nonneg (hden : 0 < den) (he : 0 ≤ e) (hlow : (2 : ℚ) ^ (e + 52) ≤ num / den)
    (hk : k ≤ 2 ^ 52) :
    k ≤ Magnitude.truncate ⟨roundDiv (inUnits num den e).1 (inUnits num den e).2, e⟩ := by
  have hsignificand : 2 ^ 52 ≤ roundDiv (inUnits num den e).1 (inUnits num den e).2 := by
    rw [le_roundDiv_iff (inUnits_den_pos hden num e) (by decide), inUnits_div,
      le_div_iff₀ (zpow_pos two_pos e)]
    rw [zpow_add₀ two_ne_zero] at hlow
    have hpos : (0 : ℚ) < 2 ^ e := zpow_pos two_pos e
    push_cast
    linarith [show (2 : ℚ) ^ (52 : ℤ) = 2 ^ 52 from rfl]
  rw [Magnitude.truncate, if_pos he]
  exact (hk.trans hsignificand).trans (Nat.le_mul_of_pos_right _ (Nat.two_pow_pos _))

/-- A number below a power of two that is below `k` is more than a half below `k`. -/
lemma lt_sub_half_of_lt_zpow {x : ℚ} (hk : 1 ≤ k) (he : e < Nat.clog 2 k) (hx : x < 2 ^ e) :
    x < k - 1 / 2 := by
  rcases hk.eq_or_lt with rfl | hk
  · have hhalf : (2 : ℚ) ^ e ≤ 2 ^ (-1 : ℤ) := by
      rw [Nat.clog_one_right] at he
      exact zpow_le_zpow_right₀ one_le_two (by omega)
    rw [zpow_neg_one] at hhalf
    push_cast
    linarith
  · obtain ⟨p, hp⟩ := Nat.exists_eq_succ_of_ne_zero (Nat.clog_pos one_lt_two hk).ne'
    have hpow : 2 ^ p < k := (Nat.lt_clog_iff_pow_lt one_lt_two).mp (by omega)
    have hbound : (2 : ℚ) ^ e ≤ 2 ^ p := by
      rw [← zpow_natCast]
      exact zpow_le_zpow_right₀ one_le_two (by omega)
    have hcast : (2 : ℚ) ^ p + 1 ≤ k := by exact_mod_cast hpow
    linarith

/-- The part before the point of a quotient reaches a whole number exactly when the quotient is at
most `slack k` below it. -/
lemma le_truncate_nearest_iff (hnum : 0 < num) (hden : 0 < den) (hk₁ : 1 ≤ k) (hk : k ≤ 2 ^ 52) :
    k ≤ (nearest num den).truncate ↔ (k : ℚ) - slack k ≤ num / den := by
  obtain ⟨hhigh, hlow⟩ := unitOf_spec hnum hden
  have hslack := slack_pos k
  have hquarter := slack_le hk
  have hclog : Nat.clog 2 k ≤ 52 := Nat.clog_le_of_le_pow hk
  have hkpow : (k : ℚ) ≤ 2 ^ (Nat.clog 2 k : ℤ) := by
    rw [zpow_natCast]
    exact_mod_cast Nat.le_pow_clog one_lt_two k
  rw [nearest]
  generalize unitOf num den = e at *
  dsimp only
  -- the unit is that of the numbers just below `k`, or the quotient is far from `k`
  rcases lt_trichotomy e ((Nat.clog 2 k : ℤ) - 53) with he | rfl | he
  · have hfar := lt_sub_half_of_lt_zpow hk₁ (by omega) hhigh
    have hunit : (2 : ℚ) ^ (e - 1) ≤ 2 ^ (-1 : ℤ) := zpow_le_zpow_right₀ one_le_two (by omega)
    rw [zpow_neg_one] at hunit
    rw [le_truncate_iff_of_neg hden (by omega)]
    exact iff_of_false (by linarith) (by linarith)
  · rw [le_truncate_iff_of_neg hden (by omega), slack_eq_zpow, sub_sub]
    rfl
  · replace hlow := hlow.resolve_right (by omega)
    have hreach : (k : ℚ) ≤ num / den :=
      (hkpow.trans (zpow_le_zpow_right₀ one_le_two (by omega))).trans hlow
    refine iff_of_true ?_ (by linarith)
    rcases lt_or_ge e 0 with hneg | hnonneg
    · rw [le_truncate_iff_of_neg hden hneg]
      have hunit : (0 : ℚ) < 2 ^ (e - 1) := zpow_pos two_pos _
      linarith
    · exact le_truncate_of_nonneg hden hnonneg hlow hk

/-! ## Decimal numerals -/

/-- The length of a number in digits bounds the number. -/
lemma lt_pow_digitCount (hn : 0 < n) : n < 10 ^ Decimal.digitCount n := by
  rw [Decimal.digitCount, if_neg hn.ne',
    ← Nat.length_toDigits_le_iff (by decide) Nat.length_toDigits_pos]

/-- Numerals that are told by their length to be out of range below are less than a half. -/
lemma magnitude_lt_half {d : Decimal}
    (h : d.digits = 0 ∨ Decimal.digitCount d.digits + d.exponent < -400) : d.magnitude < 1 / 2 := by
  rcases Nat.eq_zero_or_pos d.digits with hzero | hpos
  · rw [Decimal.magnitude, hzero, Nat.cast_zero, zero_mul]
    norm_num
  · have hshort := h.resolve_left hpos.ne'
    calc d.magnitude
        < 10 ^ (Decimal.digitCount d.digits : ℤ) * 10 ^ d.exponent := by
          rw [Decimal.magnitude, zpow_natCast]
          gcongr
          exact_mod_cast lt_pow_digitCount hpos
      _ = 10 ^ (Decimal.digitCount d.digits + d.exponent) := (zpow_add₀ (by norm_num) _ _).symm
      _ ≤ 10 ^ (-1 : ℤ) := zpow_le_zpow_right₀ (by norm_num) (by omega)
      _ < 1 / 2 := by norm_num

/-- The part before the point of a rounded numeral reaches a whole number exactly when the numeral
is at most `slack k` below it. -/
lemma le_truncate_iff {d : Decimal} {m : Magnitude} (h : ofDecimal? d = some m) (hk₁ : 1 ≤ k)
    (hk : k ≤ 2 ^ 52) : k ≤ m.truncate ↔ (k : ℚ) - slack k ≤ d.magnitude := by
  rw [ofDecimal?] at h
  dsimp only at h
  split_ifs at h with htiny _ hexponent _ _
  · obtain rfl := Option.some.inj h
    have hzero : Magnitude.truncate ⟨0, 0⟩ = 0 := by decide
    have hone : (1 : ℚ) ≤ k := Nat.one_le_cast.mpr hk₁
    have hhalf := magnitude_lt_half htiny
    have hquarter := slack_le hk
    rw [hzero]
    exact iff_of_false (by omega) (by linarith)
  · obtain rfl := Option.some.inj h
    have hpos : 0 < d.digits := Nat.pos_of_ne_zero (not_or.mp htiny).1
    have hvalue : ((d.digits * 10 ^ d.exponent.toNat : ℕ) : ℚ) / (1 : ℕ) = d.magnitude := by
      rw [Decimal.magnitude, Nat.cast_one, div_one, Nat.cast_mul, Nat.cast_pow, ← zpow_natCast,
        Int.toNat_of_nonneg hexponent]
      rfl
    rw [← hvalue]
    exact le_truncate_nearest_iff (Nat.mul_pos hpos (Nat.pow_pos (by decide))) one_pos hk₁ hk
  · obtain rfl := Option.some.inj h
    have hpos : 0 < d.digits := Nat.pos_of_ne_zero (not_or.mp htiny).1
    have hvalue : (d.digits : ℚ) / (10 ^ (-d.exponent).toNat : ℕ) = d.magnitude := by
      rw [Decimal.magnitude, Nat.cast_pow, ← zpow_natCast, Int.toNat_of_nonneg (by omega), zpow_neg,
        div_inv_eq_mul]
      rfl
    rw [← hvalue]
    exact le_truncate_nearest_iff hpos (Nat.pow_pos (by decide)) hk₁ hk

end Binary64

end Wardrobe
