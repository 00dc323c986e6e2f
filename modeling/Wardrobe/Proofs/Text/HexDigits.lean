import Mathlib
import Wardrobe.Proofs.Text.Pieces
import Wardrobe.Text.Hex

/-!
# Writing and reading hexadecimal digits

What is read are runs of the sixteen digits in either letter case, and the number that is read is
their value in the sense of `Nat.ofDigits`, which counts from the last digit
(`natOfHex?_eq_some_iff`).

A number is written with a fixed count of digits, of which the zeros in front are dropped.  Reading
the fixed count gives the number back (`natOfHex?_hexDigits`), and zeros in front make no difference
to what is read (`natOfHex?_dropZeros`).
-/

namespace Wardrobe.Text

/-- The sixteen digits in the order of their values. -/
def hexNumerals : Text :=
  "0123456789abcdef".toList

/-- One of the sixteen digits, in either letter case. -/
def IsHexDigit (c : Char) : Prop :=
  asciiLowerChar c ∈ hexNumerals

instance (c : Char) : Decidable (IsHexDigit c) :=
  List.instDecidableMemOfLawfulBEq (asciiLowerChar c) hexNumerals

/-- The value of a digit is its place among the sixteen. -/
def hexDigitValue (c : Char) : ℕ :=
  hexNumerals.idxOf (asciiLowerChar c)

/-- The value of a run of digits. -/
def hexNumber (digits : Text) : ℕ :=
  Nat.ofDigits 16 (digits.reverse.map hexDigitValue)

variable {digits : Text} {c : Char} {count n : Nat}

/-! ## Reading -/

/-- The digits are characters of ASCII. -/
lemma IsHexDigit.toNat_lt (h : IsHexDigit c) : c.toNat < 128 := by
  by_contra hlarge
  have hlower : asciiLowerChar c = c := by
    rw [asciiLowerChar, if_neg]
    rintro ⟨-, hZ⟩
    have hhigh : c.toNat ≤ 90 := hZ
    omega
  have hascii : hexNumerals.all (·.toNat < 128) = true := by decide
  rw [IsHexDigit, hlower] at h
  exact hlarge (of_decide_eq_true (List.all_eq_true.mp hascii c h))

/-- No other character is read as a digit either. -/
lemma hexValue?_eq_none (h : ¬ c.toNat < 128) : hexValue? c = none := by
  rw [hexValue?, if_neg, if_neg, if_neg]
  all_goals
    rintro ⟨-, hhigh⟩
    have hle : c.toNat ≤ 'f'.toNat := le_trans hhigh (by decide)
    exact h (lt_of_le_of_lt hle (by decide))

/-- A character is read as a digit when it is one of the sixteen, and then for its value. -/
lemma hexValue?_eq_some_iff : hexValue? c = some n ↔ IsHexDigit c ∧ hexDigitValue c = n := by
  have hvalue : hexValue? c = if IsHexDigit c then some (hexDigitValue c) else none := by
    by_cases hascii : c.toNat < 128
    · have hall : ∀ n < 128, hexValue? (Char.ofNat n) =
          if IsHexDigit (Char.ofNat n) then some (hexDigitValue (Char.ofNat n)) else none := by
        decide +kernel
      have hc := hall c.toNat hascii
      rwa [Char.ofNat_toNat] at hc
    · rw [if_neg (mt IsHexDigit.toNat_lt hascii), hexValue?_eq_none hascii]
  rw [hvalue]
  split_ifs with h <;> simp [h]

/-- A digit is worth less than sixteen. -/
lemma IsHexDigit.value_lt (h : IsHexDigit c) : hexDigitValue c < 16 :=
  List.idxOf_lt_length_of_mem h

/-- A digit at the end counts once, the run before it sixteen times. -/
lemma hexNumber_concat (digits : Text) (c : Char) :
    hexNumber (digits ++ [c]) = 16 * hexNumber digits + hexDigitValue c := by
  rw [hexNumber, List.reverse_append, List.reverse_singleton, List.singleton_append, List.map_cons,
    Nat.ofDigits_cons, Nat.add_comm]
  rfl

/-- A run of digits is worth less than the power of sixteen for its length. -/
lemma hexNumber_lt (h : ∀ c ∈ digits, IsHexDigit c) : hexNumber digits < 16 ^ digits.length := by
  have hlt : ∀ d ∈ digits.reverse.map hexDigitValue, d < 16 := by
    intro d hd
    obtain ⟨c, hc, rfl⟩ := List.mem_map.mp hd
    exact (h c (List.mem_reverse.mp hc)).value_lt
  have hbound := Nat.ofDigits_lt_base_pow_length (by decide) hlt
  rwa [List.length_map, List.length_reverse] at hbound

/-- A digit at the end counts once, the number before it sixteen times. -/
lemma natOfHex?_concat (digits : Text) (c : Char) : natOfHex? (digits ++ [c]) =
    (natOfHex? digits).bind fun n => (hexValue? c).map (16 * n + ·) := by
  rw [natOfHex?, List.foldlM_append]
  refine congrArg ((natOfHex? digits).bind ·) (funext fun n => ?_)
  rw [List.foldlM_cons]
  cases hexValue? c <;> rfl

/-- A run of digits is read for its value, and nothing else is read. -/
theorem natOfHex?_eq_some_iff : natOfHex? digits = some n ↔
    (∀ c ∈ digits, IsHexDigit c) ∧ hexNumber digits = n := by
  induction digits using List.reverseRecOn generalizing n with
  | nil => simp [natOfHex?, hexNumber]
  | append_singleton digits c ih =>
    rw [natOfHex?_concat, hexNumber_concat, List.forall_mem_append, List.forall_mem_singleton,
      Option.bind_eq_some_iff]
    constructor
    · rintro ⟨m, hm, h⟩
      obtain ⟨d, hd, rfl⟩ := Option.map_eq_some_iff.mp h
      obtain ⟨hdigits, rfl⟩ := ih.mp hm
      obtain ⟨hc, rfl⟩ := hexValue?_eq_some_iff.mp hd
      exact ⟨⟨hdigits, hc⟩, rfl⟩
    · rintro ⟨⟨hdigits, hc⟩, rfl⟩
      refine ⟨hexNumber digits, ih.mpr ⟨hdigits, rfl⟩, ?_⟩
      rw [hexValue?_eq_some_iff.mpr ⟨hc, rfl⟩, Option.map_some]

/-! ## Writing -/

/-- A digit is read as the number that it was written for. -/
lemma hexValue?_hexDigit (h : n < 16) : hexValue? (hexDigit n) = some n := by
  have hdigits : ∀ n < 16, hexValue? (hexDigit n) = some n := by decide
  exact hdigits n h

/-- The last digits of a number are read as what the number leaves behind the others. -/
lemma natOfHex?_hexDigits (count n : Nat) :
    natOfHex? (hexDigits count n) = some (n % 16 ^ count) := by
  induction count generalizing n with
  | zero =>
    rw [pow_zero, Nat.mod_one]
    rfl
  | succ count ih =>
    rw [hexDigits, natOfHex?_concat, ih, Option.bind_some,
      hexValue?_hexDigit (Nat.mod_lt n (by decide)), Option.map_some, pow_succ', Nat.mod_mul]
    exact congrArg some (Nat.add_comm _ _)

/-- Zeros in front make no difference. -/
lemma natOfHex?_dropZeros (digits : Text) :
    natOfHex? (digits.dropWhile (· == '0')) = natOfHex? digits := by
  induction digits with
  | nil => rfl
  | cons c digits ih =>
    by_cases hc : c = '0'
    · rw [hc, List.dropWhile_cons_of_pos (by decide), ih]
      rfl
    · rw [List.dropWhile_cons_of_neg (by simpa using hc)]

/-- The count of digits is as asked for. -/
lemma length_hexDigits (count n : Nat) : (hexDigits count n).length = count := by
  induction count generalizing n with
  | zero => rfl
  | succ count ih => rw [hexDigits, List.length_append, ih, List.length_singleton]

/-- Every digit is one of the sixteen. -/
lemma mem_hexDigits (h : c ∈ hexDigits count n) : ∃ d < 16, c = hexDigit d := by
  induction count generalizing n with
  | zero => cases h
  | succ count ih =>
    rw [hexDigits, List.mem_append, List.mem_singleton] at h
    obtain h | rfl := h
    · exact ih h
    · exact ⟨n % 16, Nat.mod_lt n (by decide), rfl⟩

/-! ## Numbers of 32 bits -/

/-- What a number of 32 bits is written as: eight digits without the zeros in front, or one zero. -/
lemma hexOfUInt32_eq (n : UInt32) :
    hexOfUInt32 n = (hexDigits 8 n.toNat).dropWhile (· == '0') ∧ hexOfUInt32 n ≠ [] ∨
      hexOfUInt32 n = ['0'] ∧ (hexDigits 8 n.toNat).dropWhile (· == '0') = [] := by
  rw [hexOfUInt32]
  split
  · next h => exact Or.inr ⟨rfl, h⟩
  · next h => exact Or.inl ⟨rfl, h⟩

/-- A number of 32 bits is read as it was written. -/
theorem natOfHex?_hexOfUInt32 (n : UInt32) : natOfHex? (hexOfUInt32 n) = some n.toNat := by
  have hlt : n.toNat < 16 ^ 8 := n.toNat_lt
  have hread : natOfHex? ((hexDigits 8 n.toNat).dropWhile (· == '0')) = some n.toNat := by
    rw [natOfHex?_dropZeros, natOfHex?_hexDigits, Nat.mod_eq_of_lt hlt]
  obtain ⟨hdigits, -⟩ | ⟨hzero, hnone⟩ := hexOfUInt32_eq n
  · rw [hdigits, hread]
  · rw [hzero, ← hread, hnone]
    rfl

/-- A number of 32 bits takes one to eight digits. -/
lemma length_hexOfUInt32 (n : UInt32) :
    hexOfUInt32 n ≠ [] ∧ (hexOfUInt32 n).length ≤ 8 := by
  obtain ⟨hdigits, hne⟩ | ⟨hzero, -⟩ := hexOfUInt32_eq n
  · refine ⟨hne, ?_⟩
    rw [hdigits, ← length_hexDigits 8 n.toNat]
    exact (List.dropWhile_suffix _).length_le
  · rw [hzero]
    decide

/-- Every character of a number of 32 bits is a digit. -/
lemma mem_hexOfUInt32 {n : UInt32} (h : c ∈ hexOfUInt32 n) : ∃ d < 16, c = hexDigit d := by
  obtain ⟨hdigits, -⟩ | ⟨hzero, -⟩ := hexOfUInt32_eq n
  · rw [hdigits] at h
    exact mem_hexDigits ((List.dropWhile_suffix _).subset h)
  · rw [hzero, List.mem_singleton] at h
    exact ⟨0, by decide, h⟩

end Wardrobe.Text
