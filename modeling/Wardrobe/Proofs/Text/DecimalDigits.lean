import Mathlib
import Wardrobe.Text.Basic

/-!
# Runs of decimal digits

The value of a run of digits in the sense of `Nat.ofDigits`, which counts from the last digit
(`natOfDigits_eq_ofDigits`), and of a run in two parts (`natOfDigits_append`).  A run of digits in
front of a text ends where another character stands (`span_isDigit_append`).
-/

namespace Wardrobe.Text

/-- The value of a digit. -/
def digitValue (c : Char) : ℕ :=
  c.toNat - '0'.toNat

/-- Digits and nothing else. -/
def IsDigits (t : Text) : Prop :=
  ∀ c ∈ t, isDigit c = true

instance (t : Text) : Decidable (IsDigits t) :=
  List.decidableBAll (isDigit · = true) t

variable {digits rest s t : Text} {c : Char}

/-- The value of a run of digits, written from its last digit on. -/
lemma natOfDigits_eq_ofDigits (t : Text) :
    natOfDigits t = Nat.ofDigits 10 (t.reverse.map digitValue) := by
  induction t using List.reverseRecOn with
  | nil => rfl
  | append_singleton t c ih =>
    rw [natOfDigits, List.foldl_append, List.foldl_cons, List.foldl_nil, ← natOfDigits, ih,
      List.reverse_append, List.reverse_singleton, List.singleton_append, List.map_cons,
      Nat.ofDigits_cons, Nat.add_comm]
    rfl

/-- Behind more digits a run is worth a power of ten for each of them. -/
lemma natOfDigits_append (s t : Text) :
    natOfDigits (s ++ t) = natOfDigits s * 10 ^ t.length + natOfDigits t := by
  simp only [natOfDigits_eq_ofDigits, List.reverse_append, List.map_append, Nat.ofDigits_append,
    List.length_map, List.length_reverse]
  ring

/-- Blanks are no digits. -/
lemma isDigit_of_isBlank (hc : isBlank c = true) : isDigit c = false := by
  rw [Bool.eq_false_iff]
  intro hdigit
  rw [isDigit, Bool.and_eq_true, decide_eq_true_eq, decide_eq_true_eq] at hdigit
  have hlow : '0'.toNat ≤ c.toNat := hdigit.1
  have hhigh : c.toNat ≤ '9'.toNat := hdigit.2
  have hzero : '0'.toNat = 48 := rfl
  have hnine : '9'.toNat = 57 := rfl
  simp only [isBlank, Bool.or_eq_true, Bool.and_eq_true, decide_eq_true_eq, beq_iff_eq] at hc
  omega

/-- A run of digits ends before a character that is none. -/
lemma span_isDigit_append (hdigits : IsDigits digits)
    (hrest : ∀ c ∈ rest.head?, isDigit c = false) :
    (digits ++ rest).span isDigit = (digits, rest) := by
  have htake : rest.takeWhile isDigit = [] := by
    cases rest with
    | nil => rfl
    | cons c rest => exact List.takeWhile_cons_of_neg (by simp [hrest c rfl])
  have hdrop : rest.dropWhile isDigit = rest := by
    cases rest with
    | nil => rfl
    | cons c rest => exact List.dropWhile_cons_of_neg (by simp [hrest c rfl])
  rw [List.span_eq_takeWhile_dropWhile, List.takeWhile_append_of_pos hdigits,
    List.dropWhile_append_of_pos hdigits, htake, hdrop, List.append_nil]

lemma span_isDigit_self (hdigits : IsDigits digits) : digits.span isDigit = (digits, []) := by
  have hnone : ∀ c ∈ ([] : Text).head?, isDigit c = false := nofun
  have hspan := span_isDigit_append hdigits hnone
  rwa [List.append_nil] at hspan

/-- What is taken off the front of a text are digits, and what is left begins with none. -/
lemma span_isDigit_spec (t : Text) : t = (t.span isDigit).1 ++ (t.span isDigit).2 ∧
    IsDigits (t.span isDigit).1 ∧ ∀ c ∈ (t.span isDigit).2.head?, isDigit c = false := by
  rw [List.span_eq_takeWhile_dropWhile]
  refine ⟨List.takeWhile_append_dropWhile.symm, fun c hc => List.mem_takeWhile_imp hc, ?_⟩
  intro c hc
  have hhead := List.head?_dropWhile_not isDigit t
  rw [Option.mem_def.mp hc] at hhead
  exact hhead

end Wardrobe.Text
