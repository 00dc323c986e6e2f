import Wardrobe.Digest.Blake3
import Wardrobe.Record.Actor
import Wardrobe.Rule.Basic
import Wardrobe.Text.Utf8

/-!
# The chance gate

A rule with a chance below one hundred applies to a part of the actors it selects. Which part is
fixed: the gate draws its number from a hash of the actor's key and the rule as written in its
least form, so that comments and spacing do not move it.
-/

namespace Wardrobe.Gate

/-- The number from 0 to 99 that an identity draws: the first eight bytes of its hash, least byte
first, modulo one hundred. -/
def draw (identity : Text) : Nat :=
  let words := Blake3.hash (Text.toUtf8 identity)
  ((words.get 0).toNat + (words.get 1).toNat * 0x100000000) % 100

/-- True when an identity passes a gate. A chance of one hundred or more always passes and a
chance of zero never does. -/
def passes (identity : Text) (chance : Nat) : Bool :=
  if 100 ≤ chance then true
  else if chance = 0 then false
  else draw identity < chance

/-- The least chance with which an identity passes. -/
def threshold (identity : Text) : Nat :=
  draw identity + 1

theorem threshold_pos (identity : Text) : 0 < threshold identity :=
  Nat.succ_pos _

theorem threshold_le (identity : Text) : threshold identity ≤ 100 :=
  Nat.mod_lt _ (by decide)

/-- An identity passes with exactly the chances from its threshold on. -/
theorem passes_iff {identity : Text} {chance : Nat} :
    passes identity chance = true ↔ threshold identity ≤ chance := by
  have hpos := threshold_pos identity
  have hle := threshold_le identity
  unfold passes threshold at *
  split
  · simp only [true_iff]; omega
  · split
    · simp only [Bool.false_eq_true, false_iff]; omega
    · simp only [decide_eq_true_eq]; omega

/-- What `passes` says about some chances, with one draw for all of them. -/
def passesEach (identity : Text) (chances : List Nat) : List Bool :=
  let least := threshold identity
  chances.map fun chance => least ≤ chance

theorem passesEach_eq (identity : Text) (chances : List Nat) :
    passesEach identity chances = chances.map (passes identity) := by
  refine List.map_congr_left fun chance _ => ?_
  rw [Bool.eq_iff_iff, passes_iff, decide_eq_true_eq]

/-- What the gate hashes for an actor and a rule. -/
def identity (a : Actor) (r : Rule) : Text :=
  a.key.toText ++ '|' :: r.toText

/-- True when a rule applies to an actor that it selects. -/
def admits (a : Actor) (r : Rule) : Bool :=
  passes (identity a r) r.chance

end Wardrobe.Gate
