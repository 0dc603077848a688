import LoxLexer.Number.Nearest
import Mathlib.Algebra.Order.Field.Rat
import Mathlib.Tactic.Linarith
import Mathlib.Tactic.Positivity

namespace LoxLexer.Number

def Decimal.value (d : Decimal) : ℚ := d.coefficient / 10 ^ d.places

namespace Binary64

def significand (x : Binary64) : ℕ :=
  if x.rank.val / 2 ^ 52 = 0 then x.rank.val % 2 ^ 52 else 2 ^ 52 + x.rank.val % 2 ^ 52

def exponent (x : Binary64) : ℤ := (max (x.rank.val / 2 ^ 52) 1 : ℕ) - 1075

def sign (x : Binary64) : ℚ := if x.negative then -1 else 1

def value (x : Binary64) : ℚ := x.sign * x.significand * 2 ^ x.exponent

def magnitude (rank : ℕ) : ℚ := units rank / 2 ^ 1074

def middle (rank : ℕ) : ℚ := (magnitude rank + magnitude (rank + 1)) / 2

variable {x : Binary64}

theorem units_of_lt {f : ℕ} (h : f < leadingBit) : units f = f := if_pos h

theorem units_succ_mul_add (e : ℕ) {f : ℕ} (h : f < leadingBit) :
    units (leadingBit * (e + 1) + f) = (leadingBit + f) * 2 ^ e := by
  have notLow : ¬ leadingBit * (e + 1) + f < leadingBit := by
    rw [Nat.mul_succ]
    omega
  rw [units, if_neg notLow, Nat.mul_add_mod, Nat.mod_eq_of_lt h, Nat.mul_add_div (by omega),
    Nat.div_eq_of_lt h, Nat.shiftLeft_eq]
  rfl

theorem units_lt_units_succ (rank : ℕ) : units rank < units (rank + 1) := by
  obtain ⟨e, f, h, rfl⟩ : ∃ e f, f < leadingBit ∧ rank = leadingBit * e + f :=
    ⟨rank / leadingBit, rank % leadingBit, Nat.mod_lt _ (by decide), (Nat.div_add_mod _ _).symm⟩
  have scale := Nat.two_pow_pos
  rcases Nat.lt_or_eq_of_le (Nat.succ_le_of_lt h) with inside | carry
  · cases e with
    | zero =>
      rw [Nat.mul_zero, Nat.zero_add, units_of_lt h, units_of_lt inside]
      omega
    | succ e =>
      rw [Nat.add_assoc, units_succ_mul_add e h, units_succ_mul_add e inside]
      exact Nat.mul_lt_mul_of_pos_right (by omega) (scale e)
  · -- The next rank is the first of its scale.
    have next : leadingBit * e + f + 1 = leadingBit * (e + 1) + 0 := by
      rw [Nat.mul_succ]
      omega
    rw [next, units_succ_mul_add e (by decide)]
    cases e with
    | zero =>
      rw [Nat.mul_zero, Nat.zero_add, units_of_lt h]
      omega
    | succ e =>
      rw [units_succ_mul_add e h, Nat.pow_succ, ← Nat.mul_assoc, Nat.mul_right_comm]
      exact Nat.mul_lt_mul_of_pos_right (by omega) (scale e)

theorem units_strictMono : StrictMono units := strictMono_nat_of_lt_succ units_lt_units_succ

theorem magnitude_strictMono : StrictMono magnitude := by
  intro r s h
  have : (units r : ℚ) < units s := Nat.cast_lt.2 (units_strictMono h)
  exact div_lt_div_of_pos_right this (by positivity)

@[simp] theorem magnitude_zero : magnitude 0 = 0 := by
  rw [magnitude, units_of_lt (by decide), Nat.cast_zero, zero_div]

theorem magnitude_nonneg (rank : ℕ) : 0 ≤ magnitude rank := by
  rw [← magnitude_zero]
  exact magnitude_strictMono.monotone rank.zero_le

theorem value_eq (x : Binary64) : x.value = x.sign * magnitude x.rank := by
  have split : x.rank.val = leadingBit * (x.rank.val / 2 ^ 52) + x.rank.val % 2 ^ 52 :=
    (Nat.div_add_mod _ _).symm
  have h : x.rank.val % 2 ^ 52 < leadingBit := Nat.mod_lt _ (by decide)
  rw [value, significand, exponent, mul_assoc]
  generalize x.rank.val / 2 ^ 52 = e at *
  generalize x.rank.val % 2 ^ 52 = f at *
  rw [magnitude, split]
  congr 1
  cases e with
  | zero =>
    rw [Nat.mul_zero, Nat.zero_add, units_of_lt h]
    rfl
  | succ e =>
    have scale : ((max (e + 1) 1 : ℕ) : ℤ) - 1075 = e - 1074 := by omega
    rw [units_succ_mul_add e h, scale, zpow_sub₀ two_ne_zero, zpow_natCast, Nat.cast_mul,
      Nat.cast_pow, mul_div_assoc]
    rfl

theorem value_of_positive (h : x.negative = false) : x.value = magnitude x.rank := by
  rw [value_eq, sign, h, if_neg Bool.false_ne_true, one_mul]

theorem value_le_magnitude (x : Binary64) : x.value ≤ magnitude x.rank := by
  cases h : x.negative with
  | false => exact (value_of_positive h).le
  | true =>
    have := magnitude_nonneg x.rank
    rw [value_eq, sign, if_pos h]
    linarith

theorem value_gap (x : Binary64) (rank : ℕ) :
    x.value ≤ magnitude rank ∨ magnitude (rank + 1) ≤ x.value := by
  rcases Nat.lt_or_ge rank x.rank.val with above | below
  · cases h : x.negative with
    | false =>
      rw [value_of_positive h]
      exact .inr (magnitude_strictMono.monotone above)
    | true =>
      have := magnitude_nonneg x.rank
      have := magnitude_nonneg rank
      rw [value_eq, sign, if_pos h]
      exact .inl (by linarith)
  · exact .inl (x.value_le_magnitude.trans (magnitude_strictMono.monotone below))

theorem magnitude_lt_middle (rank : ℕ) : magnitude rank < middle rank :=
  left_lt_add_div_two.2 (magnitude_strictMono (Nat.lt_succ_self rank))

theorem middle_lt_magnitude (rank : ℕ) : middle rank < magnitude (rank + 1) :=
  add_div_two_lt_right.2 (magnitude_strictMono (Nat.lt_succ_self rank))

theorem middle_eq (rank : ℕ) :
    middle rank = (units rank + units (rank + 1) : ℕ) / 2 ^ (1074 + 1) := by
  rw [middle, magnitude, magnitude, ← add_div, div_div, ← pow_succ, Nat.cast_add]

theorem units_add_units_carry (e : ℕ) :
    units (leadingBit * (e + 1) + (leadingBit - 1)) + units (leadingBit * (e + 1 + 1) + 0) =
      (2 ^ 54 - 1) * 2 ^ e := by
  rw [units_succ_mul_add e (by decide), units_succ_mul_add (e + 1) (by decide), pow_succ]
  generalize 2 ^ e = step
  simp only [leadingBit]
  omega

theorem middle_last : middle (infinityRank - 1) = 2 ^ 1024 - 2 ^ 970 := by
  have last : infinityRank - 1 = leadingBit * (2045 + 1) + (leadingBit - 1) := by decide
  have top : infinityRank - 1 + 1 = leadingBit * (2045 + 1 + 1) + 0 := by decide
  have scale : (2 : ℚ) ^ 2045 = 2 ^ 970 * 2 ^ (1074 + 1) := pow_add 2 970 (1074 + 1)
  have whole : ((2 ^ 54 - 1 : ℕ) : ℚ) = 2 ^ 54 - 1 := by norm_num
  rw [middle_eq, top, last, units_add_units_carry, Nat.cast_mul, Nat.cast_pow 2 2045,
    Nat.cast_ofNat, scale, ← mul_assoc, mul_div_cancel_right₀ _ (by positivity), whole, sub_mul,
    one_mul, ← pow_add]

theorem significand_mod_two (x : Binary64) : x.significand % 2 = x.rank.val % 2 := by
  rw [significand]
  split <;> omega

end Binary64

end LoxLexer.Number
