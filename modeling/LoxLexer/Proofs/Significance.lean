import LoxLexer.Proofs.Numeral
import Mathlib.Data.List.DropRight

namespace LoxLexer

open Number Grammar

/-- The digits of a text without the zeros at both ends. Signs and points are no digits. -/
def significantDigits (text : List Char) : List Char :=
  ((text.filter Char.isDigit).dropWhile (· == '0')).rdropWhile (· == '0')

/-- The number that a text stands for: digits with a point among them or none, behind a minus sign or
none. -/
inductive Denotes : List Char → ℚ → Prop
  | plain : (Piece.number whole fraction).Valid →
      Denotes (Piece.number whole fraction).text (Decimal.ofDigits whole fraction).value
  | minus : (Piece.number whole fraction).Valid →
      Denotes ('-' :: (Piece.number whole fraction).text) (-(Decimal.ofDigits whole fraction).value)

def Number.Decimal.Within (limit : ℕ) (d : Decimal) : Prop :=
  ∃ (c : ℕ) (e : ℤ), d.value = c * 10 ^ e ∧ c < 10 ^ limit

theorem Number.Decimal.value_nonneg (d : Decimal) : 0 ≤ d.value := by
  rw [value]
  positivity

theorem Number.Decimal.within_congr {d e : Decimal} (h : d.value = e.value) (limit : ℕ) :
    d.Within limit ↔ e.Within limit := by
  rw [Within, Within, h]

variable {digits text whole fraction : List Char} {c : Char} {limit : ℕ}

theorem digit_bounds (digit : c.isDigit) :
    c.toNat - '0'.toNat < 10 ∧ (c ≠ '0' → 0 < c.toNat - '0'.toNat) := by
  have bounds := Alphabet.toNat_of_isDigit digit
  have zero : '0'.toNat = 0x30 := rfl
  refine ⟨by omega, fun nonzero => ?_⟩
  have : c.toNat ≠ '0'.toNat := fun same => nonzero (Char.toNat_inj.1 same)
  omega

theorem ofDigitChars_cons_zero (c : Char) (digits : List Char) :
    Nat.ofDigitChars 10 (c :: digits) 0 =
      10 ^ digits.length * (c.toNat - '0'.toNat) + Nat.ofDigitChars 10 digits 0 := by
  rw [Nat.ofDigitChars_cons, Nat.mul_zero, Nat.zero_add, Nat.ofDigitChars_eq_ofDigitChars_zero]

theorem ofDigitChars_lt (h : ∀ d ∈ digits, d.isDigit) :
    Nat.ofDigitChars 10 digits 0 < 10 ^ digits.length := by
  induction digits with
  | nil => decide
  | cons c digits ih =>
    obtain ⟨digit, later⟩ := List.forall_mem_cons.1 h
    have here := Nat.mul_le_mul_left (10 ^ digits.length) (Nat.le_of_lt_succ (digit_bounds digit).1)
    have rest := ih later
    rw [ofDigitChars_cons_zero, List.length_cons, Nat.pow_succ]
    omega

theorem le_ofDigitChars (digit : c.isDigit) (nonzero : c ≠ '0') (digits : List Char) :
    10 ^ digits.length ≤ Nat.ofDigitChars 10 (c :: digits) 0 := by
  have here := Nat.le_mul_of_pos_right (10 ^ digits.length) ((digit_bounds digit).2 nonzero)
  rw [ofDigitChars_cons_zero]
  omega

theorem ofDigitChars_concat_mod (digit : c.isDigit) (nonzero : c ≠ '0') (digits : List Char) :
    Nat.ofDigitChars 10 (digits ++ [c]) 0 % 10 ≠ 0 := by
  obtain ⟨small, positive⟩ := digit_bounds digit
  have positive := positive nonzero
  rw [Nat.ofDigitChars_append, Nat.ofDigitChars_cons, Nat.ofDigitChars_nil]
  omega

theorem exists_zeros (text : List Char) : ∃ i j, text.filter Char.isDigit =
    List.replicate i '0' ++ significantDigits text ++ List.replicate j '0' := by
  have front := (text.filter Char.isDigit).takeWhile_append_dropWhile (p := (· == '0'))
  generalize rest : (text.filter Char.isDigit).dropWhile (· == '0') = digits at front
  have back := List.rdropWhile_append_rtakeWhile (p := (· == '0')) (l := digits)
  have zerosBefore : ∀ d ∈ (text.filter Char.isDigit).takeWhile (· == '0'), d = '0' :=
    fun d inside => beq_iff_eq.1 (List.mem_takeWhile_imp (p := (· == '0')) inside)
  have zerosBehind : ∀ d ∈ digits.rtakeWhile (· == '0'), d = '0' :=
    fun d inside => beq_iff_eq.1 (List.mem_rtakeWhile_imp (p := (· == '0')) inside)
  refine ⟨((text.filter Char.isDigit).takeWhile (· == '0')).length,
    (digits.rtakeWhile (· == '0')).length, ?_⟩
  rw [significantDigits, rest, ← List.eq_replicate_of_mem zerosBefore, List.append_assoc,
    ← List.eq_replicate_of_mem zerosBehind, back, front]

theorem isDigit_of_mem_significantDigits {d : Char} (h : d ∈ significantDigits text) :
    d.isDigit := by
  obtain ⟨i, j, split⟩ := exists_zeros text
  have member : d ∈ text.filter Char.isDigit := by simp [split, h]
  exact (List.mem_filter.1 member).2

theorem head_significantDigits_ne (h : significantDigits text ≠ []) :
    (significantDigits text).head h ≠ '0' := by
  have prefixed := List.rdropWhile_prefix (· == '0')
    ((text.filter Char.isDigit).dropWhile (· == '0'))
  have first := List.head_dropWhile_not (· == '0') (prefixed.ne_nil h)
  rw [← prefixed.head h] at first
  exact beq_eq_false_iff_ne.1 first

theorem last_significantDigits_ne (h : significantDigits text ≠ []) :
    (significantDigits text).getLast h ≠ '0' := fun zero =>
  List.rdropWhile_last_not (· == '0') _ h (beq_iff_eq.2 zero)

theorem le_of_eq_mul_ten_zpow {m c : ℕ} {k : ℤ} (last : m % 10 ≠ 0) (h : (m : ℚ) = c * 10 ^ k) :
    m ≤ c := by
  obtain ⟨n, rfl | rfl⟩ := k.eq_nat_or_neg
  · rw [zpow_natCast] at h
    have whole : m = c * 10 ^ n := by exact_mod_cast h
    cases n with
    | zero => rw [whole, Nat.pow_zero, Nat.mul_one]
    | succ n =>
      rw [whole, Nat.pow_succ, ← Nat.mul_assoc, Nat.mul_mod_left] at last
      contradiction
  · rw [zpow_neg, zpow_natCast, eq_mul_inv_iff_mul_eq₀ (by positivity)] at h
    have whole : m * 10 ^ n = c := by exact_mod_cast h
    exact whole ▸ Nat.le_mul_of_pos_right m (by positivity)

theorem filter_text_number (valid : (Piece.number whole fraction).Valid) :
    (Piece.number whole fraction).text.filter Char.isDigit = whole ++ fraction := by
  obtain ⟨⟨-, before⟩, behind⟩ := valid
  have point : ¬ '.'.isDigit := by decide
  rw [Piece.text_number, List.filter_append, List.filter_eq_self.2 before]
  split
  · next empty => rw [empty, List.filter_nil]
  · rw [List.filter_cons_of_neg point, List.filter_eq_self.2 behind]

theorem value_ofDigits (valid : (Piece.number whole fraction).Valid) : ∃ e : ℤ,
    (Decimal.ofDigits whole fraction).value =
      Nat.ofDigitChars 10 (significantDigits (Piece.number whole fraction).text) 0 * 10 ^ e := by
  obtain ⟨i, j, split⟩ := exists_zeros (Piece.number whole fraction).text
  rw [filter_text_number valid] at split
  refine ⟨j - fraction.length, ?_⟩
  rw [Decimal.value, Decimal.ofDigits, split, Nat.ofDigitChars_append, Nat.ofDigitChars_append,
    Nat.ofDigitChars_replicate_zero, Nat.ofDigitChars_replicate_zero, Nat.mul_zero]
  dsimp only
  rw [zpow_sub₀ (by decide), zpow_natCast, zpow_natCast, Nat.cast_mul, Nat.cast_pow,
    Nat.cast_ofNat, mul_div_assoc', mul_comm]

theorem ofDigitChars_significantDigits_le {c : ℕ} {k : ℤ} (h : significantDigits text ≠ [])
    (same : (Nat.ofDigitChars 10 (significantDigits text) 0 : ℚ) = c * 10 ^ k) :
    10 ^ ((significantDigits text).length - 1) ≤ c := by
  have first := le_ofDigitChars (isDigit_of_mem_significantDigits (List.head_mem h))
    (head_significantDigits_ne h) (significantDigits text).tail
  have last := ofDigitChars_concat_mod (isDigit_of_mem_significantDigits (List.getLast_mem h))
    (last_significantDigits_ne h) (significantDigits text).dropLast
  rw [List.cons_head_tail, List.length_tail] at first
  rw [List.dropLast_concat_getLast] at last
  exact first.trans (le_of_eq_mul_ten_zpow last same)

theorem length_significantDigits_le_iff (valid : (Piece.number whole fraction).Valid) :
    (significantDigits (Piece.number whole fraction).text).length ≤ limit ↔
      (Decimal.ofDigits whole fraction).Within limit := by
  obtain ⟨e, value⟩ := value_ofDigits valid
  constructor
  · intro short
    refine ⟨_, e, value, ?_⟩
    exact (ofDigitChars_lt fun _ => isDigit_of_mem_significantDigits).trans_le
      (Nat.pow_le_pow_right (by decide) short)
  · rintro ⟨c, f, other, small⟩
    by_cases empty : significantDigits (Piece.number whole fraction).text = []
    · rw [empty]
      exact limit.zero_le
    · rw [value] at other
      have same := (eq_mul_inv_iff_mul_eq₀ (zpow_ne_zero e (by decide))).2 other
      rw [mul_assoc, ← zpow_neg, ← zpow_add₀ (by decide)] at same
      have low := (ofDigitChars_significantDigits_le empty same).trans_lt small
      have := (Nat.pow_lt_pow_iff_right (by decide)).1 low
      omega

theorem significantDigits_minus (text : List Char) :
    significantDigits ('-' :: text) = significantDigits text := by
  have sign : ¬ '-'.isDigit := by decide
  rw [significantDigits, List.filter_cons_of_neg sign, significantDigits]

theorem Denotes.exists_decimal {v : ℚ} (denotes : Denotes text v) : ∃ d : Decimal,
    d.value = |v| ∧ ∀ limit, (significantDigits text).length ≤ limit ↔ d.Within limit := by
  cases denotes with
  | @plain whole fraction valid =>
    refine ⟨.ofDigits whole fraction, ?_, fun _ => length_significantDigits_le_iff valid⟩
    rw [abs_of_nonneg (Decimal.value_nonneg _)]
  | @minus whole fraction valid =>
    refine ⟨.ofDigits whole fraction, ?_, fun _ => ?_⟩
    · rw [abs_neg, abs_of_nonneg (Decimal.value_nonneg _)]
    · rw [significantDigits_minus]
      exact length_significantDigits_le_iff valid

end LoxLexer
