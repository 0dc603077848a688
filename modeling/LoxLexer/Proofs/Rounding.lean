import LoxLexer.Proofs.Magnitude

/-!
Correct rounding. A double is the right one for a number if no other finite double is closer, an
even one being preferred to its equals, and there is exactly one such double for each number.
-/

namespace LoxLexer.Number

namespace Binary64

/-- A double as close to a number as any, and even where another one is as close. From half a step
past the greatest finite double on it is infinite. -/
structure Rounds (v : ℚ) (x : Binary64) : Prop where
  positive : x.negative = false
  number : x.isNaN = false
  overflow : x.isInfinite ↔ 2 ^ 1024 - 2 ^ 970 ≤ v
  closest : x.isFinite → ∀ y : Binary64, y.isFinite → |v - x.value| ≤ |v - y.value|
  even : x.isFinite → ∀ y : Binary64, y.isFinite → y.value ≠ x.value →
    |v - y.value| = |v - x.value| → x.significand % 2 = 0

def Under (v : ℚ) (rank : ℕ) : Prop := v < middle rank ∨ v = middle rank ∧ rank % 2 = 0

variable {x y : Binary64} {v : ℚ} {n d rank : ℕ}

theorem not_under_of_middle_lt (h : middle rank < v) : ¬ Under v rank := by
  rintro (before | ⟨same, -⟩)
  · exact absurd before h.not_gt
  · exact absurd same h.ne'

theorem Under.le_middle (h : Under v rank) : v ≤ middle rank := by
  rcases h with before | ⟨same, -⟩
  · exact before.le
  · exact same.le

theorem Under.even (h : Under v rank) (tie : v = middle rank) : rank % 2 = 0 := by
  rcases h with before | ⟨-, even⟩
  · exact absurd tie before.ne
  · exact even

theorem middle_le_of_not_under (h : ¬ Under v rank) : middle rank ≤ v :=
  not_lt.1 fun before => h (.inl before)

theorem odd_of_not_under (h : ¬ Under v rank) (tie : v = middle rank) : rank % 2 = 1 := by
  have notEven : ¬ rank % 2 = 0 := fun even => h (.inr ⟨tie, even⟩)
  omega

theorem isFinite_iff : x.isFinite ↔ x.rank.val < infinityRank := decide_eq_true_iff

theorem isInfinite_iff : x.isInfinite ↔ x.rank.val = infinityRank := decide_eq_true_iff

theorem isNaN_iff : x.isNaN ↔ infinityRank < x.rank.val := decide_eq_true_iff

/-! Two fractions are compared by their cross products, all of them natural numbers. -/

theorem cast_shiftLeft (n k : ℕ) : ((n <<< k : ℕ) : ℚ) = n * 2 ^ k := by
  rw [Nat.shiftLeft_eq, Nat.cast_mul, Nat.cast_pow, Nat.cast_ofNat]

section CrossProducts

variable (pos : 0 < d) (a k : ℕ)
include pos

theorem div_two_pow_le_iff : (a / 2 ^ k : ℚ) ≤ n / d ↔ a * d ≤ n <<< k := by
  rw [div_le_div_iff₀ (by positivity) (Nat.cast_pos.2 pos), ← cast_shiftLeft n k, ← Nat.cast_mul,
    Nat.cast_le]

theorem div_two_pow_lt_iff : (a / 2 ^ k : ℚ) < n / d ↔ a * d < n <<< k := by
  rw [div_lt_div_iff₀ (by positivity) (Nat.cast_pos.2 pos), ← cast_shiftLeft n k, ← Nat.cast_mul,
    Nat.cast_lt]

theorem div_two_pow_eq_iff : (a / 2 ^ k : ℚ) = n / d ↔ a * d = n <<< k := by
  rw [div_eq_div_iff (by positivity) (Nat.cast_pos.2 pos).ne', ← cast_shiftLeft n k,
    ← Nat.cast_mul, Nat.cast_inj]

end CrossProducts

theorem units_mul_closed (n d r s : ℕ) (h : r ≤ s) (inside : decide (units s * d ≤ n <<< 1074)) :
    decide (units r * d ≤ n <<< 1074) := by
  simp only [decide_eq_true_eq] at inside ⊢
  exact (Nat.mul_le_mul_right d (units_strictMono.monotone h)).trans inside

section Rounding

variable (pos : 0 < d)
include pos

theorem magnitude_rankBelow_le (n : ℕ) : magnitude (rankBelow n d) ≤ (n / d : ℚ) := by
  have zero : decide (units 0 * d ≤ n <<< 1074) := by
    rw [units_of_lt (by decide), Nat.zero_mul]
    exact decide_eq_true (Nat.zero_le _)
  have passes := @test_greatest (fun rank => decide (units rank * d ≤ n <<< 1074)) 63 0 zero
  exact (div_two_pow_le_iff pos _ _).2 (of_decide_eq_true passes)

theorem lt_magnitude_of_rankBelow_lt (h : rankBelow n d < rank) (inside : rank < 2 ^ 63) :
    (n / d : ℚ) < magnitude rank := by
  have fails := not_test_of_greatest_lt (units_mul_closed n d) 63 h
    (by rwa [Nat.zero_add, Nat.shiftLeft_eq, Nat.one_mul])
  rw [← not_le]
  intro passes
  exact of_decide_eq_false fails ((div_two_pow_le_iff pos _ _).1 passes)

omit pos in
theorem rankBelow_le_nearestRank (n d : ℕ) :
    rankBelow n d ≤ nearestRank n d ∧ nearestRank n d ≤ rankBelow n d + 1 := by
  rw [nearestRank]
  split <;> omega

theorem nearestRank_le_rankBelow_iff (n : ℕ) :
    nearestRank n d ≤ rankBelow n d ↔ Under (n / d) (rankBelow n d) := by
  have past := div_two_pow_lt_iff (n := n) pos
    (units (rankBelow n d) + units (rankBelow n d + 1)) (1074 + 1)
  have tie := div_two_pow_eq_iff (n := n) pos
    (units (rankBelow n d) + units (rankBelow n d + 1)) (1074 + 1)
  rw [← middle_eq] at past tie
  rw [nearestRank]
  split
  · next up =>
    refine iff_of_false (by omega) ?_
    rcases up with above | ⟨here, odd⟩
    · exact not_under_of_middle_lt (past.2 above)
    · have here := tie.2 here
      rintro (before | ⟨-, even⟩)
      · exact absurd here before.ne'
      · omega
  · next down =>
    refine iff_of_true le_rfl ?_
    rcases lt_trichotomy (n / d : ℚ) (middle (rankBelow n d)) with before | here | above
    · exact .inl before
    · refine .inr ⟨here, ?_⟩
      have notOdd : ¬ rankBelow n d % 2 = 1 := fun odd => down (.inr ⟨tie.1 here.symm, odd⟩)
      omega
    · exact absurd (.inl (past.1 above)) down

theorem nearestRank_le_iff (inside : rank + 1 < 2 ^ 63) :
    nearestRank n d ≤ rank ↔ Under (n / d) rank := by
  have floor := magnitude_rankBelow_le pos n
  have reach := rankBelow_le_nearestRank n d
  rcases Nat.lt_trichotomy rank (rankBelow n d) with above | rfl | under
  · have past : middle rank < (n / d : ℚ) :=
      (middle_lt_magnitude rank).trans_le ((magnitude_strictMono.monotone above).trans floor)
    exact iff_of_false (by omega) (not_under_of_middle_lt past)
  · exact nearestRank_le_rankBelow_iff pos n
  · have before : (n / d : ℚ) < magnitude (rankBelow n d + 1) :=
      lt_magnitude_of_rankBelow_lt pos (Nat.lt_succ_self _) (by omega)
    have short : (n / d : ℚ) < middle rank :=
      before.trans_le ((magnitude_strictMono.monotone under).trans (magnitude_lt_middle rank).le)
    exact iff_of_true (by omega) (.inl short)

theorem rank_nearest_le_iff (finite : rank < infinityRank) :
    (nearest n d).rank.val ≤ rank ↔ Under (n / d) rank := by
  have bound : infinityRank < 2 ^ 63 := by decide
  rw [← nearestRank_le_iff pos (by omega)]
  exact min_le_iff.trans (or_iff_left (by omega))

end Rounding

theorem closer_of_middle_le {v a b c : ℚ} (below : c ≤ a) (apart : a < b) (h : (a + b) / 2 ≤ v) :
    |v - b| ≤ |v - c| ∧ (|v - c| = |v - b| → v = (a + b) / 2) := by
  have left : |v - c| = v - c := abs_of_nonneg (by linarith)
  rw [left, abs_le]
  refine ⟨⟨by linarith, by linarith⟩, fun tie => ?_⟩
  rcases abs_cases (v - b) with ⟨right, -⟩ | ⟨right, -⟩ <;> linarith

theorem closer_of_le_middle {v a b c : ℚ} (above : b ≤ c) (apart : a < b) (h : v ≤ (a + b) / 2) :
    |v - a| ≤ |v - c| ∧ (|v - c| = |v - a| → v = (a + b) / 2) := by
  have right : |v - c| = c - v := by
    rw [abs_sub_comm]
    exact abs_of_nonneg (by linarith)
  rw [right, abs_le]
  refine ⟨⟨by linarith, by linarith⟩, fun tie => ?_⟩
  rcases abs_cases (v - a) with ⟨left, -⟩ | ⟨left, -⟩ <;> linarith

/-! What is not past the gap above the rank of a double, but past all gaps below, rounds to it. -/

section Cut

variable (nonneg : 0 ≤ v) (positive : x.negative = false)
  (cut : ∀ rank < infinityRank, x.rank.val ≤ rank ↔ Under v rank)
include nonneg positive cut

theorem closest_of_cut (finite : x.rank.val < infinityRank) (y : Binary64) :
    |v - x.value| ≤ |v - y.value| ∧
      (y.value ≠ x.value → |v - y.value| = |v - x.value| → x.rank.val % 2 = 0) := by
  have under := (cut _ finite).1 le_rfl
  rw [value_of_positive positive]
  generalize x.rank.val = k at *
  rcases y.value_gap k with below | above
  · rcases below.eq_or_lt with same | below
    · rw [same]
      exact ⟨le_rfl, fun other => absurd rfl other⟩
    cases k with
    | zero =>
      rw [magnitude_zero] at below ⊢
      have far : |v - y.value| = v - y.value := abs_of_nonneg (by linarith)
      rw [sub_zero, abs_of_nonneg nonneg, far]
      exact ⟨by linarith, fun _ _ => rfl⟩
    | succ j =>
      have past : ¬ Under v j := (cut j (by omega)).not.1 (by omega)
      have below : y.value ≤ magnitude j := (y.value_gap j).resolve_right (by linarith)
      obtain ⟨closer, tie⟩ := closer_of_middle_le below (magnitude_strictMono j.lt_succ_self)
        (middle_le_of_not_under past)
      refine ⟨closer, fun _ same => ?_⟩
      have := odd_of_not_under past (tie same)
      omega
  · obtain ⟨closer, tie⟩ := closer_of_le_middle above (magnitude_strictMono k.lt_succ_self)
      under.le_middle
    exact ⟨closer, fun _ same => under.even (tie same)⟩

theorem rounds_of_cut (bound : x.rank.val ≤ infinityRank) : Rounds v x where
  positive := positive
  number := by
    rw [← Bool.not_eq_true, isNaN_iff]
    omega
  overflow := by
    have last := cut (infinityRank - 1) (by decide)
    rw [isInfinite_iff, ← middle_last]
    constructor
    · intro infinite
      refine middle_le_of_not_under (last.not.1 ?_)
      rw [infinite]
      decide
    · intro far
      by_contra other
      have under := last.1 (by omega)
      exact absurd (under.even (far.antisymm' under.le_middle)) (by decide)
  closest finite y _ := (closest_of_cut nonneg positive cut (isFinite_iff.1 finite) y).1
  even finite y _ other tie := by
    rw [significand_mod_two]
    exact (closest_of_cut nonneg positive cut (isFinite_iff.1 finite) y).2 other tie

end Cut

theorem rounds_nearest (pos : 0 < d) (n : ℕ) : Rounds (n / d) (nearest n d) :=
  rounds_of_cut (by positivity) rfl (fun _ => rank_nearest_le_iff pos) (Nat.min_le_right _ _)

/-! Two doubles that round a number are equally close to it. -/

theorem le_middle_of_closer {v a b : ℚ} (apart : a < b) (closer : |v - a| ≤ |v - b|) :
    v ≤ (a + b) / 2 := by
  have := le_abs_self (v - a)
  rcases abs_cases (v - b) with ⟨far, -⟩ | ⟨far, -⟩ <;> linarith

theorem middle_le_of_closer {v a b : ℚ} (apart : a < b) (closer : |v - b| ≤ |v - a|) :
    (a + b) / 2 ≤ v := by
  have := neg_abs_le (v - b)
  rcases abs_cases (v - a) with ⟨far, -⟩ | ⟨far, -⟩ <;> linarith

theorem Rounds.rank_le (h : Rounds v x) : x.rank.val ≤ infinityRank := by
  rw [← Nat.not_lt, ← isNaN_iff, h.number]
  exact Bool.false_ne_true

/-- Two doubles that are equally close are both even, so there is another one between them, and it
would be closer. -/
theorem Rounds.not_rank_lt (left : Rounds v x) (right : Rounds v y) :
    ¬ x.rank.val < y.rank.val := by
  intro h
  have finite : x.rank.val < infinityRank := h.trans_le right.rank_le
  have finite' : y.rank.val < infinityRank := by
    refine right.rank_le.lt_of_ne fun infinite => finite.ne ?_
    exact isInfinite_iff.1 (left.overflow.2 (right.overflow.1 (isInfinite_iff.2 infinite)))
  have between : x.rank.val + 1 < infinityRank := by omega
  have near := left.closest (isFinite_iff.2 finite) y (isFinite_iff.2 finite')
  have near' := right.closest (isFinite_iff.2 finite') x (isFinite_iff.2 finite)
  have nearer := left.closest (isFinite_iff.2 finite)
    ⟨false, x.rank.val + 1, between.trans (by decide)⟩ (isFinite_iff.2 between)
  have other : x.value ≠ y.value := by
    rw [value_of_positive left.positive, value_of_positive right.positive]
    exact (magnitude_strictMono h).ne
  have even := left.even (isFinite_iff.2 finite) y (isFinite_iff.2 finite') other.symm
    (near'.antisymm near)
  have even' := right.even (isFinite_iff.2 finite') x (isFinite_iff.2 finite) other
    (near.antisymm near')
  rw [significand_mod_two] at even even'
  have apart : magnitude (x.rank.val + 1) < magnitude y.rank := magnitude_strictMono (by omega)
  rw [value_of_positive left.positive, value_of_positive right.positive] at near'
  rw [value_of_positive left.positive, value_of_positive rfl] at nearer
  have low := le_middle_of_closer (magnitude_strictMono x.rank.val.lt_succ_self) nearer
  have high := middle_le_of_closer (magnitude_strictMono h) near'
  linarith

theorem Rounds.unique (left : Rounds v x) (right : Rounds v y) : x = y := by
  have rank : x.rank = y.rank :=
    Fin.ext (by have := left.not_rank_lt right; have := right.not_rank_lt left; omega)
  have sign := left.positive.trans right.positive.symm
  cases x
  cases y
  simp_all

theorem rounds_iff (pos : 0 < d) : Rounds (n / d) x ↔ x = nearest n d :=
  ⟨fun h => h.unique (rounds_nearest pos n), fun h => h ▸ rounds_nearest pos n⟩

end Binary64

end LoxLexer.Number
