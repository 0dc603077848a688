import LoxLexer.Proofs.Display
import LoxLexer.Proofs.Significance
import Mathlib.Algebra.Order.Group.Pointwise.Interval
import Mathlib.Tactic.Ring

/-!
The display of a double is as short as it can be. What rounds to a double has no gaps, so on each
grid the neighbours of the double are the points to try; the first grid with one that rounds to it
has the fewest digits, and any decimal of as few digits that is on no such grid is below the leading
digit of the double, and so farther from it than a point that was tried.
-/

namespace LoxLexer

open Number

namespace Number

namespace Binary64

variable {rank grid top count limit : ℕ} {d e : Decimal}

theorem Under.of_le {v w : ℚ} (under : Under w rank) (h : v ≤ w) : Under v rank := by
  rcases h.eq_or_lt with rfl | below
  · exact under
  · exact .inl (below.trans_le under.le_middle)

theorem rank_round_le_iff (finite : rank < infinityRank) :
    d.round.rank.val ≤ rank ↔ Under d.value rank := by
  rw [Decimal.value_eq_div]
  exact rank_nearest_le_iff (Nat.pow_pos (by decide)) finite

theorem rank_round_mono (h : d.value ≤ e.value) : d.round.rank.val ≤ e.round.rank.val := by
  have bounded : d.round.rank.val ≤ infinityRank := Nat.min_le_right _ _
  by_cases finite : e.round.rank.val < infinityRank
  · exact (rank_round_le_iff finite).2 (((rank_round_le_iff finite).1 le_rfl).of_le h)
  · omega

theorem value_onGrid (grid count : ℕ) :
    (Decimal.onGrid grid count).value = (count * 10 ^ grid : ℕ) / 10 ^ 1074 := by
  rw [Decimal.onGrid, Nat.cast_mul, Nat.cast_pow, Nat.cast_ofNat]
  generalize 1074 = finest
  split
  · next low =>
    rw [Decimal.value, ← Nat.sub_add_cancel low, pow_add]
    dsimp only
    rw [Nat.add_sub_cancel, mul_div_mul_right _ _ (pow_ne_zero _ (by decide))]
  · next high =>
    have scale : ((Nat.pow 10 (grid - finest) : ℕ) : ℚ) = 10 ^ (grid - finest) :=
      Nat.cast_pow 10 (grid - finest)
    rw [Decimal.value, ← Nat.sub_add_cancel (Nat.le_of_not_le high), pow_add, ← mul_assoc]
    dsimp only
    rw [Nat.add_sub_cancel, Nat.cast_mul, scale, pow_zero, div_one,
      mul_div_cancel_right₀ _ (pow_ne_zero _ (by decide))]

theorem magnitude_eq (rank : ℕ) : magnitude rank = decimalUnits rank / 10 ^ 1074 := by
  rw [← value_onGrid_zero, value_onGrid, pow_zero, mul_one]

theorem readsBack_congr (h : e.value = d.value) : readsBack rank e = readsBack rank d := by
  rw [readsBack, readsBack, Decimal.round_eq_of_value_eq h]

theorem readsBack_between (finite : rank < infinityRank) (back : readsBack rank d)
    (h : e.value ∈ Set.uIcc d.value (magnitude rank)) :
    readsBack rank e ∧ |magnitude rank - e.value| ≤ |magnitude rank - d.value| := by
  refine ⟨?_, Set.abs_sub_right_of_mem_uIcc h⟩
  have self := beq_iff_eq.1 (readsBack_onGrid_zero finite)
  have back := beq_iff_eq.1 back
  rw [← value_onGrid_zero] at h
  apply beq_iff_eq.2
  rcases Set.mem_uIcc.1 h with ⟨low, high⟩ | ⟨low, high⟩
  · have := rank_round_mono low
    have := rank_round_mono high
    omega
  · have := rank_round_mono low
    have := rank_round_mono high
    omega

theorem value_onGrid_le_iff {g h m n : ℕ} :
    (Decimal.onGrid g m).value ≤ (Decimal.onGrid h n).value ↔ m * 10 ^ g ≤ n * 10 ^ h := by
  rw [value_onGrid, value_onGrid, div_le_div_iff_of_pos_right (by positivity), Nat.cast_le]

theorem value_onGrid_le_magnitude_iff :
    (Decimal.onGrid grid count).value ≤ magnitude rank ↔ count * 10 ^ grid ≤ decimalUnits rank := by
  rw [← value_onGrid_zero, value_onGrid_le_iff, pow_zero, mul_one]

theorem magnitude_le_value_onGrid_iff :
    magnitude rank ≤ (Decimal.onGrid grid count).value ↔ decimalUnits rank ≤ count * 10 ^ grid := by
  rw [← value_onGrid_zero, value_onGrid_le_iff, pow_zero, mul_one]

def Neighbour (rank grid count : ℕ) : Prop :=
  count = decimalUnits rank / 10 ^ grid ∨ count = decimalUnits rank / 10 ^ grid + 1

theorem readsBack_neighbour (finite : rank < infinityRank)
    (back : readsBack rank (.onGrid grid count)) :
    ∃ c, Neighbour rank grid c ∧ readsBack rank (.onGrid grid c) ∧
      |magnitude rank - (Decimal.onGrid grid c).value| ≤
        |magnitude rank - (Decimal.onGrid grid count).value| := by
  have step : 0 < 10 ^ grid := Nat.pow_pos (by decide)
  have low := Nat.div_mul_le_self (decimalUnits rank) (10 ^ grid)
  have high := (Nat.lt_mul_div_succ (decimalUnits rank) step).le
  rw [mul_comm] at high
  rcases Nat.lt_or_ge (decimalUnits rank / 10 ^ grid) count with above | under
  · refine ⟨_, .inr rfl, readsBack_between finite back (Set.mem_uIcc.2 (.inr ?_))⟩
    exact ⟨magnitude_le_value_onGrid_iff.2 high,
      value_onGrid_le_iff.2 (Nat.mul_le_mul_right _ above)⟩
  · refine ⟨_, .inl rfl, readsBack_between finite back (Set.mem_uIcc.2 (.inl ?_))⟩
    exact ⟨value_onGrid_le_iff.2 (Nat.mul_le_mul_right _ under),
      value_onGrid_le_magnitude_iff.2 low⟩

theorem next_multiple_closer_iff {step past : ℕ} (short : past < step) (n : ℕ) :
    |((step * n + past : ℕ) : ℚ) - ((n + 1) * step : ℕ)| ≤
        |((step * n + past : ℕ) : ℚ) - (n * step : ℕ)| ↔ step ≤ 2 * past := by
  have low : ((step * n + past : ℕ) : ℚ) - (n * step : ℕ) = past := by
    push_cast
    ring
  have high : ((step * n + past : ℕ) : ℚ) - ((n + 1) * step : ℕ) = -((step : ℚ) - past) := by
    push_cast
    ring
  have inside : (past : ℚ) ≤ step := Nat.cast_le.2 short.le
  rw [low, high, abs_neg, abs_of_nonneg (sub_nonneg.2 inside), Nat.abs_cast, sub_le_iff_le_add,
    ← two_mul]
  norm_cast

theorem upper_closer_iff (rank grid : ℕ) :
    |magnitude rank - (Decimal.onGrid grid (decimalUnits rank / 10 ^ grid + 1)).value| ≤
        |magnitude rank - (Decimal.onGrid grid (decimalUnits rank / 10 ^ grid)).value| ↔
      10 ^ grid ≤ 2 * (decimalUnits rank % 10 ^ grid) := by
  have short := Nat.mod_lt (decimalUnits rank) (Nat.pow_pos (n := grid) (by decide : 0 < 10))
  have closer := next_multiple_closer_iff short (decimalUnits rank / 10 ^ grid)
  rw [Nat.div_add_mod] at closer
  rw [← closer, magnitude_eq, value_onGrid, value_onGrid, ← sub_div, ← sub_div, abs_div, abs_div,
    div_le_div_iff_of_pos_right (abs_pos.2 (pow_ne_zero _ (by decide)))]

/-- A point of a grid that rounds to a double and is as close to it as any there that does, while
none does on a coarser grid up to the top one. -/
structure Found (rank top grid count : ℕ) : Prop where
  le : grid ≤ top
  neighbour : Neighbour rank grid count
  back : readsBack rank (.onGrid grid count)
  coarser : ∀ g, grid < g → g ≤ top → ∀ c, ¬ readsBack rank (.onGrid g c)
  closest : ∀ c, readsBack rank (.onGrid grid c) →
    |magnitude rank - (Decimal.onGrid grid count).value| ≤
      |magnitude rank - (Decimal.onGrid grid c).value|

theorem Found.of_neighbours (finite : rank < infinityRank) (neighbour : Neighbour rank top count)
    (back : readsBack rank (.onGrid top count))
    (closest : ∀ c, Neighbour rank top c → readsBack rank (.onGrid top c) →
      |magnitude rank - (Decimal.onGrid top count).value| ≤
        |magnitude rank - (Decimal.onGrid top c).value|) :
    Found rank top top count where
  le := le_rfl
  neighbour := neighbour
  back := back
  coarser g above within := by omega
  closest c other := by
    obtain ⟨n, near, found, closer⟩ := readsBack_neighbour finite other
    exact (closest n near found).trans closer

theorem Found.of_coarser (finite : rank < infinityRank) (found : Found rank top grid count)
    (fails : ∀ c, Neighbour rank (top + 1) c → ¬ readsBack rank (.onGrid (top + 1) c)) :
    Found rank (top + 1) grid count where
  le := found.le.trans top.le_succ
  neighbour := found.neighbour
  back := found.back
  coarser g above within c back := by
    rcases Nat.le_succ_iff.1 within with inside | rfl
    · exact found.coarser g above inside c back
    · obtain ⟨n, near, other, -⟩ := readsBack_neighbour finite back
      exact fails n near other
  closest := found.closest

theorem exists_found (finite : rank < infinityRank) (top : ℕ) :
    ∃ grid count, shortestFrom rank top = .onGrid grid count ∧ Found rank top grid count := by
  induction top with
  | zero =>
    refine ⟨0, decimalUnits rank, rfl, .of_neighbours finite ?_ (readsBack_onGrid_zero finite) ?_⟩
    · exact .inl (Nat.div_one _).symm
    · intro c _ _
      rw [value_onGrid_zero, sub_self, abs_zero]
      exact abs_nonneg _
  | succ top ih =>
    have choice := upper_closer_iff rank (top + 1)
    simp only [shortestFrom, Nat.pow_eq]
    split
    · next lower =>
      split
      · next both =>
        obtain ⟨half, upper⟩ := Bool.and_eq_true_iff.1 both
        refine ⟨_, _, rfl, .of_neighbours finite (.inr rfl) upper ?_⟩
        rintro c (rfl | rfl) _
        · exact choice.2 (of_decide_eq_true half)
        · exact le_rfl
      · next notBoth =>
        refine ⟨_, _, rfl, .of_neighbours finite (.inl rfl) lower ?_⟩
        rintro c (rfl | rfl) upper
        · exact le_rfl
        · refine (le_total _ _).resolve_right fun closer => notBoth ?_
          exact Bool.and_eq_true_iff.2 ⟨decide_eq_true (choice.1 closer), upper⟩
    · next lowerFails =>
      split
      · next upper =>
        refine ⟨_, _, rfl, .of_neighbours finite (.inr rfl) upper ?_⟩
        rintro c (rfl | rfl) lower
        · exact absurd lower lowerFails
        · exact le_rfl
      · next upperFails =>
        obtain ⟨grid, count, same, found⟩ := ih
        refine ⟨grid, count, same, found.of_coarser finite ?_⟩
        rintro c (rfl | rfl)
        · exact lowerFails
        · exact upperFails

/-! The grid of the leading digit. -/

theorem units_infinityRank : units infinityRank = 2 ^ 1024 * 2 ^ 1074 := by
  have top : infinityRank = leadingBit * (2046 + 1) + 0 := by decide
  have leading : leadingBit = 2 ^ 52 := by decide
  rw [top, units_succ_mul_add 2046 (by decide), Nat.add_zero, leading, ← pow_add, ← pow_add]

theorem decimalUnits_eq (rank : ℕ) : decimalUnits rank = units rank * 5 ^ 1074 := by
  rw [decimalUnits]
  generalize 1074 = places
  rw [Nat.pow_eq]

theorem decimalUnits_lt (finite : rank < infinityRank) : decimalUnits rank < 10 ^ (974 + 1074) := by
  have ten (k : ℕ) : 2 ^ k * 5 ^ k = 10 ^ k := (mul_pow 2 5 k).symm
  have cube (k : ℕ) : 2 ^ (3 * k) ≤ 10 ^ k := by
    rw [pow_mul]
    exact Nat.pow_le_pow_left (by decide) k
  calc
    decimalUnits rank = units rank * 5 ^ 1074 := decimalUnits_eq rank
    _ < units infinityRank * 5 ^ 1074 :=
      Nat.mul_lt_mul_of_pos_right (units_strictMono finite) (pow_pos (by decide) _)
    _ = 2 ^ 1024 * 10 ^ 1074 := by rw [units_infinityRank, mul_assoc, ten]
    _ ≤ 2 ^ (3 * 974) * 10 ^ 1074 :=
      Nat.mul_le_mul_right _ (pow_le_pow_right₀ (by decide) (by decide))
    _ ≤ 10 ^ 974 * 10 ^ 1074 := Nat.mul_le_mul_right _ (cube 974)
    _ = 10 ^ (974 + 1074) := (pow_add 10 974 1074).symm

theorem leadingGrid_bounds (finite : rank < infinityRank) (nonzero : rank ≠ 0) :
    10 ^ leadingGrid rank ≤ decimalUnits rank ∧
      decimalUnits rank < 10 ^ (leadingGrid rank + 1) := by
  have positive : 0 < decimalUnits rank := by
    have above := units_strictMono (Nat.pos_of_ne_zero nonzero)
    rw [decimalUnits_eq]
    exact Nat.mul_pos (Nat.zero_lt_of_lt above) (pow_pos (by decide) _)
  have base : decide (Nat.pow 10 0 ≤ decimalUnits rank) := decide_eq_true positive
  refine ⟨of_decide_eq_true (@test_greatest (fun g => decide (Nat.pow 10 g ≤ _)) 11 0 base), ?_⟩
  rcases Nat.lt_or_ge (leadingGrid rank + 1) 2048 with inside | outside
  · have fails := @not_test_of_greatest_lt (fun g => decide (Nat.pow 10 g ≤ decimalUnits rank))
      ?_ 11 0 (leadingGrid rank + 1) (Nat.lt_succ_self _) inside
    · exact Nat.lt_of_not_le (of_decide_eq_false fails)
    · intro m n below passes
      have grows : 10 ^ m ≤ 10 ^ n := Nat.pow_le_pow_right (by decide) below
      exact decide_eq_true (grows.trans (of_decide_eq_true passes))
  · exact (decimalUnits_lt finite).trans_le (pow_le_pow_right₀ (by decide) outside)

theorem value_ne_zero_of_readsBack (nonzero : rank ≠ 0) (back : readsBack rank d) :
    d.value ≠ 0 := by
  intro zero
  have small : d.round.rank.val ≤ 0 := by
    refine (rank_round_le_iff (by decide)).2 (.inl ?_)
    rw [zero, ← magnitude_zero]
    exact magnitude_lt_middle 0
  have := beq_iff_eq.1 back
  omega

theorem value_onGrid_eq_zpow (grid count : ℕ) :
    (Decimal.onGrid grid count).value = count * 10 ^ ((grid : ℤ) - 1074) := by
  rw [value_onGrid, zpow_sub₀ (by decide), zpow_natCast, Nat.cast_mul, Nat.cast_pow, mul_div_assoc]
  rfl

theorem exists_onGrid {e : ℤ} (c : ℕ) (h : (grid : ℤ) ≤ e + 1074) :
    ∃ n, (Decimal.onGrid grid n).value = c * 10 ^ e := by
  obtain ⟨zeros, more⟩ := Int.le.dest h
  have scale : e = zeros + ((grid : ℤ) - 1074) := by omega
  refine ⟨c * 10 ^ zeros, ?_⟩
  rw [value_onGrid_eq_zpow, scale, zpow_add₀ (by decide), zpow_natCast, Nat.cast_mul, Nat.cast_pow,
    mul_assoc]
  rfl

theorem le_leading {e : ℤ} {c : ℕ} (small : c < 10 ^ limit) (h : limit + e + 1074 ≤ grid) :
    (c * 10 ^ e : ℚ) ≤ (Decimal.onGrid grid 1).value := by
  have bound : (c : ℚ) ≤ 10 ^ limit := by exact_mod_cast small.le
  calc
    (c * 10 ^ e : ℚ) ≤ 10 ^ limit * 10 ^ e :=
      mul_le_mul_of_nonneg_right bound (zpow_nonneg (by decide) e)
    _ = 10 ^ (limit + e) := by rw [zpow_add₀ (by decide), zpow_natCast]
    _ ≤ 10 ^ ((grid : ℤ) - 1074) := zpow_le_zpow_right₀ (by decide) (by omega)
    _ = (Decimal.onGrid grid 1).value := by rw [value_onGrid_eq_zpow, Nat.cast_one, one_mul]

theorem readsBack_leading {c : ℕ} {e : ℤ} (finite : rank < infinityRank) (nonzero : rank ≠ 0)
    (back : readsBack rank d) (value : d.value = c * 10 ^ e) (small : c < 10 ^ limit)
    (h : limit + e + 1074 ≤ leadingGrid rank) :
    readsBack rank (.onGrid (leadingGrid rank) 1) ∧
      |magnitude rank - (Decimal.onGrid (leadingGrid rank) 1).value| ≤
        |magnitude rank - d.value| := by
  refine readsBack_between finite back (Set.mem_uIcc.2 (.inl ⟨?_, ?_⟩))
  · rw [value]
    exact le_leading small h
  · rw [value_onGrid_le_magnitude_iff, one_mul]
    exact (leadingGrid_bounds finite nonzero).1

theorem Found.within (found : Found rank (leadingGrid rank) grid count)
    (finite : rank < infinityRank) (nonzero : rank ≠ 0) :
    (Decimal.onGrid grid count).Within (leadingGrid rank - grid + 1) := by
  have leading := (leadingGrid_bounds finite nonzero).2
  have digits : leadingGrid rank + 1 = (leadingGrid rank - grid + 1) + grid := by
    have := found.le
    omega
  rw [digits, pow_add] at leading
  have reach := Nat.div_lt_of_lt_mul (mul_comm _ (10 ^ grid) ▸ leading)
  have bound : count ≤ 10 ^ (leadingGrid rank - grid + 1) := by
    rcases found.neighbour with rfl | rfl <;> omega
  rcases bound.lt_or_eq with inside | carry
  · exact ⟨count, _, value_onGrid_eq_zpow grid count, inside⟩
  · refine ⟨1, (leadingGrid rank - grid + 1 : ℕ) + ((grid : ℤ) - 1074), ?_, ?_⟩
    · rw [value_onGrid_eq_zpow, carry, zpow_add₀ (by decide), zpow_natCast, Nat.cast_one, one_mul,
        Nat.cast_pow]
      rfl
    · exact Nat.one_lt_pow (Nat.succ_ne_zero _) (by decide)

theorem Found.least (found : Found rank (leadingGrid rank) grid count)
    (finite : rank < infinityRank) (nonzero : rank ≠ 0) (back : readsBack rank d)
    (within : d.Within limit) :
    leadingGrid rank - grid < limit ∧ (limit = leadingGrid rank - grid + 1 →
      |magnitude rank - (Decimal.onGrid grid count).value| ≤ |magnitude rank - d.value|) := by
  obtain ⟨c, e, value, small⟩ := within
  have le := found.le
  have positive : limit ≠ 0 := by
    rintro rfl
    obtain rfl : c = 0 := Nat.lt_one_iff.1 small
    exact value_ne_zero_of_readsBack nonzero back (by rw [value, Nat.cast_zero, zero_mul])
  have onGrid {g : ℕ} (h : (g : ℤ) ≤ e + 1074) :
      ∃ n, readsBack rank (.onGrid g n) ∧ (Decimal.onGrid g n).value = d.value := by
    obtain ⟨n, same⟩ := exists_onGrid c h
    rw [← value] at same
    exact ⟨n, (readsBack_congr same).trans back, same⟩
  have leading (h : limit + e + 1074 ≤ leadingGrid rank) :=
    readsBack_leading finite nonzero back value small h
  -- A decimal of few digits is on a coarse grid, or has its last digit below that grid and so its
  -- first one below the leading digit.
  refine ⟨?_, fun same => ?_⟩
  · by_contra fewer
    rcases Int.lt_or_le (e + 1074) ((grid + 1 : ℕ) : ℤ) with off | on
    · exact found.coarser _ (by omega) le_rfl 1 (leading (by omega)).1
    · obtain ⟨n, other, -⟩ := onGrid on
      exact found.coarser _ (Nat.lt_succ_self grid) (by omega) n other
  · rcases Int.lt_or_le (e + 1074) grid with off | on
    · obtain ⟨other, closer⟩ := leading (by omega)
      rcases le.lt_or_eq with finer | top
      · exact absurd other (found.coarser _ finer le_rfl 1)
      · rw [← top] at other closer
        exact (found.closest 1 other).trans closer
    · obtain ⟨n, other, value⟩ := onGrid on
      rw [← value]
      exact found.closest n other

variable {x : Binary64} {v w : ℚ}

structure RoundsTo (v : ℚ) (x : Binary64) : Prop where
  unsigned : Rounds |v| x.unsigned
  negative : x.negative ↔ v < 0

theorem abs_sign (x : Binary64) : |x.sign| = 1 := by
  rw [sign]
  split <;> simp

theorem RoundsTo.eq_sign_mul (rounds : RoundsTo v x) : v = x.sign * |v| := by
  rw [Binary64.sign]
  split
  · next h => rw [abs_of_neg (rounds.negative.1 h), neg_one_mul, neg_neg]
  · next h => rw [abs_of_nonneg (not_lt.1 (rounds.negative.not.1 h)), one_mul]

theorem RoundsTo.abs_value_sub (rounds : RoundsTo v x) :
    |x.value - v| = |magnitude x.rank - (|v|)| := by
  rw [value_eq, rounds.eq_sign_mul, ← mul_sub, abs_mul, abs_mul, abs_sign, abs_abs, one_mul, one_mul]

theorem RoundsTo.readsBack (rounds : RoundsTo v x) (h : d.value = |v|) :
    readsBack x.rank d := by
  have same : x.unsigned = d.round := Decimal.rounds_value_iff.1 (h ▸ rounds.unsigned)
  exact beq_iff_eq.2 (congrArg (fun y => y.rank.val) same).symm

theorem value_ne_zero_iff : x.value ≠ 0 ↔ x.rank.val ≠ 0 := by
  have signed : x.sign ≠ 0 := abs_ne_zero.1 (by simp [abs_sign])
  rw [value_eq, mul_ne_zero_iff, and_iff_right signed, ← magnitude_zero]
  exact magnitude_strictMono.injective.ne_iff

theorem value_shortest_pos (finite : x.isFinite) (nonzero : x.value ≠ 0) :
    0 < x.shortest.value := by
  have back := beq_iff_eq.2 (congrArg (fun y => y.rank.val) (round_shortest finite))
  exact (Decimal.value_nonneg _).lt_of_ne
    (value_ne_zero_of_readsBack (value_ne_zero_iff.1 nonzero) back).symm

theorem abs_sign_mul_value (x : Binary64) (d : Decimal) : |x.sign * d.value| = d.value := by
  rw [abs_mul, abs_sign, one_mul, abs_of_nonneg d.value_nonneg]

theorem roundsTo_shortest (finite : x.isFinite) (nonzero : x.value ≠ 0) :
    RoundsTo (x.sign * x.shortest.value) x where
  unsigned := by
    rw [abs_sign_mul_value, Decimal.rounds_value_iff, round_shortest finite]
  negative := by
    have positive := value_shortest_pos finite nonzero
    rw [sign]
    split <;> simp [*, positive.le]

theorem exists_found_shortest (finite : x.isFinite) : ∃ grid count,
    Found x.rank (leadingGrid x.rank) grid count ∧
      (Decimal.onGrid grid count).value = x.shortest.value := by
  obtain ⟨grid, count, same, found⟩ := exists_found (isFinite_iff.1 finite) (leadingGrid x.rank)
  refine ⟨grid, count, found, ?_⟩
  rw [shortest, same, Decimal.value_trim]

theorem Found.le_length {text : List Char}
    (found : Found x.rank (leadingGrid x.rank) grid count) (finite : x.isFinite)
    (nonzero : x.value ≠ 0) (denotes : Denotes text v) (rounds : RoundsTo v x) :
    leadingGrid x.rank - grid < (significantDigits text).length ∧
      ((significantDigits text).length = leadingGrid x.rank - grid + 1 →
        |magnitude x.rank - (Decimal.onGrid grid count).value| ≤ |x.value - v|) := by
  obtain ⟨d, same, digits⟩ := denotes.exists_decimal
  rw [rounds.abs_value_sub, ← same]
  exact found.least (isFinite_iff.1 finite) (value_ne_zero_iff.1 nonzero) (rounds.readsBack same)
    ((digits _).1 le_rfl)

end Binary64

end Number

open Binary64

variable {x : Binary64}

theorem denotes_display (finite : x.isFinite) :
    Denotes (Literal.number x).display.toList (x.sign * x.shortest.value) := by
  obtain ⟨whole, fraction, valid, text, same⟩ := x.shortest.exists_number_spelling
  rw [Literal.display, display_of_isFinite finite, sign, ← text]
  split
  · rw [neg_one_mul, ← same, String.toList_append, String.toList_ofList, String.toList_ofList]
    exact .minus valid
  · rw [one_mul, ← same, String.toList_ofList]
    exact .plain valid

theorem length_display {grid count : ℕ} (finite : x.isFinite) (nonzero : x.value ≠ 0)
    (found : Found x.rank (leadingGrid x.rank) grid count)
    (shown : (Decimal.onGrid grid count).value = x.shortest.value) :
    (significantDigits (Literal.number x).display.toList).length =
      leadingGrid x.rank - grid + 1 := by
  have denotes := denotes_display finite
  have low := (found.le_length finite nonzero denotes (roundsTo_shortest finite nonzero)).1
  obtain ⟨d, same, digits⟩ := denotes.exists_decimal
  rw [abs_sign_mul_value, ← shown] at same
  have high := (digits _).2 ((Decimal.within_congr same _).2
    (found.within (isFinite_iff.1 finite) (value_ne_zero_iff.1 nonzero)))
  omega

theorem number_denotes {source : String} {t : Token} (member : t ∈ (scan source).tokens)
    (kind : t.kind = .number) (literal : t.literal = some (.number x)) :
    ∃ v, Denotes t.lexeme.toList v ∧ RoundsTo v x := by
  have scanned : t.Scanned := ⟨by simp [kind], source, member⟩
  obtain ⟨whole, fraction, spells⟩ := scanned.exists_number kind
  obtain rfl : (Decimal.ofDigits whole fraction).round = x := by
    have found := spells.literal_of_number
    rw [literal] at found
    cases found
    rfl
  have nonneg := (Decimal.ofDigits whole fraction).value_nonneg
  refine ⟨(Decimal.ofDigits whole fraction).value, ?_, ?_, ?_⟩
  · rw [← spells.text_eq]
    exact .plain spells.valid
  · rw [abs_of_nonneg nonneg, Decimal.rounds_value_iff]
    rfl
  · exact iff_of_false Bool.false_ne_true nonneg.not_gt

/-- No decimal of fewer significant digits than the display of a double rounds to it, and none of as
many is closer to it. -/
theorem display_shortest (finite : x.isFinite) (nonzero : x.value ≠ 0) :
    ∃ v, Denotes (Literal.number x).display.toList v ∧ RoundsTo v x ∧
      (∀ text w, Denotes text w → RoundsTo w x →
        (significantDigits (Literal.number x).display.toList).length ≤
            (significantDigits text).length ∧
          ((significantDigits text).length =
              (significantDigits (Literal.number x).display.toList).length →
            |x.value - v| ≤ |x.value - w|)) ∧
      ∀ source, ∀ t ∈ (scan source).tokens, t.kind = .number →
        t.literal = some (.number x) →
          (significantDigits (Literal.number x).display.toList).length ≤
            (significantDigits t.lexeme.toList).length := by
  obtain ⟨grid, count, found, shown⟩ := exists_found_shortest finite
  have rounds := roundsTo_shortest finite nonzero
  rw [length_display finite nonzero found shown]
  refine ⟨_, denotes_display finite, rounds, ?_, ?_⟩
  · intro text w denotes other
    rw [rounds.abs_value_sub, abs_sign_mul_value, ← shown]
    exact found.le_length finite nonzero denotes other
  · intro source t member kind literal
    obtain ⟨w, denotes, other⟩ := number_denotes member kind literal
    exact (found.le_length finite nonzero denotes other).1

theorem display_shortest_whole :
    (Binary64.ofBits 0xc3e0000000000000).isFinite ∧ (Binary64.ofBits 0xc3e0000000000000).value ≠ 0 ∧
      (Literal.number (.ofBits 0xc3e0000000000000)).display = "-9223372036854776000" ∧
      ∃ v, Denotes "-9223372036854776000".toList v ∧
        RoundsTo v (.ofBits 0xc3e0000000000000) ∧
        (∀ text w, Denotes text w → RoundsTo w (.ofBits 0xc3e0000000000000) →
          16 ≤ (significantDigits text).length ∧
            ((significantDigits text).length = 16 →
              |(Binary64.ofBits 0xc3e0000000000000).value - v| ≤
                |(Binary64.ofBits 0xc3e0000000000000).value - w|)) ∧
        ∀ source, ∀ t ∈ (scan source).tokens, t.kind = .number →
          t.literal = some (.number (.ofBits 0xc3e0000000000000)) →
            16 ≤ (significantDigits t.lexeme.toList).length := by
  have finite : (Binary64.ofBits 0xc3e0000000000000).isFinite := by decide
  have nonzero : (Binary64.ofBits 0xc3e0000000000000).value ≠ 0 := value_ne_zero_iff.2 (by decide)
  have shown : (Literal.number (.ofBits 0xc3e0000000000000)).display = "-9223372036854776000" := by
    decide +kernel
  have digits : (significantDigits "-9223372036854776000".toList).length = 16 := by decide +kernel
  have least := display_shortest finite nonzero
  rw [shown, digits] at least
  exact ⟨finite, nonzero, shown, least⟩

end LoxLexer
