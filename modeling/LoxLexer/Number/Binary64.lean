/-!
The double-precision numbers of IEEE 754: a sign, an 11-bit exponent and a 52-bit fraction.
Exponent and fraction read as one 63-bit number are the rank, and a greater magnitude has a
greater rank. Every finite magnitude is a whole multiple of the least one, `2 ^ -1074`, so
comparing magnitudes is comparing natural numbers.
-/

namespace LoxLexer.Number

structure Binary64 where
  negative : Bool
  rank : Fin 0x8000000000000000
  deriving DecidableEq

namespace Binary64

/-- Infinity stands where the next finite magnitude, `2 ^ 1024`, would; the NaNs stand above it. -/
def infinityRank : Nat := 0x7FF0000000000000

def isNaN (x : Binary64) : Bool := decide (infinityRank < x.rank)

def isInfinite (x : Binary64) : Bool := decide (x.rank.val = infinityRank)

def isFinite (x : Binary64) : Bool := decide (x.rank < infinityRank)

abbrev leadingBit : Nat := 0x10000000000000

/--
The magnitude of a rank, in units of `2 ^ -1074`. The leading bit of the significand is not
stored; it is there except at the least exponent, which takes the scale of the one above it.
-/
def units (rank : Nat) : Nat :=
  if rank < leadingBit then rank
  else (leadingBit + rank % leadingBit) <<< (rank / leadingBit - 1)

def ofBits (bits : UInt64) : Binary64 where
  negative := decide (0x8000000000000000 ≤ bits.toNat)
  rank := ⟨bits.toNat % 0x8000000000000000, Nat.mod_lt _ (by decide)⟩

def toBits (x : Binary64) : UInt64 :=
  UInt64.ofNat (if x.negative then 0x8000000000000000 + x.rank else x.rank)

def equal (x y : Binary64) : Bool :=
  !x.isNaN && !y.isNaN && (x == y || (x.rank == 0 && y.rank == 0))

theorem equal_self (x : Binary64) : x.equal x = !x.isNaN := by
  simp [equal]

@[simp] theorem toBits_ofBits (bits : UInt64) : (ofBits bits).toBits = bits := by
  have := bits.toNat_lt
  apply UInt64.toNat_inj.1
  simp only [ofBits, toBits, decide_eq_true_eq, UInt64.toNat_ofNat']
  split <;> omega

@[simp] theorem ofBits_toBits (x : Binary64) : ofBits x.toBits = x := by
  obtain ⟨negative, rank, h⟩ := x
  simp only [ofBits, toBits, UInt64.toNat_ofNat', mk.injEq, Fin.mk.injEq]
  cases negative
  · simp only [Bool.false_eq_true, if_false, decide_eq_false_iff_not]
    omega
  · simp only [if_true, decide_eq_true_eq]
    omega

end Binary64

end LoxLexer.Number
