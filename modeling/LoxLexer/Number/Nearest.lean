import LoxLexer.Number.Binary64
import LoxLexer.Number.Bisection
import LoxLexer.Number.Decimal

namespace LoxLexer.Number

namespace Binary64

def rankBelow (numerator denominator : Nat) : Nat :=
  greatest (fun rank => decide (units rank * denominator ≤ numerator <<< 1074)) 63 0

/--
The rank next to `numerator / denominator`. A number in the middle of two magnitudes goes to the
even rank, which is the one of even significand.
-/
def nearestRank (numerator denominator : Nat) : Nat :=
  let below := rankBelow numerator denominator
  let middle := (units below + units (below + 1)) * denominator
  let twice := numerator <<< 1075
  if middle < twice ∨ (middle = twice ∧ below % 2 = 1) then below + 1 else below

def nearest (numerator denominator : Nat) : Binary64 where
  negative := false
  rank := ⟨min (nearestRank numerator denominator) infinityRank,
    Nat.lt_of_le_of_lt (Nat.min_le_right _ _) (by decide)⟩

end Binary64

def Decimal.round (d : Decimal) : Binary64 := Binary64.nearest d.coefficient (Nat.pow 10 d.places)

end LoxLexer.Number
