import LoxLexer.Number.Nearest

/-!
The shortest decimal that reads back as a given double. The multiples of a power of ten form a
grid, and of all its points the two that enclose the double are the closest, so a grid on which
neither reads back has none that does. The grids are tried from the coarsest that resolves the
double down to the multiples of `10 ^ -1074`, among which every double is.
-/

namespace LoxLexer.Number

def Decimal.onGrid (grid count : Nat) : Decimal :=
  if grid ≤ 1074 then ⟨count, 1074 - grid⟩ else ⟨count * Nat.pow 10 (grid - 1074), 0⟩

namespace Binary64

def decimalUnits (rank : Nat) : Nat := units rank * Nat.pow 5 1074

def leadingGrid (rank : Nat) : Nat :=
  greatest (fun grid => decide (Nat.pow 10 grid ≤ decimalUnits rank)) 11 0

def readsBack (rank : Nat) (d : Decimal) : Bool := d.round.rank.val == rank

/--
The first decimal that reads back, on this grid or a finer one. Where both neighbours do, the
closer one is taken, and of two equally close the upper.
-/
def shortestFrom (rank : Nat) : Nat → Decimal
  | 0 => .onGrid 0 (decimalUnits rank)
  | grid + 1 =>
    let step := Nat.pow 10 (grid + 1)
    let count := decimalUnits rank / step
    let lower := Decimal.onGrid (grid + 1) count
    let upper := Decimal.onGrid (grid + 1) (count + 1)
    if readsBack rank lower then
      if 2 * (decimalUnits rank % step) ≥ step && readsBack rank upper then upper else lower
    else if readsBack rank upper then upper
    else shortestFrom rank grid

def shortest (x : Binary64) : Decimal :=
  let d := shortestFrom x.rank (leadingGrid x.rank)
  .trim d.coefficient d.places

def display (x : Binary64) : String :=
  if x.isNaN then "NaN"
  else
    let magnitude := if x.isInfinite then "inf" else String.ofList x.shortest.spelling
    if x.negative then "-" ++ magnitude else magnitude

end Binary64

end LoxLexer.Number
