namespace LoxLexer.Number

/-- `coefficient / 10 ^ places`. One number has many of these, one for each count of final zeros. -/
structure Decimal where
  coefficient : Nat
  places : Nat
  deriving DecidableEq

namespace Decimal

def ofDigits (whole fraction : List Char) : Decimal where
  coefficient := Nat.ofDigitChars 10 (whole ++ fraction) 0
  places := fraction.length

def trim : Nat → Nat → Decimal
  | coefficient, 0 => ⟨coefficient, 0⟩
  | coefficient, places + 1 =>
    if coefficient % 10 = 0 then trim (coefficient / 10) places else ⟨coefficient, places + 1⟩

def fractionDigits (d : Decimal) : List Char :=
  (Nat.toDigits 10 (d.coefficient % Nat.pow 10 d.places)).leftpad d.places '0'

def spelling (d : Decimal) : List Char :=
  if d.places = 0 then Nat.toDigits 10 d.coefficient
  else Nat.toDigits 10 (d.coefficient / Nat.pow 10 d.places) ++ '.' :: d.fractionDigits

end Decimal

end LoxLexer.Number
