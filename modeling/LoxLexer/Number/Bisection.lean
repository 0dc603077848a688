namespace LoxLexer.Number

/--
The greatest of `base`, …, `base + 2 ^ bits - 1` that passes, for a test that `base` passes and
that stays failed once failed.
-/
def greatest (test : Nat → Bool) : Nat → Nat → Nat
  | 0, base => base
  | bits + 1, base =>
    if test (base + (1 <<< bits)) then greatest test bits (base + (1 <<< bits))
    else greatest test bits base

theorem test_greatest {test : Nat → Bool} (bits : Nat) {base : Nat} (h : test base) :
    test (greatest test bits base) := by
  induction bits generalizing base with
  | zero => exact h
  | succ bits ih =>
    unfold greatest
    split
    · next hi => exact ih hi
    · exact ih h

theorem not_test_of_greatest_lt {test : Nat → Bool} (closed : ∀ m n, m ≤ n → test n → test m)
    (bits : Nat) {base n : Nat} (above : greatest test bits base < n)
    (below : n < base + (1 <<< bits)) : test n = false := by
  induction bits generalizing base with
  | zero => simp [greatest] at above below; omega
  | succ bits ih =>
    have := Nat.shiftLeft_succ 1 bits
    unfold greatest at above
    split at above
    · exact ih above (by omega)
    · next fails =>
      by_cases near : n < base + (1 <<< bits)
      · exact ih above near
      · exact Bool.eq_false_iff.2 fun passes => fails (closed _ n (by omega) passes)

end LoxLexer.Number
