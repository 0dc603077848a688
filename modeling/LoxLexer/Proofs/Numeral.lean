import LoxLexer.Proofs.Content
import LoxLexer.Proofs.Rounding

namespace LoxLexer

open Number Grammar

theorem Number.Decimal.value_eq_div (d : Decimal) :
    d.value = (d.coefficient : ℚ) / (Nat.pow 10 d.places : ℕ) := by
  have scale : ((Nat.pow 10 d.places : ℕ) : ℚ) = 10 ^ d.places := Nat.cast_pow 10 d.places
  rw [value, scale]

theorem Number.Decimal.value_scale (d : Decimal) (exponent : ℤ) :
    (d.scale exponent).value = d.value * 10 ^ exponent := by
  have power : ∀ k, ((Nat.pow 10 k : ℕ) : ℚ) = 10 ^ k := Nat.cast_pow 10
  have ten : (10 : ℚ) ≠ 0 := by norm_num
  have split : ((exponent - d.places).toNat : ℤ) - (d.places - exponent).toNat =
      exponent - d.places := by omega
  calc (d.scale exponent).value
      = d.coefficient * (10 ^ ((exponent - d.places).toNat : ℤ) /
          10 ^ ((d.places - exponent).toNat : ℤ)) := by
        rw [value, scale, Nat.cast_mul, power, mul_div_assoc, zpow_natCast, zpow_natCast]
    _ = d.coefficient * (10 ^ exponent / 10 ^ (d.places : ℤ)) := by
        rw [← zpow_sub₀ ten, split, zpow_sub₀ ten]
    _ = d.value * 10 ^ exponent := by
        rw [value, zpow_natCast, div_mul_eq_mul_div, mul_div_assoc]

theorem Number.Decimal.rounds_value_iff {d : Decimal} {x : Binary64} :
    Binary64.Rounds d.value x ↔ x = d.round := by
  have pos : 0 < Nat.pow 10 d.places := Nat.pow_pos (by decide)
  rw [value_eq_div, Binary64.rounds_iff pos]
  rfl

variable {whole fraction : List Char} {source : String} {t : Token}

theorem Piece.text_number (whole fraction : List Char) :
    (number whole fraction).text = whole ++ if fraction = [] then [] else '.' :: fraction := by
  cases fraction with
  | nil => exact whole.append_nil.symm
  | cons => rfl

theorem Piece.Spells.literal_of_number (spells : (number whole fraction).Spells t) :
    t.literal = some (.number (Decimal.ofDigits whole fraction).round) := by
  have read := spells.meaning
  rw [Piece.meaning_number spells.valid, Meaning.token.injEq] at read
  exact read.2.symm

theorem Token.Scanned.exists_number (scanned : t.Scanned) (kind : t.kind = .number) :
    ∃ whole fraction, (Piece.number whole fraction).Spells t := by
  obtain ⟨p, spells⟩ := scanned.exists_spells
  have found := spells.kind
  rw [kind] at found
  obtain ⟨whole, fraction, rfl⟩ := Piece.exists_number_of_kind? found
  exact ⟨whole, fraction, spells⟩

/-- The literal of a number is the one double that its digits round to. -/
theorem number_rounds (member : t ∈ (scan source).tokens) (kind : t.kind = .number) :
    ∃ (whole fraction : List Char) (x : Binary64), Digits whole ∧ (∀ d ∈ fraction, d.isDigit) ∧
      t.lexeme.toList = whole ++ (if fraction = [] then [] else '.' :: fraction) ∧
      t.literal = some (.number x) ∧
      ∀ y, Binary64.Rounds (Nat.ofDigitChars 10 (whole ++ fraction) 0 / 10 ^ fraction.length) y ↔
        y = x := by
  have scanned : t.Scanned := ⟨by simp [kind], source, member⟩
  obtain ⟨whole, fraction, spells⟩ := scanned.exists_number kind
  obtain ⟨digits, after⟩ := spells.valid
  refine ⟨whole, fraction, _, digits, after, ?_, spells.literal_of_number, ?_⟩
  · rw [← spells.text_eq, Piece.text_number]
  · intro y
    exact Decimal.rounds_value_iff (d := .ofDigits whole fraction)

theorem number_rounds_tie :
    (⟨.number, "9007199254740993.0", some (.number (.ofBits 0x4340000000000000)), 1,
        ⟨1, 19, 1, 2⟩⟩ : Token) ∈ (scan "-9007199254740993.0").tokens ∧
      ∃ (whole fraction : List Char) (x : Binary64), Digits whole ∧ (∀ d ∈ fraction, d.isDigit) ∧
        "9007199254740993.0".toList = whole ++ (if fraction = [] then [] else '.' :: fraction) ∧
        some (Literal.number (.ofBits 0x4340000000000000)) = some (.number x) ∧
        ∀ y,
          Binary64.Rounds (Nat.ofDigitChars 10 (whole ++ fraction) 0 / 10 ^ fraction.length) y ↔
            y = x :=
  have member : (⟨.number, "9007199254740993.0", some (.number (.ofBits 0x4340000000000000)), 1,
      ⟨1, 19, 1, 2⟩⟩ : Token) ∈ (scan "-9007199254740993.0").tokens := by decide +kernel
  ⟨member, number_rounds member rfl⟩

end LoxLexer
