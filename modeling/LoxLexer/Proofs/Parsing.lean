import LoxLexer.Proofs.Boundary

namespace LoxLexer

open Grammar

namespace Number

variable {whole fraction text : List Char} {d : Char}

theorem Decimal.scale_zero (d : Decimal) : d.scale 0 = d := by
  simp [scale]

theorem toLower_of_isDigit (digit : d.isDigit) : d.toLower = d := by
  have bounds := Alphabet.toNat_of_isDigit digit
  refine dif_neg fun upper => ?_
  have low : 'A'.toNat ≤ d.toNat := UInt32.le_iff_toNat_le.1 upper.1
  have : 'A'.toNat = 0x41 := rfl
  omega

theorem signed_of_isDigit (digit : d.isDigit) : signed (d :: text) = (false, d :: text) := by
  unfold signed
  split
  · next same =>
    obtain ⟨rfl, -⟩ := List.cons.inj same
    contradiction
  · next same =>
    obtain ⟨rfl, -⟩ := List.cons.inj same
    contradiction
  · rfl

theorem named?_of_isDigit (digit : d.isDigit) : named? (d :: text) = none := by
  have other : ∀ c name, String.ofList ((d :: text).map Char.toLower) = String.ofList (c :: name) →
      c.isDigit := by
    intro c name same
    have lists := String.ofList_injective same
    rw [List.map_cons, toLower_of_isDigit digit] at lists
    rwa [← (List.cons.inj lists).1]
  unfold named?
  split
  · next same => cases other 'i' ['n', 'f'] same
  · next same => cases other 'i' ['n', 'f', 'i', 'n', 'i', 't', 'y'] same
  · next same => cases other 'n' ['a', 'n'] same
  · rfl

theorem parse_of_isDigit (digit : d.isDigit) :
    parse (d :: text) =
      match decimal? (d :: text) with
      | some value => .ok value.round
      | none => .error .invalid := by
  rw [parse, if_neg (List.cons_ne_nil d text), signed_of_isDigit digit]
  simp only [named?_of_isDigit digit]
  cases decimal? (d :: text) <;> rfl

theorem parse_minus (digit : d.isDigit) :
    parse ('-' :: d :: text) =
      match decimal? (d :: text) with
      | some value => .ok { value.round with negative := true }
      | none => .error .invalid := by
  have split : signed ('-' :: d :: text) = (true, d :: text) := rfl
  rw [parse, if_neg (List.cons_ne_nil '-' _), split]
  simp only [named?_of_isDigit digit]
  cases decimal? (d :: text) <;> rfl

end Number

namespace Piece

open Number

variable {whole fraction : List Char}

theorem decimal?_text (valid : (number whole fraction).Valid) :
    decimal? (number whole fraction).text = some (.ofDigits whole fraction) := by
  obtain ⟨⟨nonempty, digits⟩, after⟩ := valid
  rw [decimal?]
  cases fraction with
  | nil =>
    simp [text, List.takeWhile_eq_self_iff.2 digits, List.dropWhile_eq_nil_iff.2 digits, nonempty,
      exponent?, Decimal.scale_zero]
  | cons f fraction =>
    have stop : ∀ c ∈ ('.' :: f :: fraction).head?, c.isDigit = false := by simp
    rw [text, takeWhile_append_of_stop digits stop, dropWhile_append_of_stop digits stop]
    simp only [List.takeWhile_eq_self_iff.2 after, List.dropWhile_eq_nil_iff.2 after, nonempty,
      exponent?, Decimal.scale_zero, false_and, if_false, Option.map_some]

theorem exists_cons_text_number (valid : (number whole fraction).Valid) :
    ∃ d rest, (number whole fraction).text = d :: rest ∧ d.isDigit := by
  obtain ⟨⟨nonempty, digits⟩, -⟩ := valid
  obtain ⟨d, whole, rfl⟩ := List.exists_cons_of_ne_nil nonempty
  have digit := digits d List.mem_cons_self
  cases fraction <;> exact ⟨d, _, rfl, digit⟩

/-- What is found as a number is one that can be read. -/
theorem parse_text (valid : (number whole fraction).Valid) :
    parse (number whole fraction).text = .ok (Decimal.ofDigits whole fraction).round := by
  have found := decimal?_text valid
  obtain ⟨d, rest, begins, digit⟩ := exists_cons_text_number valid
  rw [begins] at found ⊢
  rw [parse_of_isDigit digit, found]

theorem parse_minus_text (valid : (number whole fraction).Valid) :
    parse ('-' :: (number whole fraction).text) =
      .ok { (Decimal.ofDigits whole fraction).round with negative := true } := by
  have found := decimal?_text valid
  obtain ⟨d, rest, begins, digit⟩ := exists_cons_text_number valid
  rw [begins] at found ⊢
  rw [parse_minus digit, found]

theorem meaning_number (valid : (number whole fraction).Valid) :
    (number whole fraction).meaning =
      .token .number (some (.number (Decimal.ofDigits whole fraction).round)) := by
  rw [meaning, parse_text valid]

example : (number ['x'] []).meaning = .fault (.malformedNumber "x" "invalid float literal") := by
  decide

end Piece

end LoxLexer
