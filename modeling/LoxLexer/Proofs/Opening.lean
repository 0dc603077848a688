import LoxLexer.Piece

namespace LoxLexer

namespace Alphabet

theorem letterRanges_bounds : ∀ r ∈ letterRanges,
    0x41 ≤ r.1 ∧ (r.2 ≤ 0x5A ∨ 0x61 ≤ r.1) ∧ (r.2 ≤ 0x7A ∨ 0xAA ≤ r.1) := by
  decide +kernel

theorem toNat_of_isLetter {c : Char} (h : isLetter c) :
    0x41 ≤ c.toNat ∧ (c.toNat ≤ 0x5A ∨ 0x61 ≤ c.toNat) ∧ (c.toNat ≤ 0x7A ∨ 0xAA ≤ c.toNat) := by
  obtain ⟨r, member, inside⟩ := List.any_eq_true.1 h
  have bounds := letterRanges_bounds r member
  simp only [Bool.and_eq_true, decide_eq_true_eq] at inside
  omega

theorem not_isLetter {c : Char} (h : c.toNat < 0x41) : isLetter c = false := by
  apply Bool.eq_false_iff.2
  intro letter
  have := toNat_of_isLetter letter
  omega

theorem toNat_of_isWordStart {c : Char} (h : isWordStart c) :
    0x41 ≤ c.toNat ∧ (c.toNat ≤ 0x5A ∨ 0x5F ≤ c.toNat) ∧ (c.toNat ≤ 0x7A ∨ 0xAA ≤ c.toNat) := by
  rcases Bool.or_eq_true_iff.1 h with underscore | letter
  · rw [beq_iff_eq.1 underscore]
    decide
  · have := toNat_of_isLetter letter
    omega

theorem toNat_of_isDigit {c : Char} (h : c.isDigit) : 0x30 ≤ c.toNat ∧ c.toNat ≤ 0x39 := by
  simp only [Char.isDigit, Bool.and_eq_true, decide_eq_true_eq] at h
  exact ⟨UInt32.le_iff_toNat_le.1 h.1, UInt32.le_iff_toNat_le.1 h.2⟩

theorem not_isDigit {c : Char} (h : c.toNat < 0x30 ∨ 0x39 < c.toNat) : ¬ c.isDigit := by
  intro digit
  have := toNat_of_isDigit digit
  omega

theorem isBlank_iff {c : Char} : isBlank c ↔ c ∈ [' ', '\t', '\r', '\n'] := by
  simp [isBlank, or_assoc]

theorem not_isBlank {c : Char} (h : 0x20 < c.toNat) : ¬ isBlank c := by
  intro blank
  simp only [isBlank, Bool.or_eq_true, beq_iff_eq] at blank
  rcases blank with ((rfl | rfl) | rfl) | rfl <;> contradiction

theorem ne_quote {c : Char} (h : c.toNat ≠ 0x22) : c ≠ '"' := by
  rintro rfl
  contradiction

theorem toNat_of_ofChar? {c : Char} {s : Symbol} (h : Symbol.ofChar? c = some s) :
    0x20 < c.toNat ∧ c.toNat ≠ 0x22 ∧ (c.toNat < 0x30 ∨ 0x39 < c.toNat) ∧
      (c.toNat < 0x41 ∨ c.toNat = 0x7B ∨ c.toNat = 0x7D) := by
  unfold Symbol.ofChar? at h
  split at h <;> first | decide | cases h

end Alphabet

namespace Symbol

theorem exists_ofChar? (s : Symbol) : ∃ r c,
    (s = r ∧ s.text = [c] ∨ r.withEqual? = some s ∧ s.text = [c, '=']) ∧
      ofChar? c = some r := by
  cases s with
  | bangEqual => exact ⟨.bang, '!', .inr ⟨rfl, rfl⟩, rfl⟩
  | equalEqual => exact ⟨.equal, '=', .inr ⟨rfl, rfl⟩, rfl⟩
  | greaterEqual => exact ⟨.greater, '>', .inr ⟨rfl, rfl⟩, rfl⟩
  | lessEqual => exact ⟨.less, '<', .inr ⟨rfl, rfl⟩, rfl⟩
  | _ => exact ⟨_, _, .inl ⟨rfl, rfl⟩, rfl⟩

theorem extend_fst (s : Symbol) (rest : List Char) :
    (s.extend rest).1 = s ∨ s.withEqual? = some (s.extend rest).1 := by
  unfold extend
  split
  · exact .inl rfl
  · split
    · next found =>
      split
      · exact .inr found
      · exact .inl rfl
    · exact .inl rfl

end Symbol

namespace Piece

open Alphabet

variable {c : Char} (rest : List Char)

theorem first_of_isBlank (h : isBlank c) : first c rest = (blank c, rest) := by
  simp [first, h]

theorem first_quote : first '"' rest = quoted rest := by
  simp [first, isBlank]

theorem first_of_isDigit (h : c.isDigit) : first c rest = numeric c rest := by
  have bounds := toNat_of_isDigit h
  have notBlank : ¬ isBlank c := not_isBlank (by omega)
  have notQuote : c ≠ '"' := ne_quote (by omega)
  simp [first, notBlank, notQuote, h]

theorem first_of_ofChar? {s : Symbol} (h : Symbol.ofChar? c = some s) :
    first c rest = symbolic s rest := by
  have bounds := toNat_of_ofChar? h
  have notBlank : ¬ isBlank c := not_isBlank (by omega)
  have notQuote : c ≠ '"' := ne_quote (by omega)
  have notDigit : ¬ c.isDigit := not_isDigit (by omega)
  simp [first, notBlank, notQuote, notDigit, h]

theorem first_of_isWordStart (h : isWordStart c) : first c rest = wordy c rest := by
  have bounds := toNat_of_isWordStart h
  have notBlank : ¬ isBlank c := not_isBlank (by omega)
  have notQuote : c ≠ '"' := ne_quote (by omega)
  have notDigit : ¬ c.isDigit := not_isDigit (by omega)
  have notSymbol : Symbol.ofChar? c = none := by
    cases found : Symbol.ofChar? c with
    | none => rfl
    | some s =>
      have := toNat_of_ofChar? found
      omega
  simp [first, notBlank, notQuote, notDigit, notSymbol, h]

end Piece

end LoxLexer
