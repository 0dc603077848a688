import LoxLexer.Proofs.Numeral

namespace LoxLexer

open Number

namespace Number

namespace Decimal

theorem value_trim (coefficient places : ℕ) :
    (trim coefficient places).value = (⟨coefficient, places⟩ : Decimal).value := by
  induction places generalizing coefficient with
  | zero => rfl
  | succ places ih =>
    rw [trim]
    split
    · next whole =>
      obtain ⟨c, rfl⟩ := Nat.dvd_of_mod_eq_zero whole
      rw [ih, Nat.mul_div_cancel_left c (by decide), value, value]
      dsimp only
      rw [Nat.cast_mul, Nat.cast_ofNat, pow_succ', mul_div_mul_left _ _ (by decide)]
    · rfl

theorem round_eq_of_value_eq {d e : Decimal} (h : d.value = e.value) : d.round = e.round := by
  rw [← rounds_value_iff, ← h, rounds_value_iff]

theorem round_trim (d : Decimal) : (trim d.coefficient d.places).round = d.round :=
  round_eq_of_value_eq (value_trim d.coefficient d.places)

variable {d : Decimal}

theorem length_toDigits_rest_le (h : 0 < d.places) :
    (Nat.toDigits 10 (d.coefficient % Nat.pow 10 d.places)).length ≤ d.places :=
  (Nat.length_toDigits_le_iff (by decide) h).2 (Nat.mod_lt _ (Nat.pow_pos (by decide)))

theorem length_fractionDigits (h : 0 < d.places) : d.fractionDigits.length = d.places := by
  rw [fractionDigits, List.length_leftpad, max_eq_left (length_toDigits_rest_le h)]

theorem ofDigitChars_fractionDigits (h : 0 < d.places) (whole : ℕ) :
    Nat.ofDigitChars 10 d.fractionDigits whole =
      10 ^ d.places * whole + d.coefficient % Nat.pow 10 d.places := by
  have padded := Nat.add_sub_of_le (length_toDigits_rest_le h)
  rw [fractionDigits, List.leftpad, Nat.ofDigitChars_append, Nat.ofDigitChars_replicate_zero,
    Nat.ofDigitChars_eq_ofDigitChars_zero, Nat.ofDigitChars_ten_toDigits, ← Nat.mul_assoc,
    ← Nat.pow_add, padded]

theorem isDigit_of_mem_toDigits {n : ℕ} {c : Char} (h : c ∈ Nat.toDigits 10 n) : c.isDigit :=
  Nat.isDigit_of_mem_toDigits (by decide) (by decide) h

theorem isDigit_of_mem_fractionDigits {c : Char} (h : c ∈ d.fractionDigits) : c.isDigit := by
  rcases List.mem_append.1 h with zero | digit
  · rw [List.eq_of_mem_replicate zero]
    rfl
  · exact isDigit_of_mem_toDigits digit

theorem exists_number_spelling (d : Decimal) : ∃ whole fraction,
    (Piece.number whole fraction).Valid ∧ (Piece.number whole fraction).text = d.spelling ∧
      ofDigits whole fraction = d := by
  rw [spelling]
  by_cases h : d.places = 0
  · refine ⟨Nat.toDigits 10 d.coefficient, [],
      ⟨⟨Nat.toDigits_ne_nil, fun _ => isDigit_of_mem_toDigits⟩, by simp⟩, by rw [if_pos h]; rfl, ?_⟩
    rw [ofDigits, List.append_nil, Nat.ofDigitChars_ten_toDigits, List.length_nil, ← h]
  · have pos := Nat.pos_of_ne_zero h
    have nonempty : d.fractionDigits ≠ [] := by
      rw [← List.length_pos_iff, length_fractionDigits pos]
      exact pos
    refine ⟨Nat.toDigits 10 (d.coefficient / Nat.pow 10 d.places), d.fractionDigits,
      ⟨⟨Nat.toDigits_ne_nil, fun _ => isDigit_of_mem_toDigits⟩,
        fun _ => isDigit_of_mem_fractionDigits⟩, ?_, ?_⟩
    · rw [if_neg h, Piece.text_number, if_neg nonempty]
    · rw [ofDigits, Nat.ofDigitChars_append, Nat.ofDigitChars_ten_toDigits,
        ofDigitChars_fractionDigits pos, length_fractionDigits pos]
      congr 1
      exact Nat.div_add_mod _ _

end Decimal

namespace Binary64

variable {x : Binary64} {rank : ℕ}

def unsigned (x : Binary64) : Binary64 := { x with negative := false }

theorem rounds_value (positive : x.negative = false) (finite : x.isFinite) : Rounds x.value x where
  positive := positive
  number := by
    rw [isFinite_iff] at finite
    rw [← Bool.not_eq_true, isNaN_iff]
    omega
  overflow := by
    have finite := isFinite_iff.1 finite
    have reach : magnitude x.rank ≤ magnitude (infinityRank - 1) :=
      magnitude_strictMono.monotone (by omega)
    rw [isInfinite_iff, ← middle_last, value_of_positive positive]
    refine iff_of_false finite.ne (not_le.2 ?_)
    exact reach.trans_lt (magnitude_lt_middle _)
  closest _ y _ := by
    rw [sub_self, abs_zero]
    exact abs_nonneg _
  even _ y _ other tie := by
    rw [sub_self, abs_zero, abs_eq_zero, sub_eq_zero] at tie
    exact absurd tie.symm other

theorem round_of_value_eq {d : Decimal} (positive : x.negative = false) (finite : x.isFinite)
    (h : d.value = x.value) : d.round = x :=
  (Decimal.rounds_value_iff.1 (h ▸ rounds_value positive finite)).symm

theorem value_onGrid_zero (rank : ℕ) :
    (Decimal.onGrid 0 (decimalUnits rank)).value = magnitude rank := by
  have ten : (2 : ℚ) * 5 = 10 := by norm_num
  have scale : ∀ k, ((Nat.pow 5 k : ℕ) : ℚ) = 5 ^ k := Nat.cast_pow 5
  rw [Decimal.onGrid, if_pos (Nat.zero_le _), Decimal.value, decimalUnits, magnitude]
  dsimp only
  rw [Nat.cast_mul, scale 1074, Nat.sub_zero, ← ten, mul_pow,
    mul_div_mul_right _ _ (pow_ne_zero _ (by decide))]

theorem readsBack_onGrid_zero (finite : rank < infinityRank) :
    readsBack rank (.onGrid 0 (decimalUnits rank)) := by
  have number := value_of_positive (x := ⟨false, rank, finite.trans (by decide)⟩) rfl
  have same := round_of_value_eq rfl (isFinite_iff.2 finite)
    ((value_onGrid_zero rank).trans number.symm)
  rw [readsBack, same, beq_self_eq_true]

theorem readsBack_shortestFrom (finite : rank < infinityRank) (grid : ℕ) :
    readsBack rank (shortestFrom rank grid) := by
  induction grid with
  | zero =>
    rw [shortestFrom]
    exact readsBack_onGrid_zero finite
  | succ grid ih =>
    rw [shortestFrom]
    split
    · next lower =>
      split
      · next upper => exact (Bool.and_eq_true_iff.1 upper).2
      · exact lower
    · split
      · next upper => exact upper
      · exact ih

theorem round_shortest (finite : x.isFinite) : x.shortest.round = x.unsigned := by
  have back := beq_iff_eq.1 (readsBack_shortestFrom (isFinite_iff.1 finite) (leadingGrid x.rank))
  rw [shortest, Decimal.round_trim]
  exact congrArg (Binary64.mk false) (Fin.ext back)

theorem display_of_isFinite (finite : x.isFinite) : x.display =
    if x.negative then "-" ++ String.ofList x.shortest.spelling
    else String.ofList x.shortest.spelling := by
  rw [isFinite_iff] at finite
  have number : ¬ x.isNaN := by rw [isNaN_iff]; omega
  have bounded : ¬ x.isInfinite := by rw [isInfinite_iff]; omega
  rw [display, if_neg number, if_neg bounded]

theorem parse_spelling_shortest (finite : x.isFinite) :
    parse x.shortest.spelling = .ok x.unsigned ∧
      parse ('-' :: x.shortest.spelling) = .ok { x.unsigned with negative := true } := by
  obtain ⟨whole, fraction, valid, text, same⟩ := x.shortest.exists_number_spelling
  rw [← text, Piece.parse_text valid, Piece.parse_minus_text valid, same, round_shortest finite]
  exact ⟨rfl, rfl⟩

theorem parse_display (number : ¬ x.isNaN) : parse x.display.toList = .ok x := by
  have bound : ¬ infinityRank < x.rank.val := mt (isNaN_iff.2 ·) number
  obtain ⟨negative, rank⟩ := x
  by_cases finite : (Binary64.mk negative rank).isFinite
  · obtain ⟨plain, minus⟩ := parse_spelling_shortest finite
    rw [display_of_isFinite finite]
    cases negative with
    | false => simpa [unsigned] using plain
    | true => simpa [unsigned] using minus
  · have infinite : rank.val = infinityRank := by
      rw [isFinite_iff] at finite
      dsimp only at bound finite
      omega
    obtain rfl : rank = ⟨infinityRank, by decide⟩ := Fin.ext infinite
    cases negative <;> rfl

end Binary64

end Number

variable {whole fraction : List Char} {source : String}

theorem pieces_number (valid : (Piece.number whole fraction).Valid) :
    pieces (Piece.number whole fraction).text = [.number whole fraction] := by
  have cut := pieces_text_append valid .nil
  rwa [List.append_nil, pieces] at cut

theorem pieces_minus_number (valid : (Piece.number whole fraction).Valid) :
    pieces ('-' :: (Piece.number whole fraction).text) =
      [.symbol .minus, .number whole fraction] := by
  have ends : (Piece.symbol .minus).Ends (Piece.number whole fraction).text :=
    ⟨fun _ _ => rfl, by simp⟩
  have cut := pieces_text_append (p := .symbol .minus) trivial ends
  rwa [pieces_number valid] at cut

/-- What a finite double is displayed as is clean, and is the number itself, behind a minus sign if
the double is negative. -/
theorem scan_display {x : Binary64} (finite : x.isFinite) :
    (scan (Literal.number x).display).isClean ∧
      (scan (Literal.number x).display).tokens.map Token.content =
        if x.negative then
          [(.symbol .minus, "-", none),
            (.number, (Literal.number x.unsigned).display, some (.number x.unsigned)),
            (.endOfInput, "", none)]
        else
          [(.number, (Literal.number x).display, some (.number x)), (.endOfInput, "", none)] := by
  have shown := Binary64.display_of_isFinite finite
  have shownUnsigned : x.unsigned.display = String.ofList x.shortest.spelling :=
    Binary64.display_of_isFinite (x := x.unsigned) finite
  have back := Binary64.round_shortest finite
  obtain ⟨whole, fraction, valid, text, same⟩ := x.shortest.exists_number_spelling
  rw [← same] at back
  rw [← text] at shown shownUnsigned
  have content := Piece.content?_number valid
  have clean := Segment.fault?_of_content? content
  rw [Literal.display, Literal.display, shown, shownUnsigned, ← back]
  split
  · have read : pieces ("-" ++ String.ofList (Piece.number whole fraction).text).toList =
        [.symbol .minus, .number whole fraction] := by
      rw [String.toList_append, String.toList_ofList, String.toList_ofList]
      exact pieces_minus_number valid
    have found := scan_of_pieces read (by rw [List.filterMap_cons, List.filterMap_cons, clean]; rfl)
    rw [List.filterMap_cons, List.filterMap_cons, content] at found
    exact found
  · next positive =>
    have plain : x.unsigned = x := by
      rw [Binary64.unsigned, ← Bool.eq_false_of_not_eq_true positive]
    have read : pieces (String.ofList (Piece.number whole fraction).text).toList =
        [.number whole fraction] := by
      rw [String.toList_ofList]
      exact pieces_number valid
    have found := scan_of_pieces read (by rw [List.filterMap_cons, clean]; rfl)
    rw [List.filterMap_cons, content] at found
    rwa [← plain, ← back]

theorem scan_display_binade :
    (Binary64.ofBits 0xc340000000000000).isFinite ∧
      (Literal.number (.ofBits 0xc340000000000000)).display = "-9007199254740992" ∧
      (scan "-9007199254740992").isClean ∧
      (scan "-9007199254740992").tokens.map Token.content =
        [(.symbol .minus, "-", none),
          (.number, "9007199254740992", some (.number (.ofBits 0x4340000000000000))),
          (.endOfInput, "", none)] := by
  have finite : (Binary64.ofBits 0xc340000000000000).isFinite := by decide
  have shown : (Literal.number (.ofBits 0xc340000000000000)).display = "-9007199254740992" := by
    decide +kernel
  have shownUnsigned : (Literal.number (.ofBits 0x4340000000000000)).display =
      "9007199254740992" := by
    decide +kernel
  have unsigned : (Binary64.ofBits 0xc340000000000000).unsigned = .ofBits 0x4340000000000000 := by
    decide
  have read := scan_display finite
  rw [if_pos (by decide), shown, unsigned, shownUnsigned] at read
  exact ⟨finite, shown, read⟩

end LoxLexer
