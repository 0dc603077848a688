import LoxLexer.Proofs.Parsing

namespace LoxLexer

def Piece.segment (p : Piece) : Segment := ⟨p.text, p.meaning⟩

def segments (text : List Char) : List Segment := (pieces text).map Piece.segment

namespace Grammar

open Piece

variable {body more whole fraction letters rest t : List Char} {c d : Char} {m : Meaning}
variable {s : Segment} {ss xs ys : List Segment}

/-- The piece goes at least as far as the match, and means the same if it goes no further. -/
structure Covers (p : Piece) (t : List Char) (m : Meaning) : Prop where
  reaches : t <+: p.text
  faultless : ∀ f, p.meaning ≠ .fault f
  agrees : p.text = t → p.meaning = m

theorem Covers.rfl {p : Piece} (h : ∀ f, p.meaning ≠ .fault f) : Covers p p.text p.meaning :=
  ⟨List.prefix_rfl, h, fun _ => Eq.refl _⟩

theorem commented_covers (h : '\n' ∉ body) :
    Covers (commented (body ++ more)).1 ('/' :: '/' :: body) .trivia := by
  have read : (commented (body ++ more)).1 = comment (body ++ more.takeWhile (· != '\n')) := by
    rw [commented, List.takeWhile_append_of_pos (forall_ne h)]
  rw [read]
  refine ⟨?_, by simp [meaning], fun _ => rfl⟩
  simp [text]

theorem quoted_covers (h : '"' ∉ body) :
    Covers (quoted (body ++ '"' :: more)).1 ('"' :: body ++ ['"'])
      (.token .string (some (.text (String.ofList body)))) := by
  rw [quoted_append h]
  exact .rfl (by simp [meaning])

theorem numeric_fst (d : Char) (rest : List Char) :
    ∃ fraction, (numeric d rest).1 = number (d :: rest.takeWhile Char.isDigit) fraction := by
  rw [numeric]
  split
  · split
    · exact ⟨_, rfl⟩
    · exact ⟨[], rfl⟩
  · exact ⟨[], rfl⟩

theorem numeric_covers_integer (digit : d.isDigit) (h : ∀ c ∈ whole, c.isDigit) :
    Covers (numeric d (whole ++ more)).1 (d :: whole)
      (.token .number (some (.number (Number.Decimal.ofDigits (d :: whole) []).round))) := by
  obtain ⟨fraction, read⟩ := numeric_fst d (whole ++ more)
  rw [List.takeWhile_append_of_pos h] at read
  have valid := (numeric_found digit (whole ++ more)).1
  rw [read] at valid ⊢
  refine ⟨?_, by simp [meaning_number valid], ?_⟩
  · cases fraction <;> simp [text]
  · intro e
    cases fraction with
    | nil =>
      have : more.takeWhile Char.isDigit = [] := by simpa [text] using e
      rw [meaning_number valid, this, List.append_nil]
    | cons f fraction => simp [text] at e

theorem numeric_covers_fractional (digit : d.isDigit) (h : ∀ c ∈ whole, c.isDigit)
    (digits : Digits fraction) :
    Covers (numeric d (whole ++ '.' :: fraction ++ more)).1 (d :: whole ++ '.' :: fraction)
      (.token .number (some (.number (Number.Decimal.ofDigits (d :: whole) fraction).round))) := by
  obtain ⟨nonempty, inside⟩ := digits
  obtain ⟨f, fraction, rfl⟩ := List.exists_cons_of_ne_nil nonempty
  simp only [List.mem_cons, forall_eq_or_imp] at inside
  have read : (numeric d (whole ++ '.' :: f :: fraction ++ more)).1 =
      number (d :: whole) (f :: (fraction ++ more.takeWhile Char.isDigit)) := by
    simp [numeric, List.takeWhile_append_of_pos h, List.dropWhile_append_of_pos h,
      List.takeWhile_append_of_pos inside.2, inside.1]
  have valid := (numeric_found digit (whole ++ '.' :: f :: fraction ++ more)).1
  rw [read] at valid ⊢
  refine ⟨?_, by simp [meaning_number valid], ?_⟩
  · simp [text]
  · intro e
    have : more.takeWhile Char.isDigit = [] := by simpa [text] using e
    rw [meaning_number valid, this, List.append_nil]

theorem matched_word (h : Word letters) : Matched letters (word letters).meaning := by
  cases found : Keyword.ofWord? (String.ofList letters) with
  | none =>
    rw [meaning, Kind.ofWord, found]
    exact .identifier h found
  | some k =>
    rw [meaning, Kind.ofWord, found]
    exact .reserved h found

theorem wordy_covers (h : ∀ d ∈ letters, Alphabet.isWordChar d) :
    Covers (wordy c (letters ++ more)).1 (c :: letters) (word (c :: letters)).meaning := by
  have read : (wordy c (letters ++ more)).1 =
      word (c :: (letters ++ more.takeWhile Alphabet.isWordChar)) := by
    rw [wordy, List.takeWhile_append_of_pos h]
  rw [read]
  refine ⟨?_, ?_, ?_⟩
  · simp [text]
  · intro f
    rw [meaning]
    split <;> simp
  · intro e
    exact congrArg (fun letters => (word letters).meaning) e

theorem symbolic_covers (s : Symbol) (rest : List Char) :
    Covers (symbolic s rest).1 s.text (.token (.symbol s) none) := by
  unfold symbolic
  split
  · refine ⟨?_, by simp [commented, meaning], ?_⟩
    · simp [commented, text, Symbol.text]
    · simp [commented, text, Symbol.text]
  · rcases s.extend_fst rest with same | longer
    · rw [same]
      exact .rfl (by simp [meaning])
    · have grown := Symbol.text_withEqual? longer
      exact ⟨⟨['='], grown.symm⟩, by simp [meaning], by simp [text, grown]⟩

theorem symbolic_covers_equal {r s : Symbol} (h : r.withEqual? = some s) (rest : List Char) :
    Covers (symbolic r ('=' :: rest)).1 s.text (.token (.symbol s) none) := by
  rw [symbolic_equal h]
  exact .rfl (by simp [meaning])

theorem first_covers_word (h : Word t) (e : c :: rest = t ++ more) :
    Covers (first c rest).1 t (word t).meaning := by
  cases t with
  | nil => cases h
  | cons d letters =>
    obtain ⟨rfl, rfl⟩ := List.cons.inj e
    obtain ⟨start, inside⟩ := valid_word_iff.2 h
    rw [first_of_isWordStart _ start]
    exact wordy_covers inside

theorem first_covers (h : Matched t m) (e : c :: rest = t ++ more) :
    Covers (first c rest).1 t m := by
  cases h with
  | blank blank =>
    obtain ⟨rfl, rfl⟩ := List.cons.inj e
    rw [first_of_isBlank _ (Alphabet.isBlank_iff.2 blank)]
    exact .rfl (by simp [meaning])
  | comment newlineFree =>
    obtain ⟨rfl, rfl⟩ := List.cons.inj e
    rw [first_of_ofChar? _ rfl]
    exact commented_covers newlineFree
  | string quoteFree =>
    rw [List.append_assoc] at e
    obtain ⟨rfl, rfl⟩ := List.cons.inj e
    rw [first_quote]
    exact quoted_covers quoteFree
  | integer digits =>
    obtain ⟨d, whole, rfl⟩ := List.exists_cons_of_ne_nil digits.1
    obtain ⟨rfl, rfl⟩ := List.cons.inj e
    obtain ⟨digit, inside⟩ := List.forall_mem_cons.1 digits.2
    rw [first_of_isDigit _ digit]
    exact numeric_covers_integer digit inside
  | fractional digits after =>
    obtain ⟨d, whole, rfl⟩ := List.exists_cons_of_ne_nil digits.1
    obtain ⟨rfl, rfl⟩ := List.cons.inj e
    obtain ⟨digit, inside⟩ := List.forall_mem_cons.1 digits.2
    rw [first_of_isDigit _ digit]
    exact numeric_covers_fractional digit inside after
  | reserved letterly found =>
    have covers := first_covers_word letterly e
    rwa [meaning, Kind.ofWord, found] at covers
  | identifier letterly found =>
    have covers := first_covers_word letterly e
    rwa [meaning, Kind.ofWord, found] at covers
  | @symbol _ s listed =>
    obtain rfl := mem_operators_iff.1 listed
    obtain ⟨r, d, ⟨rfl, form⟩ | ⟨longer, form⟩, found⟩ := s.exists_ofChar?
    · rw [form] at e
      obtain ⟨rfl, rfl⟩ := List.cons.inj e
      rw [first_of_ofChar? _ found]
      exact symbolic_covers s _
    · rw [form] at e
      obtain ⟨rfl, rfl⟩ := List.cons.inj e
      rw [first_of_ofChar? _ found]
      exact symbolic_covers_equal longer _

theorem matched_or_given_up {p : Piece} (valid : p.Valid) :
    Matched p.text p.meaning ∨ (∃ body, p = unclosed body) ∨ ∃ c, p = stray c ∧ c ≠ '"' := by
  cases p with
  | blank => exact .inl (.blank (Alphabet.isBlank_iff.1 valid))
  | comment => exact .inl (.comment valid)
  | string => exact .inl (.string valid)
  | number whole fraction =>
    rw [meaning_number valid]
    cases fraction with
    | nil => exact .inl (.integer valid.1)
    | cons f fraction => exact .inl (.fractional valid.1 ⟨by simp, valid.2⟩)
  | word => exact .inl (matched_word (valid_word_iff.1 valid))
  | symbol s => exact .inl (matched_symbol s)
  | unclosed body => exact .inr (.inl ⟨body, rfl⟩)
  | stray c => exact .inr (.inr ⟨c, rfl, valid.2.1⟩)

theorem first_cases (c : Char) (rest : List Char) :
    Matched (first c rest).1.text (first c rest).1.meaning ∨
      c = '"' ∧ (first c rest).1 = unclosed rest ∨ c ≠ '"' ∧ (first c rest).1 = stray c := by
  have whole := text_first c rest
  obtain ⟨valid, ends⟩ := first_found c rest
  rcases matched_or_given_up valid with matched | ⟨body, found⟩ | ⟨d, found, notQuote⟩
  · exact .inl matched
  · rw [found] at whole ends
    rw [ends.eq_nil, List.append_nil] at whole
    obtain ⟨rfl, rfl⟩ := List.cons.inj whole
    exact .inr (.inl ⟨rfl, found⟩)
  · rw [found] at whole
    obtain ⟨rfl, -⟩ := List.cons.inj whole
    exact .inr (.inr ⟨notQuote, found⟩)

theorem leading_first (c : Char) (rest : List Char) :
    Leading (c :: rest) (first c rest).1.segment := by
  have covers : ∀ t m, Matched t m → t <+: c :: rest → Covers (first c rest).1 t m := by
    rintro t m h ⟨more, e⟩
    exact first_covers h e.symm
  rcases first_cases c rest with matched | ⟨rfl, found⟩ | ⟨notQuote, found⟩
  · refine .longest matched ⟨_, text_first c rest⟩ ?_
    intro t m h pre
    exact (covers t m h pre).reaches.length_le
  · rw [found] at covers ⊢
    exact .unclosed fun t m h pre => (covers t m h pre).faultless _ rfl
  · rw [found] at covers ⊢
    exact .stray (fun t m h pre => (covers t m h pre).faultless _ rfl) notQuote

theorem Leading.eq_first (h : Leading (c :: rest) s) : s = (first c rest).1.segment := by
  have isPrefix : (first c rest).1.text <+: c :: rest := ⟨_, text_first c rest⟩
  cases h with
  | longest matched pre longest =>
    obtain ⟨more, e⟩ := pre
    have covers := first_covers matched e.symm
    rcases first_cases c rest with found | ⟨_, found⟩ | ⟨_, found⟩
    -- The piece goes as far as any match and is one, so the two end at the same place.
    · have same := covers.reaches.eq_of_length_le (longest _ _ found isPrefix)
      rw [Piece.segment, covers.agrees same.symm, same]
    · rw [found] at covers
      cases covers.faultless _ rfl
    · rw [found] at covers
      cases covers.faultless _ rfl
  | unclosed unmatched =>
    rcases first_cases '"' rest with found | ⟨_, found⟩ | ⟨notQuote, _⟩
    · cases unmatched _ _ found isPrefix
    · rw [found]
      rfl
    · contradiction
  | stray unmatched notQuote =>
    rcases first_cases c rest with found | ⟨quote, _⟩ | ⟨_, found⟩
    · cases unmatched _ _ found isPrefix
    · contradiction
    · rw [found]
      rfl

theorem segmented_segments (text : List Char) : Segmented text (segments text) := by
  rw [segments]
  fun_induction pieces text with
  | case1 => exact .nil
  | case2 c rest ih =>
    have lead := leading_first c rest
    rw [← text_first c rest] at lead ⊢
    exact .cons (s := (first c rest).1.segment) lead ih

theorem Segmented.eq_segments (h : Segmented t ss) : ss = segments t := by
  induction h with
  | nil => simp [segments, pieces]
  | @cons s rest ss lead _ ih =>
    obtain ⟨c, tail, e⟩ := List.exists_cons_of_ne_nil
      (List.append_ne_nil_of_left_ne_nil lead.ne_nil rest)
    rw [e] at lead ⊢
    have same := lead.eq_first
    have cut : s.text ++ (first c tail).2 = s.text ++ rest := by
      rw [e, ← text_first c tail, same]
      rfl
    have left : (first c tail).2 = rest := List.append_cancel_left cut
    rw [segments, pieces, left, List.map_cons, ← same, ih]
    rfl

theorem segmented_iff : Segmented t ss ↔ ss = segments t :=
  ⟨Segmented.eq_segments, fun h => h ▸ segmented_segments t⟩

end Grammar

open Grammar

variable {text : List Char} {xs ys : List Segment}

@[simp] theorem segments_nil : segments [] = [] := by simp [segments, pieces]

theorem flatMap_text_segments (text : List Char) : (segments text).flatMap Segment.text = text :=
  (segmented_segments text).flatMap_text

theorem exists_leading_of_mem_segments {s : Segment} (h : s ∈ segments text) :
    ∃ rest, Leading (s.text ++ rest) s :=
  (segmented_segments text).exists_leading h

theorem text_ne_nil_of_mem_segments {s : Segment} (h : s ∈ segments text) : s.text ≠ [] := by
  obtain ⟨rest, lead⟩ := exists_leading_of_mem_segments h
  exact lead.ne_nil

theorem segments_of_split (h : segments text = xs ++ ys) :
    segments (xs.flatMap Segment.text) = xs ∧ segments (ys.flatMap Segment.text) = ys := by
  obtain ⟨front, back⟩ := (segmented_iff.2 h.symm).split
  exact ⟨front.eq_segments.symm, back.eq_segments.symm⟩

end LoxLexer
