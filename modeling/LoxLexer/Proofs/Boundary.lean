import LoxLexer.Proofs.Grammar
import LoxLexer.Proofs.Opening
import Mathlib.Data.List.TakeWhile

/-!
Where pieces end. A piece is found in front of a text exactly if the text does not begin with
something that the piece would go on with. One character settles that, except after a number that
has no fraction: there a point counts only with a digit behind it. So some pieces are those of a
text exactly if each of them ends where the next one begins.
-/

namespace LoxLexer

theorem Alphabet.not_isWordChar_of_isBlank {c : Char} (h : isBlank c) : isWordChar c = false := by
  rw [isBlank_iff] at h
  revert c
  simp [isWordChar, isWordStart, not_isLetter]

namespace Piece

open Alphabet Grammar

def Valid : Piece → Prop
  | blank c => isBlank c
  | comment body => '\n' ∉ body
  | string body => '"' ∉ body
  | number whole fraction => Digits whole ∧ ∀ d ∈ fraction, d.isDigit
  | word [] => False
  | word (c :: rest) => isWordStart c ∧ ∀ d ∈ rest, isWordChar d
  | symbol _ => True
  | unclosed body => '"' ∉ body
  | stray c => ¬ isBlank c ∧ c ≠ '"' ∧ ¬ c.isDigit ∧ Symbol.ofChar? c = none ∧ ¬ isWordStart c

def takes : Piece → Char → Bool
  | comment _, c => c != '\n'
  | number _ _, c => c.isDigit
  | word _, c => isWordChar c
  | symbol s, c => s == .slash && c == '/' || s.withEqual?.isSome && c == '='
  | unclosed _, _ => true
  | _, _ => false

def pointed : List Char → Bool
  | '.' :: d :: _ => d.isDigit
  | _ => false

/-- The piece does not go on into this text. -/
structure Ends (p : Piece) (rest : List Char) : Prop where
  character : ∀ c ∈ rest.head?, p.takes c = false
  fraction : ∀ whole, p = number whole [] → pointed rest = false

variable {p q : Piece} {body rest more : List Char} {c d : Char} {test : Char → Bool}

theorem valid_word_iff {letters : List Char} : (word letters).Valid ↔ Word letters := by
  cases letters with
  | nil => exact Iff.rfl
  | cons => simp only [Valid, Word, isWordStart_iff, isWordChar_iff]

theorem pointed_cons (rest : List Char) :
    pointed ('.' :: rest) = rest.head?.any Char.isDigit := by
  cases rest <;> rfl

theorem pointed_append (h : 2 ≤ rest.length) (more : List Char) :
    pointed (rest ++ more) = pointed rest := by
  match rest with
  | c :: d :: rest =>
    by_cases point : c = '.'
    · subst point
      rfl
    · simp [pointed, point]

theorem Ends.nil : p.Ends [] := ⟨by simp, fun _ _ => rfl⟩

/-- Two characters of the text after a piece settle that the piece ends there, and one does unless
it is a point. -/
theorem Ends.append (ends : p.Ends rest) (nonempty : rest ≠ [])
    (point : rest = ['.'] → p.Ends ('.' :: more)) : p.Ends (rest ++ more) := by
  match rest with
  | [c] =>
    by_cases h : c = '.'
    · subst h
      exact point rfl
    · exact ⟨ends.character, fun _ _ => by simp [pointed, h]⟩
  | c :: d :: rest =>
    refine ⟨ends.character, fun whole number => ?_⟩
    rw [pointed_append (by simp) more]
    exact ends.fraction whole number

theorem Ends.append_of_two_le (ends : p.Ends rest) (long : 2 ≤ rest.length) (more : List Char) :
    p.Ends (rest ++ more) := by
  refine ends.append ?_ ?_
  · rintro rfl
    contradiction
  · rintro rfl
    contradiction

theorem Ends.blank (blank : isBlank c) (closed : ∀ body, p ≠ unclosed body)
    (line : ∀ body, p = comment body → c = '\n') (rest : List Char) : p.Ends (c :: rest) := by
  have notWord := not_isWordChar_of_isBlank blank
  have notPoint : c ≠ '.' := by
    rintro rfl
    contradiction
  have notSign : c ≠ '/' ∧ c ≠ '=' := by
    constructor <;> (rintro rfl; contradiction)
  refine ⟨?_, fun _ _ => by simp [pointed, notPoint]⟩
  rintro _ ⟨⟩
  cases p with
  | comment body => simp [takes, line body rfl]
  | unclosed body => cases closed body rfl
  | number => simp_all [takes, isWordChar]
  | word => exact notWord
  | symbol => simp [takes, notSign]
  | _ => rfl

theorem Ends.eq_nil (ends : (unclosed body).Ends rest) : rest = [] := by
  cases rest with
  | nil => rfl
  | cons c rest => cases ends.character c rfl

/-! What is found is valid and ends where it is cut off. -/

theorem not_mem_takeWhile (c : Char) (rest : List Char) : c ∉ rest.takeWhile (· != c) := by
  intro member
  have := List.mem_takeWhile_imp member
  simp at this

theorem stop_dropWhile (test : Char → Bool) (rest : List Char) :
    ∀ c ∈ (rest.dropWhile test).head?, test c = false := by
  intro c head
  have stop := rest.head?_dropWhile_not test
  rwa [head] at stop

theorem quoted_found (rest : List Char) :
    (quoted rest).1.Valid ∧ (quoted rest).1.Ends (quoted rest).2 := by
  unfold quoted
  split
  · next none =>
    refine ⟨?_, .nil⟩
    intro member
    simpa using List.dropWhile_eq_nil_iff.1 none _ member
  · exact ⟨not_mem_takeWhile _ _, fun _ _ => rfl, by simp⟩

theorem commented_found (rest : List Char) :
    (commented rest).1.Valid ∧ (commented rest).1.Ends (commented rest).2 :=
  ⟨not_mem_takeWhile _ _, stop_dropWhile _ _, by rintro _ ⟨⟩⟩

theorem numeric_found (h : d.isDigit) (rest : List Char) :
    (numeric d rest).1.Valid ∧ (numeric d rest).1.Ends (numeric d rest).2 := by
  have whole : Digits (d :: rest.takeWhile Char.isDigit) :=
    ⟨by simp, List.forall_mem_cons.2 ⟨h, fun _ => List.mem_takeWhile_imp⟩⟩
  have stop := stop_dropWhile Char.isDigit rest
  rw [numeric]
  split
  · next f after cut =>
    rw [cut] at stop
    split
    · next digit =>
      have fraction : ∀ d ∈ f :: after.takeWhile Char.isDigit, d.isDigit :=
        List.forall_mem_cons.2 ⟨digit, fun _ => List.mem_takeWhile_imp⟩
      exact ⟨⟨whole, fraction⟩, stop_dropWhile _ _, by simp⟩
    · next notDigit => exact ⟨⟨whole, by simp⟩, stop, fun _ _ => Bool.eq_false_iff.2 notDigit⟩
  · next noFraction =>
    refine ⟨⟨whole, by simp⟩, stop, fun _ _ => ?_⟩
    unfold pointed
    split
    · next point => cases noFraction _ _ point
    · rfl

theorem wordy_found (h : isWordStart c) (rest : List Char) :
    (wordy c rest).1.Valid ∧ (wordy c rest).1.Ends (wordy c rest).2 :=
  ⟨⟨h, fun _ => List.mem_takeWhile_imp⟩, stop_dropWhile _ _, by rintro _ ⟨⟩⟩

theorem extend_ends {s : Symbol} (h : s = .slash → rest.head? ≠ some '/') :
    (symbol (s.extend rest).1).Ends (s.extend rest).2 := by
  refine ⟨?_, by simp⟩
  cases rest with
  | nil => simp [Symbol.extend]
  | cons c rest =>
    simp only [List.head?_cons, ne_eq, Option.some.injEq] at h
    cases s with
    | bang | equal | greater | less =>
      simp only [Symbol.extend, Symbol.withEqual?]
      split <;> simp_all [takes, Symbol.withEqual?]
    | _ => simp_all [Symbol.extend, Symbol.withEqual?, takes]

theorem symbolic_found (s : Symbol) (rest : List Char) :
    (symbolic s rest).1.Valid ∧ (symbolic s rest).1.Ends (symbolic s rest).2 := by
  unfold symbolic
  split
  · exact commented_found _
  · next noComment =>
    refine ⟨trivial, extend_ends ?_⟩
    rintro rfl head
    obtain ⟨after, rfl⟩ := List.head?_eq_some_iff.1 head
    exact noComment after rfl rfl

theorem first_found (c : Char) (rest : List Char) :
    (first c rest).1.Valid ∧ (first c rest).1.Ends (first c rest).2 := by
  rw [first]
  split
  · next blank => exact ⟨blank, fun _ _ => rfl, by simp⟩
  next notBlank =>
  split
  · exact quoted_found rest
  next notQuote =>
  split
  · next digit => exact numeric_found digit rest
  next notDigit =>
  split
  · exact symbolic_found _ rest
  next notSymbol =>
  split
  · next start => exact wordy_found start rest
  · next notStart =>
    exact ⟨⟨notBlank, notQuote, notDigit, notSymbol, notStart⟩, fun _ _ => rfl, by simp⟩

/-! A valid piece is found again in front of any text that it does not go on into. -/

theorem forall_ne (h : c ∉ body) : ∀ d ∈ body, (d != c) = true := by
  intro d member
  apply bne_iff_ne.2
  rintro rfl
  exact h member

theorem takeWhile_append_of_stop (inside : ∀ c ∈ body, test c)
    (stop : ∀ c ∈ rest.head?, test c = false) : (body ++ rest).takeWhile test = body := by
  rw [List.takeWhile_append_of_pos inside]
  cases rest with
  | nil => simp
  | cons c rest => simp [stop c rfl]

theorem dropWhile_append_of_stop (inside : ∀ c ∈ body, test c)
    (stop : ∀ c ∈ rest.head?, test c = false) : (body ++ rest).dropWhile test = rest := by
  rw [List.dropWhile_append_of_pos inside]
  cases rest with
  | nil => rfl
  | cons c rest => simp [stop c rfl]

theorem quoted_append (free : '"' ∉ body) (rest : List Char) :
    quoted (body ++ '"' :: rest) = (string body, rest) := by
  have stop : ∀ c ∈ ('"' :: rest).head?, (c != '"') = false := by simp
  rw [quoted, dropWhile_append_of_stop (forall_ne free) stop,
    takeWhile_append_of_stop (forall_ne free) stop]

theorem quoted_eq_unclosed (free : '"' ∉ body) : quoted body = (unclosed body, []) := by
  rw [quoted, List.dropWhile_eq_nil_iff.2 (forall_ne free)]

theorem commented_append (free : '\n' ∉ body) (ends : (comment body).Ends rest) :
    commented (body ++ rest) = (comment body, rest) := by
  rw [commented, takeWhile_append_of_stop (forall_ne free) ends.character,
    dropWhile_append_of_stop (forall_ne free) ends.character]

theorem numeric_append_whole {whole : List Char} (digits : ∀ d ∈ whole, d.isDigit)
    (ends : (number (d :: whole) []).Ends rest) :
    numeric d (whole ++ rest) = (number (d :: whole) [], rest) := by
  rw [numeric, takeWhile_append_of_stop digits ends.character,
    dropWhile_append_of_stop digits ends.character]
  split
  · next f after =>
    have notDigit : f.isDigit = false := ends.fraction _ rfl
    simp [notDigit]
  · rfl

theorem numeric_append_fraction {whole fraction : List Char} {f : Char}
    (digits : ∀ d ∈ whole, d.isDigit) (after : ∀ d ∈ f :: fraction, d.isDigit)
    (ends : (number (d :: whole) (f :: fraction)).Ends rest) :
    numeric d (whole ++ '.' :: f :: fraction ++ rest) =
      (number (d :: whole) (f :: fraction), rest) := by
  obtain ⟨digit, inside⟩ := List.forall_mem_cons.1 after
  have stop : ∀ c ∈ ('.' :: f :: (fraction ++ rest)).head?, c.isDigit = false := by simp
  rw [List.append_assoc, List.cons_append, List.cons_append, numeric,
    takeWhile_append_of_stop digits stop, dropWhile_append_of_stop digits stop]
  simp only [digit, if_true]
  rw [takeWhile_append_of_stop inside ends.character,
    dropWhile_append_of_stop inside ends.character]

theorem wordy_append (letterly : ∀ d ∈ body, isWordChar d) (ends : (word (c :: body)).Ends rest) :
    wordy c (body ++ rest) = (word (c :: body), rest) := by
  rw [wordy, takeWhile_append_of_stop letterly ends.character,
    dropWhile_append_of_stop letterly ends.character]

theorem symbolic_eq_symbol {s : Symbol} (ends : (symbol s).Ends rest) :
    symbolic s rest = (symbol s, rest) := by
  have stop := ends.character
  unfold symbolic
  split
  · simp [takes] at stop
  · cases rest with
    | nil => rfl
    | cons c rest =>
      cases found : s.withEqual? with
      | none => simp [Symbol.extend, found]
      | some t =>
        have : c ≠ '=' := by
          have := stop c rfl
          simp_all [takes]
        simp [Symbol.extend, found, this]

theorem symbolic_equal {r s : Symbol} (h : r.withEqual? = some s) (rest : List Char) :
    symbolic r ('=' :: rest) = (symbol s, rest) := by
  unfold symbolic
  split
  · contradiction
  · simp [Symbol.extend, h]

theorem first_symbol (s : Symbol) (ends : (symbol s).Ends rest) (e : s.text ++ rest = c :: body) :
    first c body = (symbol s, rest) := by
  obtain ⟨r, d, ⟨rfl, form⟩ | ⟨longer, form⟩, found⟩ := s.exists_ofChar?
  · rw [form] at e
    obtain ⟨rfl, rfl⟩ := List.cons.inj e
    rw [first_of_ofChar? _ found]
    exact symbolic_eq_symbol ends
  · rw [form] at e
    obtain ⟨rfl, rfl⟩ := List.cons.inj e
    rw [first_of_ofChar? _ found]
    exact symbolic_equal longer rest

theorem first_eq_of_ends (valid : p.Valid) (ends : p.Ends rest) (e : p.text ++ rest = c :: body) :
    first c body = (p, rest) := by
  cases p with
  | blank =>
    obtain ⟨rfl, rfl⟩ := List.cons.inj e
    exact first_of_isBlank _ valid
  | comment =>
    obtain ⟨rfl, rfl⟩ := List.cons.inj e
    rw [first_of_ofChar? _ rfl]
    exact commented_append valid ends
  | string inside =>
    rw [text, List.append_assoc] at e
    obtain ⟨rfl, rfl⟩ := List.cons.inj e
    rw [first_quote]
    exact quoted_append valid rest
  | number whole fraction =>
    obtain ⟨⟨nonempty, digits⟩, after⟩ := valid
    obtain ⟨d, whole, rfl⟩ := List.exists_cons_of_ne_nil nonempty
    obtain ⟨digit, inside⟩ := List.forall_mem_cons.1 digits
    cases fraction with
    | nil =>
      obtain ⟨rfl, rfl⟩ := List.cons.inj e
      rw [first_of_isDigit _ digit]
      exact numeric_append_whole inside ends
    | cons f fraction =>
      obtain ⟨rfl, rfl⟩ := List.cons.inj e
      rw [first_of_isDigit _ digit]
      exact numeric_append_fraction inside after ends
  | word letters =>
    cases letters with
    | nil => cases valid
    | cons d letters =>
      obtain ⟨rfl, rfl⟩ := List.cons.inj e
      rw [first_of_isWordStart _ valid.1]
      exact wordy_append valid.2 ends
  | symbol s => exact first_symbol s ends e
  | unclosed inside =>
    obtain rfl := ends.eq_nil
    obtain ⟨rfl, rfl⟩ := List.cons.inj e
    rw [first_quote, List.append_eq, List.append_nil]
    exact quoted_eq_unclosed valid
  | stray =>
    obtain ⟨rfl, rfl⟩ := List.cons.inj e
    obtain ⟨notBlank, notQuote, notDigit, notSymbol, notStart⟩ := valid
    simp [first, notBlank, notQuote, notDigit, notSymbol, notStart]

theorem Valid.text_ne_nil (valid : p.Valid) : p.text ≠ [] := by
  cases p with
  | number whole fraction => cases fraction <;> simp [text, valid.1.1]
  | word letters =>
    rintro rfl
    exact valid
  | symbol s => exact s.text_ne_nil
  | _ => simp [text]

end Piece

open Piece

variable {p q : Piece} {ps qs : List Piece} {text rest : List Char}

theorem pieces_text_append (valid : p.Valid) (ends : p.Ends rest) :
    pieces (p.text ++ rest) = p :: pieces rest := by
  obtain ⟨c, body, e⟩ := List.exists_cons_of_ne_nil
    (List.append_ne_nil_of_left_ne_nil valid.text_ne_nil rest)
  rw [e, pieces, first_eq_of_ends valid ends e]

theorem pieces_of_isBlank {c : Char} (h : Alphabet.isBlank c) (rest : List Char) :
    pieces (c :: rest) = .blank c :: pieces rest := by
  rw [pieces, first_of_isBlank _ h]

def Fit : List Piece → Prop
  | [] => True
  | p :: ps => p.Valid ∧ p.Ends (ps.flatMap Piece.text) ∧ Fit ps

theorem fit_pieces (text : List Char) : Fit (pieces text) := by
  fun_induction pieces text with
  | case1 => trivial
  | case2 c rest ih =>
    obtain ⟨valid, ends⟩ := first_found c rest
    rw [← flatMap_text_pieces (first c rest).2] at ends
    exact ⟨valid, ends, ih⟩

theorem Fit.pieces_eq (fit : Fit ps) : pieces (ps.flatMap Piece.text) = ps := by
  induction ps with
  | nil => simp [pieces]
  | cons p ps ih =>
    obtain ⟨valid, ends, fit⟩ := fit
    rw [List.flatMap_cons, pieces_text_append valid ends, ih fit]

theorem pieces_eq_iff : pieces text = ps ↔ Fit ps ∧ ps.flatMap Piece.text = text := by
  constructor
  · rintro rfl
    exact ⟨fit_pieces text, flatMap_text_pieces text⟩
  · rintro ⟨fit, rfl⟩
    exact fit.pieces_eq

theorem Fit.of_append (fit : Fit (ps ++ qs)) : Fit qs := by
  induction ps with
  | nil => exact fit
  | cons p ps ih => exact ih fit.2.2

theorem Fit.valid (fit : Fit ps) (member : p ∈ ps) : p.Valid := by
  induction ps with
  | nil => cases member
  | cons q ps ih =>
    rcases List.mem_cons.1 member with rfl | member
    · exact fit.1
    · exact ih fit.2.2 member

theorem Piece.Valid.eq_of_text_eq (p_valid : p.Valid) (q_valid : q.Valid) (h : p.text = q.text) :
    p = q := by
  have := pieces_text_append p_valid .nil
  rw [h, pieces_text_append q_valid .nil] at this
  exact (List.cons.inj this).1.symm

end LoxLexer
