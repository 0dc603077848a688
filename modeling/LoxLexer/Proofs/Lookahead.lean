import LoxLexer.Proofs.Automaton
import LoxLexer.Proofs.Content

namespace LoxLexer

def Token.FollowedBy (t : Token) (source rest : String) : Prop :=
  ∃ before : String, source = before ++ t.lexeme ++ rest ∧ before.utf8ByteSize = t.span.start

def Fault.isIllegal : Fault → Bool
  | .illegalCharacter _ => true
  | _ => false

variable {ps qs : List Piece} {p : Piece} {a : String} {t : Token} {i : Nat}

theorem Fit.pieces_append_of_two_le (fit : Fit (ps ++ qs))
    (long : 2 ≤ (qs.flatMap Piece.text).length) (more : List Char) :
    pieces ((ps ++ qs).flatMap Piece.text ++ more) =
      ps ++ pieces (qs.flatMap Piece.text ++ more) := by
  induction ps with
  | nil => rfl
  | cons p ps ih =>
    rw [List.cons_append] at fit
    obtain ⟨valid, ends, fit⟩ := fit
    have longer : 2 ≤ ((ps ++ qs).flatMap Piece.text).length := by
      rw [List.flatMap_append, List.length_append]
      omega
    rw [List.cons_append, List.flatMap_cons, List.append_assoc,
      pieces_text_append valid (ends.append_of_two_le longer more), ih fit, List.cons_append]

def tokenCount (ps : List Piece) : Nat :=
  (Segment.collect Segment.token? [] (ps.map Piece.segment)).length

theorem exists_piece_of_getElem? (found : (scan a).tokens[i]? = some t)
    (proper : t.kind ≠ .endOfInput) :
    ∃ ps p qs, pieces a.toList = ps ++ p :: qs ∧ tokenCount ps = i ∧
      p.segment.token? (ps.flatMap Piece.text) = some t := by
  rw [scan_eq, List.getElem?_append] at found
  split at found
  · obtain ⟨ps, p, qs, cut, token, index⟩ := exists_piece_of_collect found
    exact ⟨ps, p, qs, cut, index, token⟩
  · obtain rfl := List.mem_singleton.1 (List.mem_of_getElem? found)
    contradiction

theorem getElem?_tokenCount (cut : pieces a.toList = ps ++ p :: qs)
    (token : p.segment.token? (ps.flatMap Piece.text) = some t) :
    (scan a).tokens[tokenCount ps]? = some t := by
  have before : (ps.map Piece.segment).flatMap Segment.text = ps.flatMap Piece.text :=
    List.flatMap_map ..
  rw [scan_eq, segments, cut, List.map_append, List.map_cons, Segment.collect_append,
    Segment.collect, List.nil_append, before, token, tokenCount]
  simp

theorem followedBy_iff {rest : String} (cut : pieces a.toList = ps ++ p :: qs)
    (token : p.segment.token? (ps.flatMap Piece.text) = some t) :
    t.FollowedBy a rest ↔ qs.flatMap Piece.text = rest.toList := by
  obtain ⟨lexeme, -, start, -, -, -⟩ := Segment.token?_eq_some token
  have whole : ps.flatMap Piece.text ++ (p.text ++ qs.flatMap Piece.text) = a.toList := by
    rw [← flatMap_text_pieces a.toList, cut, List.flatMap_append, List.flatMap_cons]
  have text : t.lexeme.toList = p.text := by rw [lexeme, String.toList_ofList, Piece.segment]
  constructor
  · rintro ⟨before, rfl, size⟩
    have offset : (Position.after (ps.flatMap Piece.text)).offset =
        (Position.after before.toList).offset := by
      rw [← start, ← size]
      simp [Position.after]
    rw [String.toList_append, String.toList_append, text, List.append_assoc] at whole
    exact List.append_cancel_left (Position.eq_of_offset_after_eq whole offset).2
  · intro tail
    refine ⟨String.ofList (ps.flatMap Piece.text), ?_, start.symm⟩
    rw [← String.toList_inj, ← whole, tail]
    simp [text]

theorem pieces_append_of_settled (cut : pieces a.toList = ps ++ p :: qs)
    (nonempty : qs.flatMap Piece.text ≠ [])
    (closed : qs.flatMap Piece.text = ['.'] → ∀ whole, p ≠ .number whole []) (b : String) :
    ∃ rs, pieces (a ++ b).toList = ps ++ p :: rs := by
  have fit := fit_pieces a.toList
  rw [cut] at fit
  obtain ⟨valid, ends, -⟩ := fit.of_append
  have long : 2 ≤ ((p :: qs).flatMap Piece.text).length := by
    have := List.length_pos_iff.2 valid.text_ne_nil
    have := List.length_pos_iff.2 nonempty
    rw [List.flatMap_cons, List.length_append]
    omega
  -- Two characters behind a piece settle it, and one does unless it is a point.
  have settled : p.Ends (qs.flatMap Piece.text ++ b.toList) := by
    refine ends.append nonempty fun point => ?_
    rw [point] at ends
    exact ⟨ends.character, fun whole number => (closed point whole number).elim⟩
  refine ⟨pieces (qs.flatMap Piece.text ++ b.toList), ?_⟩
  rw [String.toList_append, ← flatMap_text_pieces a.toList, cut,
    fit.pieces_append_of_two_le long, List.flatMap_cons, List.append_assoc,
    pieces_text_append valid settled]

theorem pieces_append_digit {whole : List Char}
    (cut : pieces a.toList = ps ++ .number whole [] :: qs)
    (point : qs.flatMap Piece.text = ['.']) :
    pieces (a ++ "0").toList = ps ++ [.number whole ['0']] := by
  have fit := fit_pieces a.toList
  rw [cut] at fit
  obtain ⟨⟨digits, -⟩, -, -⟩ := fit.of_append
  have valid : (Piece.number whole ['0']).Valid := ⟨digits, by simp⟩
  have long : 2 ≤ ((Piece.number whole [] :: qs).flatMap Piece.text).length := by
    have := List.length_pos_iff.2 digits.1
    rw [List.flatMap_cons, List.length_append, point, Piece.text, List.length_singleton]
    omega
  have read := pieces_text_append valid .nil
  rw [pieces, Piece.text, List.append_nil] at read
  rw [String.toList_append, ← flatMap_text_pieces a.toList, cut,
    fit.pieces_append_of_two_le long, List.flatMap_cons, point, Piece.text, List.append_assoc]
  exact congrArg (ps ++ ·) read

namespace Mode

theorem report_append_prefix (before text more : List Char) (mode : Mode) :
    ∃ later, report before mode (text ++ more) =
      (report before mode text).filter (·.fault.isIllegal) ++ later := by
  induction text generalizing before mode with
  | nil =>
    refine ⟨report before mode more, ?_⟩
    rw [report]
    split <;> rfl
  | cons c text ih =>
    obtain ⟨later, found⟩ := ih (before ++ [c]) (mode.next c)
    refine ⟨later, ?_⟩
    rw [List.cons_append, report, report, found, List.filter_append, List.append_assoc]
    split <;> rfl

end Mode

theorem nonempty_of_stop_lt (cut : pieces a.toList = ps ++ p :: qs)
    (token : p.segment.token? (ps.flatMap Piece.text) = some t)
    (inside : t.span.stop < a.utf8ByteSize) : qs.flatMap Piece.text ≠ [] := by
  intro empty
  obtain ⟨-, -, -, stop, -, -⟩ := Segment.token?_eq_some token
  have whole : a.toList = ps.flatMap Piece.text ++ p.segment.text := by
    rw [← flatMap_text_pieces a.toList, cut, List.flatMap_append, List.flatMap_cons, empty,
      List.append_nil, Piece.segment]
  rw [← whole, Position.after, String.ofList_toList] at stop
  exact absurd inside (by simp [stop])

/-- A token that the text goes on after stays what it is and keeps its number however the text goes
on, except for one that is a whole number with nothing but a point after it. What was illegal in the
text stays so. -/
theorem scan_append_stable (a : String) :
    (∀ (i : Nat) (t : Token), (scan a).tokens[i]? = some t → t.kind ≠ .endOfInput →
      t.span.stop < a.utf8ByteSize →
        ((∀ b, (scan (a ++ b)).tokens[i]? = some t) ↔
          ¬ (t.kind = .number ∧ '.' ∉ t.lexeme.toList ∧ t.FollowedBy a "."))) ∧
      ∀ b, (scan a).errors.filter (·.fault.isIllegal) <+: (scan (a ++ b)).errors := by
  constructor
  · intro i t found proper inside
    obtain ⟨ps, p, qs, cut, rfl, token⟩ := exists_piece_of_getElem? found proper
    have spells : p.Spells t := .of_token? ((fit_pieces a.toList).valid (by simp [cut])) token
    have nonempty := nonempty_of_stop_lt cut token inside
    rw [← and_assoc, ← spells.exists_whole_iff, followedBy_iff cut token]
    constructor
    · rintro stays ⟨⟨whole, rfl⟩, point⟩
      have grown := pieces_append_digit cut point
      have valid : (Piece.number whole ['0']).Valid :=
        (fit_pieces (a ++ "0").toList).valid (grown ▸ List.mem_concat_self)
      obtain ⟨u, last⟩ := Piece.exists_token?_of_number valid (ps.flatMap Piece.text)
      have other := getElem?_tokenCount grown last
      have longer : t.lexeme.toList = whole ++ ['.', '0'] := by
        rw [Option.some.inj ((stays "0").symm.trans other), (Segment.token?_eq_some last).1]
        exact String.toList_ofList
      have same : t.lexeme.toList = whole := by
        rw [(Segment.token?_eq_some token).1]
        exact String.toList_ofList
      simp [same] at longer
    · intro settled b
      obtain ⟨rs, cut'⟩ := pieces_append_of_settled cut nonempty
        (fun point whole number => settled ⟨⟨whole, number⟩, point⟩) b
      exact getElem?_tokenCount cut' token
  · intro b
    obtain ⟨later, found⟩ := Mode.report_append_prefix [] a.toList b.toList .code
    rw [errors_scan, errors_scan, String.toList_append, found]
    exact List.prefix_append _ _

theorem scan_append_stable_before_illegal :
    (scan "é<=12.@").tokens[2]? = some ⟨.number, "12", some (.number (.ofBits 0x4028000000000000)), 1,
        ⟨4, 6, 1, 4⟩⟩ ∧
      (∀ b, (scan ("é<=12.@" ++ b)).tokens[2]? = some ⟨.number, "12",
        some (.number (.ofBits 0x4028000000000000)), 1, ⟨4, 6, 1, 4⟩⟩) ∧
      ∀ b, (scan "é<=12.@").errors.filter (·.fault.isIllegal) <+: (scan ("é<=12.@" ++ b)).errors := by
  have found : (scan "é<=12.@").tokens[2]? = some ⟨.number, "12",
      some (.number (.ofBits 0x4028000000000000)), 1, ⟨4, 6, 1, 4⟩⟩ := by
    decide +kernel
  have stable := (scan_append_stable "é<=12.@").1 2 _ found (by decide) (by decide)
  refine ⟨found, stable.2 ?_, (scan_append_stable "é<=12.@").2⟩
  rintro ⟨-, -, before, whole, -⟩
  have last := congrArg (fun text => text.toList.getLast?) whole
  simp at last

end LoxLexer
