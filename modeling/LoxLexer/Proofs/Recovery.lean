import LoxLexer.Proofs.LineScan

namespace LoxLexer

namespace Piece

variable {p : Piece} {text rest other : List Char} {c : Char}

theorem Ends.splice (ends : p.Ends (text ++ rest)) (here : text = [] → p.Ends other)
    (digit : other.head?.any Char.isDigit → rest.head?.any Char.isDigit) :
    p.Ends (text ++ other) := by
  match text with
  | [] => exact here rfl
  | [c] =>
    refine ⟨ends.character, fun whole number => ?_⟩
    by_cases point : c = '.'
    · subst point
      have stop := ends.fraction whole number
      rw [List.singleton_append, pointed_cons] at stop ⊢
      exact Bool.eq_false_iff.2 fun found => Bool.eq_false_iff.1 stop (digit found)
    · simp [pointed, point]
  | c :: d :: text =>
    refine ⟨ends.character, fun whole number => ?_⟩
    have long : 2 ≤ (c :: d :: text).length := by simp
    rw [pointed_append long other, ← pointed_append long rest]
    exact ends.fraction whole number

theorem Ends.of_head (ends : p.Ends (c :: rest)) (notPoint : c ≠ '.') : p.Ends (c :: other) :=
  ⟨ends.character, fun _ _ => by simp [pointed, notPoint]⟩

end Piece

variable {ps qs rs : List Piece} {p q : Piece} {body : List Char} {source : String} {c : Char}

theorem Fit.splice (fit : Fit (ps ++ qs)) (other : Fit rs)
    (here : ∀ p ∈ ps, p.Ends (qs.flatMap Piece.text) → p.Ends (rs.flatMap Piece.text))
    (digit : (rs.flatMap Piece.text).head?.any Char.isDigit →
      (qs.flatMap Piece.text).head?.any Char.isDigit) : Fit (ps ++ rs) := by
  induction ps with
  | nil => exact other
  | cons p ps ih =>
    obtain ⟨valid, ends, fit⟩ := fit
    obtain ⟨first, later⟩ := List.forall_mem_cons.1 here
    rw [List.append_eq, List.flatMap_append] at ends
    refine ⟨valid, ?_, ih fit later⟩
    rw [List.append_eq, List.flatMap_append]
    refine ends.splice (fun nothing => ?_) digit
    rw [nothing] at ends
    exact first ends

theorem Fit.eq_nil_of_unclosed (fit : Fit (ps ++ .unclosed body :: qs)) : qs = [] := by
  obtain ⟨-, ends, later⟩ := fit.of_append
  rw [← later.pieces_eq, ends.eq_nil, pieces]

theorem segments_of_pieces {text : List Char} (cut : pieces text = ps ++ qs) :
    segments text = ps.map Piece.segment ++ qs.map Piece.segment := by
  rw [segments, cut, List.map_append]

theorem body_of_pieces (cut : pieces source.toList = ps ++ qs) :
    (scan source).body =
      Segment.collect Segment.token? [] (ps.map Piece.segment) ++
        Segment.collect Segment.token? (ps.flatMap Piece.text) (qs.map Piece.segment) := by
  rw [body_scan, segments_of_pieces cut, Segment.collect_append, List.flatMap_map]
  rfl

theorem errors_of_pieces (cut : pieces source.toList = ps ++ qs) :
    (scan source).errors =
      Segment.collect Segment.diagnostic? [] (ps.map Piece.segment) ++
        Segment.collect Segment.diagnostic? (ps.flatMap Piece.text) (qs.map Piece.segment) := by
  rw [scan_eq, segments_of_pieces cut]
  dsimp only
  rw [Segment.collect_append, List.flatMap_map]
  rfl

theorem Piece.cases_of_fault? {f : Fault} (h : p.segment.fault? = some f) :
    (∃ body, p = unclosed body ∧ f = .unterminatedString) ∨
      (∃ c, p = stray c ∧ f = .illegalCharacter c) ∨
      ∃ lexeme reason, f = .malformedNumber lexeme reason := by
  cases p with
  | unclosed body =>
    cases h
    exact .inl ⟨body, rfl, rfl⟩
  | stray c =>
    cases h
    exact .inr (.inl ⟨c, rfl, rfl⟩)
  | number whole fraction =>
    rw [Segment.fault?, segment, meaning] at h
    dsimp only at h
    split at h
    · next malformed =>
      split at malformed <;> cases malformed
      cases h
      exact .inr (.inr ⟨_, _, rfl⟩)
    · cases h
  | word letters =>
    rw [segment, meaning] at h
    split at h <;> cases h
  | _ => cases h

theorem closed_or_unclosed (text : List Char) :
    Closed text ∨ ∃ ps body, pieces text = ps ++ [.unclosed body] ∧
      ∀ p ∈ ps, ∀ body, p ≠ .unclosed body := by
  by_cases closed : Closed text
  · exact .inl closed
  · simp only [Closed, not_forall, not_not] at closed
    obtain ⟨_, member, body, rfl⟩ := closed
    obtain ⟨ps, qs, cut⟩ := List.append_of_mem member
    have fit := fit_pieces text
    rw [cut] at fit
    obtain rfl := fit.eq_nil_of_unclosed
    refine .inr ⟨ps, body, cut, ?_⟩
    rintro _ inside other rfl
    obtain ⟨front, back, rfl⟩ := List.append_of_mem inside
    rw [List.append_assoc, List.cons_append] at fit
    simpa using fit.eq_nil_of_unclosed

theorem not_unterminated_of_mem_collect {before : List Char} {d : Diagnostic}
    (closed : ∀ p ∈ ps, ∀ body, p ≠ .unclosed body)
    (h : d ∈ Segment.collect Segment.diagnostic? before (ps.map Piece.segment)) :
    d.fault ≠ .unterminatedString := by
  intro fault
  have listed := List.mem_map_of_mem (f := Diagnostic.fault) h
  rw [Segment.map_collect Segment.map_diagnostic?, List.filterMap_map, fault] at listed
  obtain ⟨p, member, found⟩ := List.mem_filterMap.1 listed
  rcases Piece.cases_of_fault? found with ⟨body, rfl, -⟩ | ⟨c, -, ⟨⟩⟩ | ⟨lexeme, reason, ⟨⟩⟩
  exact closed _ member body rfl

variable {text : List Char}

theorem pieces_before_unclosed (cut : pieces text = ps ++ [.unclosed body]) :
    pieces (ps.flatMap Piece.text) = ps := by
  have fit := fit_pieces text
  rw [cut] at fit
  have front : Fit (ps ++ []) := fit.splice trivial (fun _ _ _ => .nil) (by simp)
  rw [List.append_nil] at front
  exact front.pieces_eq

theorem pieces_close (cut : pieces text = ps ++ [.unclosed body]) :
    pieces (text ++ ['"']) = ps ++ [.string body] := by
  have fit := fit_pieces text
  rw [cut] at fit
  have free : '"' ∉ body := fit.valid (p := .unclosed body) (by simp)
  have string : Fit [.string body] := ⟨free, .nil, trivial⟩
  have closed : Fit (ps ++ [.string body]) :=
    fit.splice string (fun p _ ends => ends.of_head (by simp)) (by simp [Piece.text])
  rw [pieces_eq_iff, ← flatMap_text_pieces text, cut]
  exact ⟨closed, by simp [Piece.text]⟩

theorem dropLast_errors (cut : pieces source.toList = ps ++ [.unclosed body]) :
    (scan source).errors.dropLast =
      Segment.collect Segment.diagnostic? [] (ps.map Piece.segment) := by
  rw [errors_of_pieces cut]
  exact List.dropLast_concat

theorem scan_before_unclosed {before : String}
    (cut : pieces source.toList = ps ++ [.unclosed body])
    (front : before.toList = ps.flatMap Piece.text) :
    (scan before).body = (scan source).body ∧
      (scan before).errors = (scan source).errors.dropLast := by
  have alone : pieces before.toList = ps ++ [] := by
    rw [front, pieces_before_unclosed cut, List.append_nil]
  constructor
  · rw [body_of_pieces alone, body_of_pieces cut]
    rfl
  · rw [errors_of_pieces alone, dropLast_errors cut]
    exact List.append_nil _

def Token.closing (before body : String) : Token where
  kind := .string
  lexeme := "\"" ++ body ++ "\""
  literal := some (.text body)
  line := 1 + (before ++ "\"" ++ body).toList.count '\n'
  span :=
    ⟨before.utf8ByteSize, (before ++ "\"" ++ body).utf8ByteSize + 1,
      1 + before.toList.count '\n', (lastLine before.toList).length + 1⟩

theorem token?_string (before body : String) :
    (Piece.string body.toList).segment.token? before.toList = some (.closing before body) := by
  have text : (Piece.string body.toList).text = ("\"" ++ body ++ "\"").toList := by
    simp [Piece.text]
  have quote : "\"".utf8ByteSize = 1 := rfl
  simp [Segment.token?, Piece.segment, Piece.meaning, text, Token.closing, Position.after, quote,
    Nat.add_assoc, String.append_assoc]

theorem scan_close {before rest : String}
    (cut : pieces source.toList = ps ++ [.unclosed rest.toList])
    (front : before.toList = ps.flatMap Piece.text) :
    (scan (source ++ "\"")).tokens =
        (scan source).body ++ [.closing before rest, .endOf (source ++ "\"").toList] ∧
      (scan (source ++ "\"")).errors = (scan source).errors.dropLast := by
  have closed : pieces (source ++ "\"").toList = ps ++ [.string rest.toList] := by
    rw [String.toList_append]
    exact pieces_close cut
  constructor
  · rw [tokens_scan, body_of_pieces closed, body_of_pieces cut, ← front, List.append_assoc,
      List.append_assoc]
    simp only [List.map_cons, List.map_nil, Segment.collect, token?_string]
    rfl
  · rw [errors_of_pieces closed, dropLast_errors cut]
    exact List.append_nil _

/-- At most the last diagnostic is about a string. In that case there is a quote such that nothing is
found behind it, and what is found before it does not depend on what is behind it; and a quote at the
end of the text adds the string between the two quotes and takes the diagnostic away. -/
theorem scan_unterminated (source : String) :
    (∀ d ∈ (scan source).errors.dropLast, d.fault ≠ .unterminatedString) ∧
      ((∃ d ∈ (scan source).errors, d.fault = .unterminatedString) →
        ∃ before body : String, source = before ++ "\"" ++ body ∧
          (scan before).body = (scan source).body ∧
          (scan before).errors = (scan source).errors.dropLast ∧
          (scan (source ++ "\"")).tokens = (scan source).body ++
            [⟨.string, "\"" ++ body ++ "\"", some (.text body), 1 + source.toList.count '\n',
                ⟨before.utf8ByteSize, source.utf8ByteSize + 1, 1 + before.toList.count '\n',
                  (lastLine before.toList).length + 1⟩⟩,
              .endOf (source ++ "\"").toList] ∧
          (scan (source ++ "\"")).errors = (scan source).errors.dropLast) := by
  rcases closed_or_unclosed source.toList with closed | ⟨ps, chars, cut, closed⟩
  · have errors : ∀ d ∈ (scan source).errors, d.fault ≠ .unterminatedString := by
      intro d member
      rw [scan_eq] at member
      exact not_unterminated_of_mem_collect closed member
    refine ⟨fun d member => errors d (List.dropLast_subset _ member), ?_⟩
    rintro ⟨d, member, fault⟩
    exact absurd fault (errors d member)
  · obtain ⟨body, rfl⟩ : ∃ body : String, chars = body.toList := ⟨.ofList chars, by simp⟩
    obtain ⟨before, front⟩ : ∃ before : String, before.toList = ps.flatMap Piece.text :=
      ⟨.ofList (ps.flatMap Piece.text), String.toList_ofList⟩
    have whole : source = before ++ "\"" ++ body := by
      rw [← String.toList_inj, ← flatMap_text_pieces source.toList, cut]
      simp [Piece.text, front]
    obtain ⟨bodyBefore, errorsBefore⟩ := scan_before_unclosed cut front
    obtain ⟨tokens, errors⟩ := scan_close cut front
    refine ⟨?_, fun _ => ⟨before, body, whole, bodyBefore, errorsBefore, ?_, errors⟩⟩
    · intro d member
      rw [dropLast_errors cut] at member
      exact not_unterminated_of_mem_collect closed member
    · rw [tokens, Token.closing, ← whole]

theorem scan_unterminated_behind_comment :
    (∃ d ∈ (scan "@// \"\n\"é\n1.").errors, d.fault = .unterminatedString) ∧
      ∃ before body : String, "@// \"\n\"é\n1." = before ++ "\"" ++ body ∧
        (scan before).body = (scan "@// \"\n\"é\n1.").body ∧
        (scan before).errors = (scan "@// \"\n\"é\n1.").errors.dropLast ∧
        (scan ("@// \"\n\"é\n1." ++ "\"")).tokens = (scan "@// \"\n\"é\n1.").body ++
          [⟨.string, "\"" ++ body ++ "\"", some (.text body), 1 + 2,
              ⟨before.utf8ByteSize, 12 + 1, 1 + before.toList.count '\n',
                (lastLine before.toList).length + 1⟩⟩,
            .endOf ("@// \"\n\"é\n1." ++ "\"").toList] ∧
        (scan ("@// \"\n\"é\n1." ++ "\"")).errors =
          (scan "@// \"\n\"é\n1.").errors.dropLast :=
  have reported : ∃ d ∈ (scan "@// \"\n\"é\n1.").errors, d.fault = .unterminatedString := by
    decide +kernel
  ⟨reported, (scan_unterminated _).2 reported⟩

def closeUp (place bytes offset : Nat) : Nat := if place < offset then offset - bytes else offset

def Token.closeUp (place bytes : Nat) (t : Token) : Token :=
  { t with
    span := { t.span with
      start := LoxLexer.closeUp place bytes t.span.start
      stop := LoxLexer.closeUp place bytes t.span.stop } }

namespace Position

theorem column_after_cons (before rest : List Char) (notNewline : c ≠ '\n') :
    (after (before ++ c :: rest)).column =
      if '\n' ∈ rest then (lastLine rest).length
      else (lastLine before).length + (1 + rest.length) := by
  have seam : before ++ c :: rest = before ++ [c] ++ rest := by simp
  rw [after, seam, lastLine_append, lastLine_concat, if_neg notNewline]
  split <;> simp [Nat.add_comm]

theorem after_blank (before rest : List Char) (notNewline : c ≠ '\n') :
    after (before ++ ' ' :: rest) =
      ⟨closeUp (after before).offset (c.utf8Size - 1) (after (before ++ c :: rest)).offset,
        (after (before ++ c :: rest)).line, (after (before ++ c :: rest)).column⟩ := by
  have offset : (after (before ++ ' ' :: rest)).offset =
      closeUp (after before).offset (c.utf8Size - 1) (after (before ++ c :: rest)).offset := by
    have size : ' '.utf8Size = 1 := rfl
    have := c.utf8Size_pos
    rw [closeUp, offset_after_append, offset_after_append, offset_after_cons, offset_after_cons,
      size]
    split <;> omega
  have line : (after (before ++ ' ' :: rest)).line = (after (before ++ c :: rest)).line := by
    simp [after, notNewline]
  have column : (after (before ++ ' ' :: rest)).column = (after (before ++ c :: rest)).column := by
    rw [column_after_cons before rest notNewline, column_after_cons before rest (by decide)]
  rw [← offset, ← line, ← column]

end Position

namespace Segment

theorem token?_blank (before rest : List Char) (s : Segment) (notNewline : c ≠ '\n') :
    s.token? (before ++ [' '] ++ rest) =
      (s.token? (before ++ [c] ++ rest)).map
        (Token.closeUp (Position.after before).offset (c.utf8Size - 1)) := by
  rw [token?, token?]
  cases s.meaning with
  | token kind literal =>
    simp only [List.append_assoc, List.cons_append, Position.after_blank before _ notNewline]
    rfl
  | _ => rfl

theorem diagnostic?_blank (before rest : List Char) (s : Segment) (notNewline : c ≠ '\n') :
    s.diagnostic? (before ++ [' '] ++ rest) = s.diagnostic? (before ++ [c] ++ rest) := by
  rw [diagnostic?, diagnostic?]
  cases s.meaning with
  | fault f =>
    simp only [List.append_assoc, List.cons_append, Position.after_blank before _ notNewline]
  | _ => rfl

end Segment

theorem Token.endOf_blank (before rest : List Char) (notNewline : c ≠ '\n') :
    endOf (before ++ ' ' :: rest) =
      (endOf (before ++ c :: rest)).closeUp (Position.after before).offset (c.utf8Size - 1) := by
  rw [endOf, endOf, Position.after_blank before rest notNewline]
  rfl

theorem pieces_blank (cut : pieces text = ps ++ .stray c :: qs) :
    pieces (ps.flatMap Piece.text ++ ' ' :: qs.flatMap Piece.text) = ps ++ .blank ' ' :: qs := by
  have fit := fit_pieces text
  rw [cut] at fit
  obtain ⟨stray, -, later⟩ := fit.of_append
  have blank : Fit (.blank ' ' :: qs) := ⟨rfl, ⟨fun _ _ => rfl, by simp⟩, later⟩
  have exchanged : Fit (ps ++ .blank ' ' :: qs) := by
    refine fit.splice blank (fun p _ ends => .blank rfl ?_ ?_ _) (by simp [Piece.text])
    · rintro body rfl
      cases ends.eq_nil
    · rintro body rfl
      have newline : c = '\n' := by simpa [Piece.takes] using ends.character c rfl
      exact absurd (newline ▸ rfl) stray.1
  have whole := exchanged.pieces_eq
  rwa [List.flatMap_append, List.flatMap_cons] at whole

theorem Segment.offset_le_of_mem_collect {xs : List Segment} {t : Token}
    (h : t ∈ collect token? [] xs) :
    t.span.start ≤ (Position.after (xs.flatMap Segment.text)).offset ∧
      t.span.stop ≤ (Position.after (xs.flatMap Segment.text)).offset := by
  obtain ⟨as, s, bs, rfl, found⟩ := mem_collect h
  obtain ⟨-, -, start, stop, -, -⟩ := token?_eq_some found
  rw [List.nil_append] at start stop
  rw [start, stop, List.flatMap_append, List.flatMap_cons, Position.offset_after_append,
    Position.offset_after_append, Position.offset_after_append]
  omega

theorem Token.closeUp_of_le {place bytes : Nat} {t : Token} (start : t.span.start ≤ place)
    (stop : t.span.stop ≤ place) : t.closeUp place bytes = t := by
  rw [closeUp, LoxLexer.closeUp, LoxLexer.closeUp, if_neg (Nat.not_lt.2 start),
    if_neg (Nat.not_lt.2 stop)]

section

variable {before rest : String}

theorem pieces_exchange (cut : pieces source.toList = ps ++ .stray c :: qs)
    (front : before.toList = ps.flatMap Piece.text) (back : rest.toList = qs.flatMap Piece.text) :
    pieces (before ++ " " ++ rest).toList = ps ++ .blank ' ' :: qs := by
  rw [String.toList_append, String.toList_append, front, back, List.append_assoc]
  exact pieces_blank cut

theorem tokens_blank (cut : pieces source.toList = ps ++ .stray c :: qs) (notNewline : c ≠ '\n')
    (front : before.toList = ps.flatMap Piece.text) (back : rest.toList = qs.flatMap Piece.text) :
    (scan (before ++ " " ++ rest)).tokens =
      (scan source).tokens.map (Token.closeUp before.utf8ByteSize (c.utf8Size - 1)) := by
  have place : before.utf8ByteSize = (Position.after before.toList).offset := by
    simp [Position.after]
  have earlier : (Segment.collect Segment.token? [] (ps.map Piece.segment)).map
      (Token.closeUp before.utf8ByteSize (c.utf8Size - 1)) =
        Segment.collect Segment.token? [] (ps.map Piece.segment) := by
    refine (List.map_congr_left fun t member => ?_).trans (List.map_id _)
    have bounds := Segment.offset_le_of_mem_collect member
    rw [List.flatMap_map] at bounds
    rw [place, front]
    exact Token.closeUp_of_le bounds.1 bounds.2
  have later : Segment.collect Segment.token? (before.toList ++ [' ']) (qs.map Piece.segment) =
      (Segment.collect Segment.token? (before.toList ++ [c]) (qs.map Piece.segment)).map
        (Token.closeUp before.utf8ByteSize (c.utf8Size - 1)) := by
    have moved := Segment.collect_map_append (before.toList ++ [' ']) (before.toList ++ [c]) []
      (qs.map Piece.segment) fun s _ more => Segment.token?_blank before.toList more s notNewline
    rwa [List.append_nil, List.append_nil, ← place] at moved
  have last : Token.endOf (before ++ " " ++ rest).toList =
      (Token.endOf source.toList).closeUp before.utf8ByteSize (c.utf8Size - 1) := by
    have whole : source.toList = before.toList ++ c :: rest.toList := by
      rw [← flatMap_text_pieces source.toList, cut, List.flatMap_append, front, back]
      rfl
    rw [whole, place, ← Token.endOf_blank _ _ notNewline]
    simp
  rw [tokens_scan, tokens_scan, body_of_pieces (pieces_exchange cut front back),
    body_of_pieces cut, List.map_append, List.map_append, List.map_singleton, earlier, last,
    ← front]
  exact congrArg (fun ts => _ ++ ts ++ _) later

theorem errors_blank (cut : pieces source.toList = ps ++ .stray c :: qs) (notNewline : c ≠ '\n')
    (front : before.toList = ps.flatMap Piece.text) (back : rest.toList = qs.flatMap Piece.text) :
    (scan (before ++ " " ++ rest)).errors =
      (scan source).errors.eraseIdx
        (Segment.collect Segment.diagnostic? [] (ps.map Piece.segment)).length := by
  have later :
      Segment.collect Segment.diagnostic? (before.toList ++ [' ']) (qs.map Piece.segment) =
        Segment.collect Segment.diagnostic? (before.toList ++ [c]) (qs.map Piece.segment) := by
    have moved := Segment.collect_map_append (f := Segment.diagnostic?) (g := id)
      (before.toList ++ [' ']) (before.toList ++ [c]) [] (qs.map Piece.segment) fun s _ more => by
        rw [Segment.diagnostic?_blank before.toList more s notNewline, Option.map_id]
        rfl
    rwa [List.append_nil, List.append_nil, List.map_id] at moved
  rw [errors_of_pieces (pieces_exchange cut front back), errors_of_pieces cut,
    List.eraseIdx_append_of_length_le (Nat.le_refl _), Nat.sub_self, ← front]
  exact congrArg (_ ++ ·) later

end

theorem diagnostic?_stray {before : List Char} (notNewline : c ≠ '\n') :
    (Piece.stray c).segment.diagnostic? before =
      some ⟨.illegalCharacter c, 1 + before.count '\n', (lastLine before).length⟩ := by
  simp [Segment.diagnostic?, Piece.segment, Piece.meaning, Piece.text, Position.after,
    lastLine_concat, notNewline]

/-- With a blank in the place of an illegal character, wherever it is, just its own diagnostic goes
away. The tokens stay what they are and where they are, but for the bytes they are counted in. -/
theorem scan_blank_illegal {i : Nat} {d : Diagnostic} (reported : (scan source).errors[i]? = some d)
    (illegal : d.fault = .illegalCharacter c) :
    ∃ before rest : String, source = before ++ c.toString ++ rest ∧
      d.line = 1 + before.toList.count '\n' ∧ d.column = (lastLine before.toList).length ∧
      (scan (before ++ " " ++ rest)).errors = (scan source).errors.eraseIdx i ∧
      (scan (before ++ " " ++ rest)).tokens =
        (scan source).tokens.map (Token.closeUp before.utf8ByteSize (c.utf8Size - 1)) := by
  rw [scan_eq] at reported
  obtain ⟨ps, p, qs, cut, found, rfl⟩ := exists_piece_of_collect reported
  have fault : p.segment.fault? = some (.illegalCharacter c) := by
    rw [← Segment.map_diagnostic?, found, Option.map_some, illegal]
  obtain ⟨body, -, ⟨⟩⟩ | ⟨_, rfl, ⟨⟩⟩ | ⟨lexeme, reason, ⟨⟩⟩ := Piece.cases_of_fault? fault
  have stray : (Piece.stray c).Valid := (fit_pieces source.toList).valid (by simp [cut])
  have notNewline : c ≠ '\n' := by
    rintro rfl
    exact stray.1 rfl
  obtain ⟨before, front⟩ : ∃ before : String, before.toList = ps.flatMap Piece.text :=
    ⟨.ofList _, String.toList_ofList⟩
  obtain ⟨rest, back⟩ : ∃ rest : String, rest.toList = qs.flatMap Piece.text :=
    ⟨.ofList _, String.toList_ofList⟩
  rw [diagnostic?_stray notNewline] at found
  cases found
  refine ⟨before, rest, ?_, by rw [front], by rw [front], errors_blank cut notNewline front back,
    tokens_blank cut notNewline front back⟩
  rw [← String.toList_inj, ← flatMap_text_pieces source.toList, cut]
  simp [front, back, Piece.text, Char.toString]

theorem scan_blank_illegal_before_digit :
    (scan "@\n1.÷5").errors[1]? = some ⟨.illegalCharacter '÷', 2, 2⟩ ∧
      ∃ before rest : String, "@\n1.÷5" = before ++ '÷'.toString ++ rest ∧
        2 = 1 + before.toList.count '\n' ∧ 2 = (lastLine before.toList).length ∧
        (scan (before ++ " " ++ rest)).errors = (scan "@\n1.÷5").errors.eraseIdx 1 ∧
        (scan (before ++ " " ++ rest)).tokens =
          (scan "@\n1.÷5").tokens.map (Token.closeUp before.utf8ByteSize ('÷'.utf8Size - 1)) :=
  have reported : (scan "@\n1.÷5").errors[1]? = some ⟨.illegalCharacter '÷', 2, 2⟩ := by
    decide +kernel
  ⟨reported, scan_blank_illegal reported rfl⟩

end LoxLexer
