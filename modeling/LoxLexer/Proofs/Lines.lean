import LoxLexer.Proofs.Content
import LoxLexer.Proofs.Restart

namespace LoxLexer

def Token.lower (bytes lines : Nat) (t : Token) : Token :=
  { t with
    line := t.line + lines
    span := ⟨t.span.start + bytes, t.span.stop + bytes, t.span.line + lines, t.span.column⟩ }

def Diagnostic.lower (lines : Nat) (d : Diagnostic) : Diagnostic := { d with line := d.line + lines }

variable {u : String}

theorem Token.relocate_of_lastLine (h : lastLine u.toList = []) :
    relocate u = lower u.utf8ByteSize (u.toList.count '\n') := by
  funext t
  simp [relocate, Span.relocate, lower, h]

theorem Diagnostic.relocate_of_lastLine (h : lastLine u.toList = []) :
    relocate u = lower (u.toList.count '\n') := by
  funext d
  simp [relocate, lower, h]

theorem Piece.Ends.append_blank {p : Piece} {rest : List Char} {c : Char}
    (blank : Alphabet.isBlank c) (ends : p.Ends rest) (closed : ∀ body, p ≠ unclosed body)
    (line : rest = [] → ∀ body, p = comment body → c = '\n') (more : List Char) :
    p.Ends (rest ++ c :: more) := by
  by_cases nonempty : rest = []
  · rw [nonempty, List.nil_append]
    exact .blank blank closed (line nonempty) more
  · refine ends.append nonempty ?_
    -- A point after a whole number stays a symbol, since a blank is not a digit.
    rintro rfl
    have notDigit : c.isDigit = false := by
      have := Alphabet.not_isWordChar_of_isBlank blank
      simp_all [Alphabet.isWordChar]
    exact ⟨ends.character, fun _ _ => notDigit⟩

theorem Piece.Ends.append_newline {p : Piece} {rest : List Char} (ends : p.Ends rest)
    (closed : ∀ body, p ≠ unclosed body) (more : List Char) : p.Ends (rest ++ '\n' :: more) :=
  ends.append_blank rfl closed (fun _ _ _ => rfl) more

theorem Fit.pieces_append_newline {ps : List Piece} (fit : Fit ps)
    (closed : ∀ p ∈ ps, ∀ body, p ≠ .unclosed body) (more : List Char) :
    pieces (ps.flatMap Piece.text ++ '\n' :: more) = ps ++ .blank '\n' :: pieces more := by
  induction ps with
  | nil => exact pieces_of_isBlank rfl more
  | cons p ps ih =>
    obtain ⟨valid, ends, fit⟩ := fit
    obtain ⟨here, later⟩ := List.forall_mem_cons.1 closed
    rw [List.flatMap_cons, List.append_assoc,
      pieces_text_append valid (ends.append_newline here more), ih fit later, List.cons_append]

theorem not_unclosed_of_faults {source : String}
    (h : ∀ d ∈ (scan source).errors, d.fault ≠ .unterminatedString) :
    ∀ p ∈ pieces source.toList, ∀ body, p ≠ .unclosed body := by
  rintro p member body rfl
  have reported : Fault.unterminatedString ∈ (scan source).errors.map Diagnostic.fault := by
    rw [faults_scan]
    exact List.mem_filterMap.2 ⟨_, member, rfl⟩
  obtain ⟨d, found, fault⟩ := List.mem_map.1 reported
  exact h d found fault

theorem segments_append_newline {text : List Char}
    (closed : ∀ p ∈ pieces text, ∀ body, p ≠ .unclosed body) (more : List Char) :
    segments (text ++ '\n' :: more) =
      segments text ++ (Piece.blank '\n').segment :: segments more := by
  have cut := (fit_pieces text).pieces_append_newline closed more
  rw [flatMap_text_pieces] at cut
  rw [segments, cut, List.map_append, List.map_cons]
  rfl

theorem segments_newline {source : String}
    (closed : ∀ p ∈ pieces source.toList, ∀ body, p ≠ .unclosed body) :
    segments (source ++ "\n").toList =
      segments source.toList ++ [(Piece.blank '\n').segment] := by
  rw [String.toList_append, ← segments_nil]
  exact segments_append_newline closed []

theorem scan_newline {source : String}
    (closed : ∀ p ∈ pieces source.toList, ∀ body, p ≠ .unclosed body) :
    (scan (source ++ "\n")).body = (scan source).body ∧
      (scan (source ++ "\n")).errors = (scan source).errors := by
  constructor
  · rw [body_scan, body_scan, segments_newline closed, Segment.collect_append]
    exact List.append_nil _
  · rw [scan_eq, scan_eq, segments_newline closed]
    dsimp only
    rw [Segment.collect_append]
    exact List.append_nil _

/-- Two texts with a line feed between them are scanned as the one and then, further down, the
other, unless the one ends inside a string. -/
theorem scan_append_newline (a b : String)
    (closed : ∀ d ∈ (scan a).errors, d.fault ≠ .unterminatedString) :
    (scan (a ++ "\n" ++ b)).tokens =
        (scan a).body ++
          (scan b).tokens.map (Token.lower (a.utf8ByteSize + 1) (1 + a.toList.count '\n')) ∧
      (scan (a ++ "\n" ++ b)).errors =
        (scan a).errors ++ (scan b).errors.map (Diagnostic.lower (1 + a.toList.count '\n')) := by
  have closed := not_unclosed_of_faults closed
  have seam : segments (a ++ "\n" ++ b).toList =
      segments (a ++ "\n").toList ++ segments b.toList := by
    rw [segments_newline closed, String.toList_append, String.toList_append, List.append_assoc,
      List.append_assoc]
    exact segments_append_newline closed b.toList
  have last : lastLine (a ++ "\n").toList = [] := by
    rw [String.toList_append]
    exact lastLine_concat a.toList '\n'
  have lines : (a ++ "\n").toList.count '\n' = 1 + a.toList.count '\n' := by
    rw [String.toList_append, List.count_append, Nat.add_comm]
    rfl
  have bytes : (a ++ "\n").utf8ByteSize = a.utf8ByteSize + 1 := String.utf8ByteSize_append
  obtain ⟨body, errors⟩ := scan_newline closed
  obtain ⟨joined, joinedErrors⟩ := scan_append seam
  rw [Token.relocate_of_lastLine last, body, bytes, lines] at joined
  rw [Diagnostic.relocate_of_lastLine last, errors, lines] at joinedErrors
  exact ⟨joined, joinedErrors⟩

theorem scan_append_newline_behind_point :
    (∀ d ∈ (scan "@\"é\n\" 1.").errors, d.fault ≠ .unterminatedString) ∧
      (scan ("@\"é\n\" 1." ++ "\n" ++ "5 // \"")).tokens =
          (scan "@\"é\n\" 1.").body ++ (scan "5 // \"").tokens.map (Token.lower 10 2) ∧
        (scan ("@\"é\n\" 1." ++ "\n" ++ "5 // \"")).errors =
          (scan "@\"é\n\" 1.").errors ++ (scan "5 // \"").errors.map (Diagnostic.lower 2) :=
  have closed : ∀ d ∈ (scan "@\"é\n\" 1.").errors, d.fault ≠ .unterminatedString := by
    decide +kernel
  ⟨closed, scan_append_newline _ _ closed⟩

end LoxLexer
