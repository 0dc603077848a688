import LoxLexer.Proofs.Content

namespace LoxLexer

inductive Trivia : List Char → Prop
  | nil : Trivia []
  | blank : c ∈ [' ', '\t', '\r', '\n'] → Trivia rest → Trivia (c :: rest)
  | comment : '\n' ∉ body → Trivia rest → Trivia ('/' :: '/' :: body ++ '\n' :: rest)

def Separator (gap : String) : Prop :=
  ∃ c rest, gap.toList = c :: rest ∧ c ∈ [' ', '\t', '\r', '\n'] ∧ Trivia rest

inductive Spaced : List Token → String → Prop
  | nil : Spaced [] ""
  | singleton : Spaced [t] t.lexeme
  | cons : Separator gap → Spaced (u :: ts) text → Spaced (t :: u :: ts) (t.lexeme ++ gap ++ text)

variable {α : Type u} {f : Piece → Option α} {gap : List Char} {text : String} {ps : List Piece}
  {p : Piece} {t : Token} {ts : List Token} {c : Char}

theorem filterMap_pieces_trivia (quiet : ∀ p : Piece, p.meaning = .trivia → f p = none)
    (trivia : Trivia gap) (rest : List Char) :
    (pieces (gap ++ rest)).filterMap f = (pieces rest).filterMap f := by
  induction trivia with
  | nil => rfl
  | @blank c gap blank _ ih =>
    rw [List.cons_append, pieces_of_isBlank (Alphabet.isBlank_iff.2 blank), List.filterMap_cons,
      quiet _ rfl, ih]
  | @comment body gap free _ ih =>
    have cut : pieces ('/' :: '/' :: body ++ '\n' :: (gap ++ rest)) =
        .comment body :: pieces ('\n' :: (gap ++ rest)) :=
      pieces_text_append (p := .comment body) free (.blank rfl (by simp) (fun _ _ => rfl) _)
    rw [List.append_assoc, List.cons_append (a := '\n'), cut, pieces_of_isBlank rfl,
      List.filterMap_cons, List.filterMap_cons, quiet _ rfl, quiet _ rfl, ih]

theorem Piece.Spells.ends_blank (spells : p.Spells t) (blank : c ∈ [' ', '\t', '\r', '\n'])
    (rest : List Char) : p.Ends (c :: rest) := by
  have content := spells.content
  refine .blank (Alphabet.isBlank_iff.2 blank) ?_ ?_ rest
  · rintro body rfl
    cases content
  · rintro body rfl
    cases content

theorem filterMap_pieces_spaced (quiet : ∀ p : Piece, p.meaning = .trivia → f p = none)
    (spaced : Spaced ts text) (spells : List.Forall₂ Piece.Spells ps ts) :
    (pieces text.toList).filterMap f = ps.filterMap f := by
  induction spaced generalizing ps with
  | nil =>
    cases spells
    simp [pieces]
  | @singleton t =>
    cases spells with
    | @cons p _ _ _ here none =>
      cases none
      rw [← here.text_eq, ← List.append_nil p.text, pieces_text_append here.valid .nil, pieces]
  | @cons gap u ts text t separator spaced ih =>
    cases spells with
    | cons here later =>
      obtain ⟨c, rest, begins, blank, trivia⟩ := separator
      have cut := pieces_text_append here.valid (here.ends_blank blank (rest ++ text.toList))
      have skipped := filterMap_pieces_trivia quiet (.blank blank trivia) text.toList
      rw [List.cons_append] at skipped
      rw [String.toList_append, String.toList_append, begins, ← here.text_eq, List.append_assoc,
        List.cons_append, cut, List.filterMap_cons, skipped, ih later, List.filterMap_cons]

theorem scan_of_spells (spells : List.Forall₂ Piece.Spells ps ts) (spaced : Spaced ts text) :
    (scan text).errors = [] ∧
      (scan text).tokens.map Token.content =
        ts.map Token.content ++ [(.endOfInput, "", none)] := by
  have contents := filterMap_pieces_spaced (f := fun p => p.segment.content?)
    (fun p trivia => by rw [Segment.content?, Piece.segment, trivia]) spaced spells
  have faults := filterMap_pieces_spaced (f := fun p => p.segment.fault?)
    (fun p trivia => by rw [Segment.fault?, Piece.segment, trivia]) spaced spells
  rw [filterMap_of_spells (fun _ _ here => here.content) spells] at contents
  rw [filterMap_fault?_of_spells spells] at faults
  constructor
  · apply List.map_eq_nil_iff.1
    rw [faults_scan, faults]
  · rw [contents_scan, contents]

/-- Tokens of any texts, written out with any separators between them, are found again as they were,
and nothing is wrong with what is written. A token on its own needs no separator. -/
theorem scan_spaced (scanned : ∀ t ∈ ts, t.Scanned) (spaced : Spaced ts text) :
    (scan text).errors = [] ∧
      (scan text).tokens.map Token.content = ts.map Token.content ++ [(.endOfInput, "", none)] ∧
      ∀ t ∈ ts, (scan t.lexeme).errors = [] ∧
        (scan t.lexeme).tokens.map Token.content = [t.content, (.endOfInput, "", none)] := by
  obtain ⟨ps, spells⟩ := exists_spells scanned
  obtain ⟨errors, contents⟩ := scan_of_spells spells spaced
  refine ⟨errors, contents, fun t member => ?_⟩
  obtain ⟨p, alone⟩ := (scanned t member).exists_spells
  exact scan_of_spells (.cons alone .nil) .singleton

theorem scan_spaced_slashes :
    (∀ t ∈ ([⟨.symbol .slash, "/", none, 1, ⟨2, 3, 1, 3⟩⟩,
        ⟨.string, "\"//\"", some (.text "//"), 2, ⟨1, 5, 2, 1⟩⟩] : List Token), t.Scanned) ∧
      Spaced [⟨.symbol .slash, "/", none, 1, ⟨2, 3, 1, 3⟩⟩,
        ⟨.string, "\"//\"", some (.text "//"), 2, ⟨1, 5, 2, 1⟩⟩] ("/" ++ "\t// \"\n" ++ "\"//\"") ∧
      (scan ("/" ++ "\t// \"\n" ++ "\"//\"")).errors = [] ∧
      (scan ("/" ++ "\t// \"\n" ++ "\"//\"")).tokens.map Token.content =
        [(.symbol .slash, "/", none), (.string, "\"//\"", some (.text "//")),
          (.endOfInput, "", none)] := by
  have slash : (⟨.symbol .slash, "/", none, 1, ⟨2, 3, 1, 3⟩⟩ : Token).Scanned :=
    ⟨by decide, "8 /", by decide +kernel⟩
  have string : (⟨.string, "\"//\"", some (.text "//"), 2, ⟨1, 5, 2, 1⟩⟩ : Token).Scanned :=
    ⟨by decide, "\n\"//\"", by decide +kernel⟩
  have scanned := List.forall_mem_cons.2 ⟨slash, List.forall_mem_singleton.2 string⟩
  have gap : Separator "\t// \"\n" :=
    ⟨'\t', _, rfl, by decide, .comment (by decide : '\n' ∉ [' ', '"']) .nil⟩
  have spaced : Spaced [⟨.symbol .slash, "/", none, 1, ⟨2, 3, 1, 3⟩⟩,
      ⟨.string, "\"//\"", some (.text "//"), 2, ⟨1, 5, 2, 1⟩⟩] _ := .cons gap .singleton
  obtain ⟨errors, contents, _⟩ := scan_spaced scanned spaced
  exact ⟨scanned, spaced, errors, contents⟩

end LoxLexer
