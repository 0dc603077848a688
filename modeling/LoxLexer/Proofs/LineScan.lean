import LoxLexer.Proofs.Lines
import LoxLexer.Proofs.Typed

namespace LoxLexer

open Line

variable {ps : List Piece} {text line : List Char}

theorem Fit.pieces_append_return (fit : Fit ps) (closed : ∀ p ∈ ps, ∀ body, p ≠ .unclosed body) :
    ∃ qs xs ys, ps = qs ++ xs ∧ pieces (ps.flatMap Piece.text ++ ['\r']) = qs ++ ys ∧
      ∀ p ∈ xs ++ ys, p.meaning = .trivia := by
  induction ps with
  | nil =>
    refine ⟨[], [], [.blank '\r'], rfl, ?_, by simp [Piece.meaning]⟩
    have found := pieces_of_isBlank (c := '\r') rfl []
    rwa [pieces] at found
  | cons p ps ih =>
    obtain ⟨valid, ends, fit⟩ := fit
    obtain ⟨here, later⟩ := List.forall_mem_cons.1 closed
    -- Only a comment that nothing follows takes the return in.
    by_cases commented : ps.flatMap Piece.text = [] ∧ ∃ body, p = .comment body
    · obtain ⟨nothing, body, rfl⟩ := commented
      obtain rfl : ps = [] := by
        rw [← fit.pieces_eq, nothing, pieces]
      have longer : (Piece.comment (body ++ ['\r'])).Valid := by
        simpa [Piece.Valid] using valid
      refine ⟨[], [.comment body], [.comment (body ++ ['\r'])], rfl, ?_, by simp [Piece.meaning]⟩
      have found := pieces_text_append longer .nil
      rw [pieces] at found
      simpa [Piece.text] using found
    · have ends : p.Ends (ps.flatMap Piece.text ++ ['\r']) :=
        ends.append_blank rfl here
          (fun nothing body comment => absurd ⟨nothing, body, comment⟩ commented) []
      obtain ⟨qs, xs, ys, rfl, found, trivia⟩ := ih fit later
      refine ⟨p :: qs, xs, ys, rfl, ?_, trivia⟩
      rw [List.flatMap_cons, List.append_assoc, pieces_text_append valid ends, found]
      rfl

def Closed (text : List Char) : Prop := ∀ p ∈ pieces text, ∀ body, p ≠ .unclosed body

theorem pieces_return (closed : Closed (withoutReturn line)) :
    ∃ qs xs ys, pieces (withoutReturn line) = qs ++ xs ∧ pieces line = qs ++ ys ∧
      ∀ p ∈ xs ++ ys, p.meaning = .trivia := by
  rcases eq_withoutReturn_or line with same | ended
  · exact ⟨pieces line, [], [], by simp [← same]⟩
  · have found := (fit_pieces (withoutReturn line)).pieces_append_return closed
    rwa [flatMap_text_pieces, ← ended] at found

theorem Closed.return (closed : Closed (withoutReturn line)) : Closed line := by
  obtain ⟨qs, xs, ys, front, whole, trivia⟩ := pieces_return closed
  rintro p member body rfl
  rw [whole] at member
  rcases List.mem_append.1 member with shared | last
  · exact closed _ (front ▸ List.mem_append_left xs shared) body rfl
  · have := trivia _ (List.mem_append_right xs last)
    contradiction

variable {α : Type u} {f : List Char → Segment → Option α}

def Segment.Silent {α : Type u} (f : List Char → Segment → Option α) : Prop :=
  ∀ before s, s.meaning = .trivia → f before s = none

theorem Segment.silent_content? : Silent fun _ s => s.content? := by
  intro _ s trivia
  simp [content?, trivia]

theorem Segment.silent_diagnostic? : Silent diagnostic? := by
  intro before s trivia
  rw [diagnostic?, trivia]

theorem Segment.Silent.collect_append_trivia (silent : Silent f) {ss ts : List Segment}
    (trivia : ∀ t ∈ ts, t.meaning = .trivia) (before : List Char) :
    collect f before (ss ++ ts) = collect f before ss := by
  have nothing : ∀ before, collect f before ts = [] := by
    induction ts with
    | nil => exact fun _ => rfl
    | cons t ts ih =>
      obtain ⟨here, later⟩ := List.forall_mem_cons.1 trivia
      intro before
      rw [collect, silent _ _ here, ih later]
      rfl
  rw [Segment.collect_append, nothing, List.append_nil]

theorem Segment.Silent.collect_return (silent : Silent f) (closed : Closed (withoutReturn line))
    (before : List Char) :
    collect f before (segments line) = collect f before (segments (withoutReturn line)) := by
  obtain ⟨qs, xs, ys, front, whole, trivia⟩ := pieces_return closed
  obtain ⟨frontTrivia, wholeTrivia⟩ := List.forall_mem_append.1 trivia
  rw [segments, segments, front, whole, List.map_append, List.map_append,
    silent.collect_append_trivia (List.forall_mem_map.2 wholeTrivia),
    silent.collect_append_trivia (List.forall_mem_map.2 frontTrivia)]

theorem Segment.Silent.collect_line (silent : Silent f) (closed : Closed (withoutReturn line))
    (before rest : List Char) :
    collect f before (segments (line ++ '\n' :: rest)) =
      collect f before (segments (withoutReturn line)) ++
        collect f (before ++ line ++ ['\n']) (segments rest) := by
  rw [segments_append_newline closed.return, Segment.collect_append, flatMap_text_segments,
    collect, silent _ _ rfl, silent.collect_return closed]
  rfl

theorem Segment.collect_content? (before : List Char) (ss : List Segment) :
    collect (fun _ s => s.content?) before ss = ss.filterMap content? := by
  have listed := map_collect (g := id) (fun _ s => congrFun Option.map_id s.content?) before ss
  rwa [List.map_id] at listed

theorem filterMap_content?_lines (closed : ∀ line ∈ split text, Closed line) :
    (segments text).filterMap Segment.content? =
      (split text).flatMap fun line => (segments line).filterMap Segment.content? := by
  induction text using line_induction '\n' with
  | last line free =>
    rw [split_of_not_mem free]
    split
    · next nothing => simp [nothing]
    · simp
  | more line rest free ih =>
    rw [split_append free, List.forall_mem_cons] at closed
    have seam := Segment.silent_content?.collect_line closed.1 [] rest
    simp only [Segment.collect_content?] at seam
    rw [seam, split_append free, List.flatMap_cons, ih closed.2]

theorem line_of_mem_errors {source : String} {d : Diagnostic} (free : '\n' ∉ source.toList)
    (h : d ∈ (scan source).errors) : d.line = 1 := by
  rw [scan_eq] at h
  obtain ⟨xs, s, ys, split, found⟩ := Segment.mem_collect h
  have whole := flatMap_text_segments source.toList
  rw [split, List.flatMap_append, List.flatMap_cons, ← List.append_assoc] at whole
  have inside : '\n' ∉ xs.flatMap Segment.text ++ s.text := by
    rw [← whole] at free
    exact fun member => free (List.mem_append_left _ member)
  rw [List.nil_append, Segment.diagnostic?] at found
  split at found
  · cases found
    exact Position.line_after_eq_one_iff.2 inside
  · cases found

theorem collect_diagnostic?_line {before : List Char} (start : lastLine before = [])
    (free : '\n' ∉ line) :
    Segment.collect Segment.diagnostic? before (segments line) =
      (scan (String.ofList line)).errors.map fun d =>
        { d with line := before.count '\n' + 1 } := by
  obtain ⟨u, rfl⟩ : ∃ u : String, before = u.toList := ⟨.ofList before, by simp⟩
  have errors : (scan (String.ofList line)).errors =
      Segment.collect Segment.diagnostic? [] (segments line) := by
    rw [scan_eq, String.toList_ofList]
  have moved := Segment.collect_map u.toList [] (segments line) fun s member more =>
    Segment.diagnostic?_relocate u more (text_ne_nil_of_mem_segments member)
  rw [List.append_nil, ← errors, Diagnostic.relocate_of_lastLine start] at moved
  rw [moved]
  refine List.map_congr_left fun d member => ?_
  rw [Diagnostic.lower, line_of_mem_errors (by simpa using free) member, Nat.add_comm]

theorem collect_diagnostic?_lines (closed : ∀ line ∈ split text, Closed line)
    {before : List Char} (start : lastLine before = []) :
    Segment.collect Segment.diagnostic? before (segments text) =
      ((split text).mapIdx fun i line =>
        (scan (String.ofList line)).errors.map fun d =>
          { d with line := before.count '\n' + i + 1 }).flatten := by
  induction text using line_induction '\n' generalizing before with
  | last line free =>
    rw [split_of_not_mem free]
    split
    · next nothing => simp [nothing, Segment.collect]
    · rw [collect_diagnostic?_line start free]
      simp
  | more line rest free ih =>
    rw [split_append free, List.forall_mem_cons] at closed
    have count : (before ++ line ++ ['\n']).count '\n' = before.count '\n' + 1 := by
      simp [List.count_append, List.count_eq_zero.2 free]
    rw [split_append free, Segment.silent_diagnostic?.collect_line closed.1, ih closed.2,
      collect_diagnostic?_line start, List.mapIdx_cons, List.flatten_cons, count]
    · simp only [Nat.add_right_comm, Nat.add_zero, Nat.add_assoc]
    · exact not_mem_withoutReturn free
    · rw [lastLine_concat, if_pos rfl]

end LoxLexer
