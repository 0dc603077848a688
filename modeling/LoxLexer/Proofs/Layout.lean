import LoxLexer.Proofs.LongestMatch
import LoxLexer.Proofs.Place
import LoxLexer.Scan

namespace LoxLexer

namespace Segment

def token? (before : List Char) (s : Segment) : Option Token :=
  match s.meaning with
  | .token kind literal =>
    let start := Position.after before
    let stop := Position.after (before ++ s.text)
    some ⟨kind, String.ofList s.text, literal, stop.line,
      ⟨start.offset, stop.offset, start.line, start.column + 1⟩⟩
  | _ => none

def diagnostic? (before : List Char) (s : Segment) : Option Diagnostic :=
  match s.meaning with
  | .fault f =>
    let stop := Position.after (before ++ s.text)
    some ⟨f, stop.line, stop.column - 1⟩
  | _ => none

variable {α : Type u} (f : List Char → Segment → Option α)

def collect (before : List Char) : List Segment → List α
  | [] => []
  | s :: ss => (f before s).toList ++ collect (before ++ s.text) ss

theorem collect_append (before : List Char) (xs ys : List Segment) :
    collect f before (xs ++ ys) =
      collect f before xs ++ collect f (before ++ xs.flatMap text) ys := by
  induction xs generalizing before with
  | nil => simp [collect]
  | cons s xs ih => simp [collect, ih]

theorem getElem?_collect {f : List Char → Segment → Option α} {before : List Char}
    {ss : List Segment} {i : Nat} {a : α} (h : (collect f before ss)[i]? = some a) :
    ∃ xs s ys, ss = xs ++ s :: ys ∧ f (before ++ xs.flatMap text) s = some a ∧
      (collect f before xs).length = i := by
  induction ss generalizing before i with
  | nil => simp [collect] at h
  | cons s ss ih =>
    rw [collect, List.getElem?_append] at h
    split at h
    · next inside =>
      cases found : f before s with
      | none => simp [found] at inside
      | some b =>
        obtain rfl : i = 0 := by simpa [found] using inside
        exact ⟨[], s, ss, rfl, by simpa [found] using h, rfl⟩
    · next outside =>
      obtain ⟨xs, t, ys, rfl, found, index⟩ := ih h
      refine ⟨s :: xs, t, ys, rfl, by simpa using found, ?_⟩
      rw [collect, List.length_append, index]
      omega

theorem mem_collect {f : List Char → Segment → Option α} {before : List Char}
    {ss : List Segment} {a : α} (h : a ∈ collect f before ss) :
    ∃ xs s ys, ss = xs ++ s :: ys ∧ f (before ++ xs.flatMap text) s = some a := by
  obtain ⟨i, found⟩ := List.getElem?_of_mem h
  obtain ⟨xs, s, ys, split, here, -⟩ := getElem?_collect found
  exact ⟨xs, s, ys, split, here⟩

end Segment

theorem exists_piece_of_collect {α : Type u} {f : List Char → Segment → Option α}
    {text : List Char} {i : Nat} {a : α} (h : (Segment.collect f [] (segments text))[i]? = some a) :
    ∃ ps p qs, pieces text = ps ++ p :: qs ∧ f (ps.flatMap Piece.text) p.segment = some a ∧
      (Segment.collect f [] (ps.map Piece.segment)).length = i := by
  obtain ⟨xs, s, ys, split, found, index⟩ := Segment.getElem?_collect h
  obtain ⟨ps, rest, cut, rfl, tail⟩ := List.map_eq_append_iff.1 split
  obtain ⟨p, qs, rfl, rfl, rfl⟩ := List.map_eq_cons_iff.1 tail
  rw [List.nil_append, List.flatMap_map] at found
  exact ⟨ps, p, qs, cut, found, index⟩

def Token.endOf (text : List Char) : Token :=
  let stop := Position.after text
  ⟨.endOfInput, "", none, stop.line, ⟨stop.offset, stop.offset, stop.line, stop.column + 1⟩⟩

namespace Progress

variable {σ : Type u} (report : Reporter σ)

theorem step_after (before : List Char) (tokens : Array Token) (sink : σ) (p : Piece) :
    step report ⟨.after before, tokens, sink⟩ p =
      ⟨.after (before ++ p.text), tokens ++ (p.segment.token? before).toList.toArray,
        (p.segment.diagnostic? before).toList.foldl report sink⟩ := by
  simp only [step, Position.advance_after, Segment.token?, Segment.diagnostic?, Piece.segment]
  cases p.meaning <;> simp

theorem foldl_step_after (before : List Char) (tokens : Array Token) (sink : σ)
    (ps : List Piece) :
    ps.foldl (step report) ⟨.after before, tokens, sink⟩ =
      ⟨.after (before ++ ps.flatMap Piece.text),
        tokens ++ (Segment.collect Segment.token? before (ps.map Piece.segment)).toArray,
        (Segment.collect Segment.diagnostic? before (ps.map Piece.segment)).foldl report sink⟩ := by
  induction ps generalizing before tokens sink with
  | nil => simp [Segment.collect]
  | cons p ps ih =>
    rw [List.foldl_cons, step_after, ih, List.map_cons, Segment.collect, Segment.collect,
      List.foldl_append, List.append_assoc, ← List.flatMap_cons, Array.append_assoc,
      List.append_toArray (Segment.token? before p.segment).toList]
    rfl

end Progress

theorem scanWith_eq {σ : Type u} (report : Reporter σ) (source : String) (sink : σ) :
    scanWith report source sink =
      (Segment.collect Segment.token? [] (segments source.toList) ++ [.endOf source.toList],
        (Segment.collect Segment.diagnostic? [] (segments source.toList)).foldl report sink) := by
  simp only [scanWith, Progress.run_eq_foldl, ← Position.after_nil, Progress.foldl_step_after]
  simp [segments, Token.endOf, Progress.endOfInput, flatMap_text_pieces]

theorem scan_eq (source : String) :
    scan source =
      ⟨Segment.collect Segment.token? [] (segments source.toList) ++ [.endOf source.toList],
        Segment.collect Segment.diagnostic? [] (segments source.toList)⟩ := by
  rw [scan, scanWith_eq]
  simp [Reporter.log]

theorem mem_tokens_scan {source : String} {t : Token} (h : t ∈ (scan source).tokens) :
    (∃ xs s ys, segments source.toList = xs ++ s :: ys ∧
      s.token? (xs.flatMap Segment.text) = some t) ∨ t = .endOf source.toList := by
  rw [scan_eq] at h
  rcases List.mem_append.1 h with inside | last
  · obtain ⟨xs, s, ys, split, found⟩ := Segment.mem_collect inside
    rw [List.nil_append] at found
    exact .inl ⟨xs, s, ys, split, found⟩
  · exact .inr (List.mem_singleton.1 last)

theorem Segment.token?_eq_some {before : List Char} {s : Segment} {t : Token}
    (h : s.token? before = some t) :
    t.lexeme = String.ofList s.text ∧ t.line = (Position.after (before ++ s.text)).line ∧
      t.span.start = (Position.after before).offset ∧
      t.span.stop = (Position.after (before ++ s.text)).offset ∧
      t.span.line = (Position.after before).line ∧
      t.span.column = (Position.after before).column + 1 := by
  rw [Segment.token?] at h
  split at h
  · cases h
    exact ⟨rfl, rfl, rfl, rfl, rfl, rfl⟩
  · cases h

theorem Piece.exists_token?_of_number {whole fraction : List Char}
    (valid : (number whole fraction).Valid) (before : List Char) :
    ∃ t, (number whole fraction).segment.token? before = some t := by
  rw [segment, Segment.token?, meaning_number valid]
  exact ⟨_, rfl⟩

/-- The tokens are those of the segments of the one way to cut the source at longest matches, in
order and each in its place, and then the end of input. -/
theorem tokens_eq_collect_segmented (source : String) :
    ∃ ss, (∀ other, Grammar.Segmented source.toList other ↔ other = ss) ∧
      (∀ s ∈ ss, s.text ≠ []) ∧ ss.flatMap Segment.text = source.toList ∧
      (scan source).tokens = Segment.collect Segment.token? [] ss ++ [.endOf source.toList] := by
  refine ⟨segments source.toList, fun _ => Grammar.segmented_iff, ?_, ?_, ?_⟩
  · intro s member
    exact text_ne_nil_of_mem_segments member
  · exact flatMap_text_segments source.toList
  · rw [scan_eq]

theorem places_of_mem_tokens (source : String) {t : Token} (h : t ∈ (scan source).tokens) :
    ∃ before rest : String, source = before ++ t.lexeme ++ rest ∧
      t.span.start = before.utf8ByteSize ∧ t.span.stop = (before ++ t.lexeme).utf8ByteSize ∧
      t.span.line = 1 + before.toList.count '\n' ∧
      t.span.column = 1 + (lastLine before.toList).length ∧
      t.line = 1 + (before ++ t.lexeme).toList.count '\n' := by
  rcases mem_tokens_scan h with ⟨xs, s, ys, split, found⟩ | rfl
  · obtain ⟨lexeme, line, start, stop, spanLine, column⟩ := Segment.token?_eq_some found
    have whole := flatMap_text_segments source.toList
    rw [split, List.flatMap_append, List.flatMap_cons] at whole
    refine ⟨String.ofList (xs.flatMap Segment.text), String.ofList (ys.flatMap Segment.text), ?_⟩
    rw [lexeme, ← String.ofList_append, ← String.ofList_append, List.append_assoc, whole]
    refine ⟨by simp, start, stop, ?_, ?_, ?_⟩
    · rw [spanLine, String.toList_ofList]
      rfl
    · rw [column, String.toList_ofList, Nat.add_comm]
      rfl
    · rw [line, String.toList_ofList]
      rfl
  · refine ⟨source, "", ?_⟩
    simp [Token.endOf, Position.after, Nat.add_comm]

theorem places_of_mem_tokens_after_string :
    (⟨.identifier, "x", some (.text "x"), 2, ⟨6, 7, 2, 3⟩⟩ : Token) ∈ (scan "\"é\n\" x").tokens ∧
      ∃ before rest : String, "\"é\n\" x" = before ++ "x" ++ rest ∧
        6 = before.utf8ByteSize ∧ 7 = (before ++ "x").utf8ByteSize ∧
        2 = 1 + before.toList.count '\n' ∧ 3 = 1 + (lastLine before.toList).length ∧
        2 = 1 + (before ++ "x").toList.count '\n' :=
  have member : (⟨.identifier, "x", some (.text "x"), 2, ⟨6, 7, 2, 3⟩⟩ : Token) ∈
      (scan "\"é\n\" x").tokens := by decide +kernel
  ⟨member, places_of_mem_tokens _ member⟩

end LoxLexer
