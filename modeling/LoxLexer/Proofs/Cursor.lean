import LoxLexer.Proofs.Layout
import Mathlib.Algebra.Group.Nat.Defs

namespace LoxLexer

def Slice (source : String) (start stop : ℕ) (text : List Char) : Prop :=
  ∃ (p q : source.Pos) (h : p ≤ q), p.offset.byteIdx = start ∧ q.offset.byteIdx = stop ∧
    (source.slice p q h).copy = String.ofList text

structure Placed (source : String) (place : Position) (rest : List Char) : Prop where
  counted : ∃ before : String, source = before ++ String.ofList rest ∧
    place.offset = before.utf8ByteSize ∧ place.line = 1 + before.toList.count '\n' ∧
    place.column = (lastLine before.toList).length
  slice : Slice source place.offset source.utf8ByteSize rest
  bounded : place.line - 1 + place.column ≤ place.offset
  inside : place.offset ≤ source.utf8ByteSize
  /-- A text in memory has less than `2 ^ 63` bytes, so its counters are words of 64 bits. -/
  fits : source.utf8ByteSize < 2 ^ 63 →
    place.offset < 2 ^ 64 ∧ place.line < 2 ^ 64 ∧ place.column + 1 < 2 ^ 64

inductive Effect (source : String) (start stop : ℕ) (text : List Char) :
    List Token → List Diagnostic → Prop
  | token {t : Token} : t.span.start = start → t.span.stop = stop →
      t.lexeme = String.ofList text →
      (t.kind = .string → ∃ body, t.literal = some (.text (String.ofList body)) ∧
        Slice source (start + 1) (stop - 1) body) →
      Effect source start stop text [t] []
  | report (d : Diagnostic) : Effect source start stop text [] [d]
  | blank {c : Char} : c ∈ [' ', '\t', '\r', '\n'] → text = [c] →
      Effect source start stop text [] []
  | comment {body : List Char} : '\n' ∉ body → text = '/' :: '/' :: body →
      Effect source start stop text [] []

variable {source : String} {before text rest body : List Char}

theorem slice_of_append (h : source.toList = before ++ (text ++ rest)) :
    Slice source (Position.after before).offset (Position.after (before ++ text)).offset text := by
  have start : source = String.ofList before ++ (String.ofList text ++ String.ofList rest) := by
    rw [← String.ofList_append, ← String.ofList_append, ← h, String.ofList_toList]
  have stop : source = String.ofList before ++ String.ofList text ++ String.ofList rest := by
    rw [String.append_assoc, ← start]
  have first := String.Pos.splits_ofEqAppend start
  have last := String.Pos.splits_ofEqAppend stop
  obtain ⟨le, copy⟩ := String.copy_slice_eq_iff_splits.2 ⟨_, _, first, last⟩
  refine ⟨_, _, le, ?_, ?_, copy⟩
  · rw [first.offset_eq_rawEndPos, String.byteIdx_rawEndPos]
    rfl
  · rw [last.offset_eq_rawEndPos, String.byteIdx_rawEndPos, ← String.ofList_append]
    rfl

namespace Position

theorem line_add_column_after_le (text : List Char) :
    (after text).line - 1 + (after text).column ≤ (after text).offset := by
  induction text using List.reverseRecOn with
  | nil => decide
  | append_singleton text c ih =>
    have size := c.utf8Size_pos
    have positive : 1 ≤ (after text).line := Nat.le_add_right 1 _
    rw [after_concat, next]
    split
    · dsimp only
      omega
    · dsimp only
      omega

theorem offset_after_pos (h : text ≠ []) : 0 < (after text).offset := by
  obtain ⟨c, rest, rfl⟩ := List.exists_cons_of_ne_nil h
  rw [offset_after_cons]
  exact Nat.add_pos_left c.utf8Size_pos _

end Position

theorem placed_after (h : source.toList = before ++ rest) :
    Placed source (.after before) rest := by
  have whole : source = String.ofList before ++ String.ofList rest := by
    rw [← String.ofList_append, ← h, String.ofList_toList]
  have stop : (Position.after (before ++ rest)).offset = source.utf8ByteSize := by
    rw [← h, Position.after, String.ofList_toList]
  have bounded := Position.line_add_column_after_le before
  have inside : (Position.after before).offset ≤ source.utf8ByteSize := by
    rw [← stop, Position.offset_after_append]
    exact Nat.le_add_right _ _
  have slice : Slice source (Position.after before).offset source.utf8ByteSize rest := by
    rw [← stop]
    exact slice_of_append (by rw [h, List.append_nil])
  refine ⟨⟨String.ofList before, whole, ?_⟩, slice, bounded, inside, fun small => ?_⟩
  · rw [String.toList_ofList]
    exact ⟨rfl, rfl, rfl⟩
  · omega

theorem slice_of_string (h : source.toList = before ++ (('"' :: body ++ ['"']) ++ rest)) :
    Slice source ((Position.after before).offset + 1)
      ((Position.after (before ++ ('"' :: body ++ ['"']))).offset - 1) body := by
  have quote : (Position.after ['"']).offset = 1 := by decide
  have split : source.toList = (before ++ ['"']) ++ (body ++ ('"' :: rest)) := by simp [h]
  have whole : before ++ ('"' :: body ++ ['"']) = before ++ ['"'] ++ body ++ ['"'] := by simp
  have slice := slice_of_append split
  rw [whole, Position.offset_after_append _ ['"'], quote, Nat.add_sub_cancel]
  rwa [Position.offset_after_append before, quote] at slice

theorem effect_of_leading {s : Segment} (lead : Grammar.Leading text s)
    (h : source.toList = before ++ (s.text ++ rest)) :
    Effect source (Position.after before).offset (Position.after (before ++ s.text)).offset s.text
      (s.token? before).toList (s.diagnostic? before).toList := by
  cases lead with
  | longest matched =>
    cases matched with
    | blank blank => exact .blank blank rfl
    | comment free => exact .comment free rfl
    | string => exact .token rfl rfl rfl fun _ => ⟨_, rfl, slice_of_string h⟩
    | _ => exact .token rfl rfl rfl (by simp)
  | unclosed => exact .report _
  | stray => exact .report _

/-- Where the loop over the pieces of a source can stand: how far it has come, and the text that is
left. -/
inductive Progress.Reached {σ : Type u} (report : Reporter σ) (source : String) (sink : σ) :
    Progress σ → List Char → Prop
  | start : Reached report source sink ⟨.start, #[], sink⟩ source.toList
  | pass {p : Progress σ} {c : Char} {rest : List Char} : Reached report source sink p (c :: rest) →
      Reached report source sink (p.step report (Piece.first c rest).1) (Piece.first c rest).2

structure Progress.Pass {σ : Type u} (report : Reporter σ) (source : String) (p q : Progress σ)
    (text rest : List Char) : Prop where
  onward : p.position.offset < q.position.offset
  placed : Placed source q.position rest
  cursor : ∀ read more, text = read ++ more → Placed source (p.position.advance read) (more ++ rest)
  slice : Slice source p.position.offset q.position.offset text
  effect : ∃ tokens reports,
    Effect source p.position.offset q.position.offset text tokens reports ∧
      q.tokens = p.tokens ++ tokens.toArray ∧ q.sink = reports.foldl report p.sink

namespace Progress

variable {σ : Type u} {report : Reporter σ} {sink : σ} {p : Progress σ}

theorem Reached.exists_before (reached : Reached report source sink p rest) :
    ∃ before, source.toList = before ++ rest ∧ p.position = .after before := by
  induction reached with
  | start => exact ⟨[], rfl, Position.after_nil.symm⟩
  | @pass p c rest _ ih =>
    obtain ⟨before, whole, position⟩ := ih
    refine ⟨before ++ (Piece.first c rest).1.text, ?_, ?_⟩
    · rw [List.append_assoc, Piece.text_first, whole]
    · rw [← Position.advance_after, ← position, step]
      split <;> rfl

theorem Reached.run_eq (reached : Reached report source sink p rest) :
    p.run report rest = run report ⟨.start, #[], sink⟩ source.toList := by
  induction reached with
  | start => rfl
  | pass _ ih =>
    rw [← ih, run]

theorem pass_of_before {c : Char} (position : p.position = .after before)
    (whole : source.toList = before ++ c :: rest) :
    Pass report source p (p.step report (Piece.first c rest).1) (Piece.first c rest).1.text
      (Piece.first c rest).2 := by
  obtain ⟨place, tokens, sink⟩ := p
  obtain rfl : place = .after before := position
  rw [← Piece.text_first c rest] at whole
  have lead := Grammar.leading_first c rest
  have moved := Position.offset_after_pos (Piece.text_first_ne_nil c rest)
  generalize Piece.first c rest = found at *
  rw [step_after]
  refine ⟨?_, placed_after (by rw [whole, List.append_assoc]), ?_, slice_of_append whole, _, _,
    effect_of_leading lead whole, rfl, rfl⟩
  · dsimp only
    rw [Position.offset_after_append]
    exact Nat.lt_add_of_pos_right moved
  · intro read more split
    rw [Position.advance_after]
    exact placed_after (by rw [whole, split, List.append_assoc, List.append_assoc])

/-- Wherever the loop stands, its counters are right, and it is over or one more pass is made, which
moves the cursor on and leaves what was found before as it is. -/
theorem reached_pass (reached : Reached report source sink p rest) :
    p.run report rest = run report ⟨.start, #[], sink⟩ source.toList ∧
      Placed source p.position rest ∧
      (p.position.offset < source.utf8ByteSize → ∃ c tail, rest = c :: tail ∧
        Pass report source p (p.step report (Piece.first c tail).1) (Piece.first c tail).1.text
          (Piece.first c tail).2) := by
  obtain ⟨before, whole, position⟩ := reached.exists_before
  refine ⟨reached.run_eq, position ▸ placed_after whole, fun inside => ?_⟩
  cases rest with
  | nil =>
    rw [position, ← String.ofList_toList (s := source), whole, List.append_nil] at inside
    exact absurd inside (lt_irrefl _)
  | cons c rest => exact ⟨c, rest, rfl, pass_of_before position whole⟩

theorem reached_pass_string :
    Reached Reporter.log "-\"é\n\"@" #[]
        ⟨⟨1, 1, 1⟩, #[⟨.symbol .minus, "-", none, 1, ⟨0, 1, 1, 1⟩⟩], #[]⟩
        ['"', 'é', '\n', '"', '@'] ∧
      Placed "-\"é\n\"@" ⟨1, 1, 1⟩ ['"', 'é', '\n', '"', '@'] ∧
      Pass Reporter.log "-\"é\n\"@"
        ⟨⟨1, 1, 1⟩, #[⟨.symbol .minus, "-", none, 1, ⟨0, 1, 1, 1⟩⟩], #[]⟩
        ⟨⟨6, 2, 1⟩, #[⟨.symbol .minus, "-", none, 1, ⟨0, 1, 1, 1⟩⟩,
          ⟨.string, "\"é\n\"", some (.text "é\n"), 2, ⟨1, 6, 1, 2⟩⟩], #[]⟩
        ['"', 'é', '\n', '"'] ['@'] := by
  have chars : "-\"é\n\"@".toList = ['-', '"', 'é', '\n', '"', '@'] := by decide
  have minus : Piece.first '-' ['"', 'é', '\n', '"', '@'] =
      (.symbol .minus, ['"', 'é', '\n', '"', '@']) := by decide
  have string : Piece.first '"' ['é', '\n', '"', '@'] = (.string ['é', '\n'], ['@']) := by decide
  have begun := @Reached.start _ Reporter.log "-\"é\n\"@" #[]
  rw [chars] at begun
  have reached := begun.pass
  rw [minus] at reached
  obtain ⟨-, placed, more⟩ := reached_pass reached
  obtain ⟨c, tail, split, pass⟩ := more (by decide)
  obtain ⟨rfl, rfl⟩ := List.cons.inj split
  rw [string] at pass
  exact ⟨reached, placed, pass⟩

end Progress

end LoxLexer
