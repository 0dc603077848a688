import LoxLexer.Piece
import LoxLexer.Position
import LoxLexer.Reporter

namespace LoxLexer

structure Progress (σ : Type u) where
  position : Position
  tokens : Array Token
  sink : σ

namespace Progress

variable {σ : Type u}

/--
Lines of tokens and diagnostics are those after the piece. The column of a diagnostic is one back
from there, but never before the start of the line.
-/
def step (report : Reporter σ) (p : Progress σ) (piece : Piece) : Progress σ :=
  let before := p.position
  let after := before.advance piece.text
  match piece.meaning with
  | .trivia => { p with position := after }
  | .fault f =>
    { p with position := after, sink := report p.sink ⟨f, after.line, after.column - 1⟩ }
  | .token kind literal =>
    let span : Span := ⟨before.offset, after.offset, before.line, before.column + 1⟩
    let token : Token := ⟨kind, String.ofList piece.text, literal, after.line, span⟩
    { p with position := after, tokens := p.tokens.push token }

def run (report : Reporter σ) (p : Progress σ) : List Char → Progress σ
  | [] => p
  | c :: rest =>
    let found := Piece.first c rest
    run report (p.step report found.1) found.2
termination_by text => text.length
decreasing_by simpa [Nat.lt_succ_iff] using Piece.length_first c rest

theorem run_eq_foldl (report : Reporter σ) (p : Progress σ) (text : List Char) :
    p.run report text = (pieces text).foldl (step report) p := by
  fun_induction run report p text with
  | case1 => simp [pieces]
  | case2 p c rest found ih => simp [pieces, ih, found]

def endOfInput (p : Progress σ) : Token where
  kind := .endOfInput
  lexeme := ""
  literal := none
  line := p.position.line
  span := ⟨p.position.offset, p.position.offset, p.position.line, p.position.column + 1⟩

end Progress

def scanWith {σ : Type u} (report : Reporter σ) (source : String) (sink : σ) : List Token × σ :=
  let done := Progress.run report ⟨.start, #[], sink⟩ source.toList
  ((done.tokens.push done.endOfInput).toList, done.sink)

@[ext]
structure Scan where
  tokens : List Token
  errors : List Diagnostic
  deriving DecidableEq

def scan (source : String) : Scan :=
  let (tokens, errors) := scanWith Reporter.log source #[]
  ⟨tokens, errors.toList⟩

namespace Scan

def isClean (s : Scan) : Bool := s.errors.isEmpty

def equalTokens (a b : Scan) : Bool := a.tokens.isEqv b.tokens Token.equal

def equal (a b : Scan) : Bool := a.equalTokens b && a.errors == b.errors

end Scan

end LoxLexer
