import LoxLexer.Alphabet
import LoxLexer.Diagnostic
import LoxLexer.Number.Parse
import LoxLexer.Token

namespace LoxLexer

inductive Piece
  | blank (c : Char)
  | comment (body : List Char)
  | string (body : List Char)
  /-- The fraction is empty where there is no point. -/
  | number (whole fraction : List Char)
  | word (letters : List Char)
  | symbol (s : Symbol)
  | unclosed (body : List Char)
  | stray (c : Char)
  deriving DecidableEq

inductive Meaning
  | token (kind : Kind) (literal : Option Literal)
  | fault (f : Fault)
  | trivia
  deriving DecidableEq

namespace Piece

def text : Piece → List Char
  | blank c => [c]
  | comment body => '/' :: '/' :: body
  | string body => '"' :: body ++ ['"']
  | number whole [] => whole
  | number whole (d :: fraction) => whole ++ '.' :: d :: fraction
  | word letters => letters
  | symbol s => s.text
  | unclosed body => '"' :: body
  | stray c => [c]

def meaning : Piece → Meaning
  | blank _ => .trivia
  | comment _ => .trivia
  | string body => .token .string (some (.text (String.ofList body)))
  | number whole fraction =>
    let lexeme := (number whole fraction).text
    match Number.parse lexeme with
    | .ok value => .token .number (some (.number value))
    | .error e => .fault (.malformedNumber (String.ofList lexeme) e.message)
  | word letters =>
    match Kind.ofWord (String.ofList letters) with
    | .identifier => .token .identifier (some (.text (String.ofList letters)))
    | kind => .token kind none
  | symbol s => .token (.symbol s) none
  | unclosed _ => .fault .unterminatedString
  | stray c => .fault (.illegalCharacter c)

def quoted (rest : List Char) : Piece × List Char :=
  match rest.dropWhile (· != '"') with
  | [] => (unclosed rest, [])
  | _ :: after => (string (rest.takeWhile (· != '"')), after)

def commented (rest : List Char) : Piece × List Char :=
  (comment (rest.takeWhile (· != '\n')), rest.dropWhile (· != '\n'))

def numeric (digit : Char) (rest : List Char) : Piece × List Char :=
  let whole := digit :: rest.takeWhile Char.isDigit
  match rest.dropWhile Char.isDigit with
  | '.' :: d :: after =>
    if d.isDigit then
      (number whole (d :: after.takeWhile Char.isDigit), after.dropWhile Char.isDigit)
    else (number whole [], '.' :: d :: after)
  | after => (number whole [], after)

def wordy (start : Char) (rest : List Char) : Piece × List Char :=
  (word (start :: rest.takeWhile Alphabet.isWordChar), rest.dropWhile Alphabet.isWordChar)

def symbolic (s : Symbol) (rest : List Char) : Piece × List Char :=
  match s, rest with
  | .slash, '/' :: after => commented after
  | s, rest => (symbol (s.extend rest).1, (s.extend rest).2)

def first (c : Char) (rest : List Char) : Piece × List Char :=
  if Alphabet.isBlank c then (blank c, rest)
  else if c = '"' then quoted rest
  else if c.isDigit then numeric c rest
  else
    match Symbol.ofChar? c with
    | some s => symbolic s rest
    | none => if Alphabet.isWordStart c then wordy c rest else (stray c, rest)

theorem text_quoted (rest : List Char) :
    (quoted rest).1.text ++ (quoted rest).2 = '"' :: rest := by
  have split := rest.takeWhile_append_dropWhile (p := (· != '"'))
  unfold quoted
  split
  · simp [text]
  · next q after h =>
    have : q = '"' := by
      have := List.head?_dropWhile_not (· != '"') rest
      simpa [h] using this
    rw [h, this] at split
    simp [text, split]

theorem text_commented (rest : List Char) :
    (commented rest).1.text ++ (commented rest).2 = '/' :: '/' :: rest := by
  simp [commented, text]

theorem text_numeric (digit : Char) (rest : List Char) :
    (numeric digit rest).1.text ++ (numeric digit rest).2 = digit :: rest := by
  have split := rest.takeWhile_append_dropWhile (p := Char.isDigit)
  unfold numeric
  split
  · next d after h =>
    rw [h] at split
    split
    · simpa [text] using split
    · simpa [text] using split
  · simp [text]

theorem text_wordy (start : Char) (rest : List Char) :
    (wordy start rest).1.text ++ (wordy start rest).2 = start :: rest := by
  simp [wordy, text]

theorem text_symbolic (s : Symbol) (rest : List Char) :
    (symbolic s rest).1.text ++ (symbolic s rest).2 = s.text ++ rest := by
  unfold symbolic
  split
  · simp [Symbol.text, text_commented]
  · simp [text, Symbol.text_extend]

theorem text_first (c : Char) (rest : List Char) :
    (first c rest).1.text ++ (first c rest).2 = c :: rest := by
  unfold first
  split
  · rfl
  split
  · next h => rw [h, text_quoted]
  split
  · exact text_numeric c rest
  split
  · next h => simp [text_symbolic, Symbol.text_ofChar? h]
  split
  · exact text_wordy c rest
  · rfl

theorem text_first_ne_nil (c : Char) (rest : List Char) : (first c rest).1.text ≠ [] := by
  unfold first
  split
  · simp [text]
  split
  · unfold quoted; split <;> simp [text]
  split
  · unfold numeric; split <;> (try split) <;> simp [text]
  split
  · next s _ =>
    unfold symbolic
    split
    · simp [commented, text]
    · simpa [text] using Symbol.text_ne_nil _
  split <;> simp [wordy, text]

theorem length_first (c : Char) (rest : List Char) : (first c rest).2.length ≤ rest.length := by
  have whole := congrArg List.length (text_first c rest)
  have := List.length_pos_iff.2 (text_first_ne_nil c rest)
  simp at whole
  omega

end Piece

def pieces : List Char → List Piece
  | [] => []
  | c :: rest => (Piece.first c rest).1 :: pieces (Piece.first c rest).2
termination_by text => text.length
decreasing_by simpa [Nat.lt_succ_iff] using Piece.length_first c rest

theorem flatMap_text_pieces (text : List Char) : (pieces text).flatMap Piece.text = text := by
  fun_induction pieces text with
  | case1 => rfl
  | case2 c rest ih => simp [ih, Piece.text_first]

end LoxLexer
