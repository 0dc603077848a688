namespace LoxLexer

inductive Symbol
  | leftParen | rightParen | leftBrace | rightBrace
  | comma | dot | minus | plus | semicolon | slash | star
  | bang | bangEqual | equal | equalEqual
  | greater | greaterEqual | less | lessEqual
  deriving DecidableEq

namespace Symbol

def all : List Symbol :=
  [leftParen, rightParen, leftBrace, rightBrace, comma, dot, minus, plus, semicolon, slash, star,
   bang, bangEqual, equal, equalEqual, greater, greaterEqual, less, lessEqual]

def text : Symbol → List Char
  | leftParen => ['(']
  | rightParen => [')']
  | leftBrace => ['{']
  | rightBrace => ['}']
  | comma => [',']
  | dot => ['.']
  | minus => ['-']
  | plus => ['+']
  | semicolon => [';']
  | slash => ['/']
  | star => ['*']
  | bang => ['!']
  | bangEqual => ['!', '=']
  | equal => ['=']
  | equalEqual => ['=', '=']
  | greater => ['>']
  | greaterEqual => ['>', '=']
  | less => ['<']
  | lessEqual => ['<', '=']

def name : Symbol → String
  | leftParen => "LEFT_PAREN"
  | rightParen => "RIGHT_PAREN"
  | leftBrace => "LEFT_BRACE"
  | rightBrace => "RIGHT_BRACE"
  | comma => "COMMA"
  | dot => "DOT"
  | minus => "MINUS"
  | plus => "PLUS"
  | semicolon => "SEMICOLON"
  | slash => "SLASH"
  | star => "STAR"
  | bang => "BANG"
  | bangEqual => "BANG_EQUAL"
  | equal => "EQUAL"
  | equalEqual => "EQUAL_EQUAL"
  | greater => "GREATER"
  | greaterEqual => "GREATER_EQUAL"
  | less => "LESS"
  | lessEqual => "LESS_EQUAL"

def ofChar? : Char → Option Symbol
  | '(' => some leftParen
  | ')' => some rightParen
  | '{' => some leftBrace
  | '}' => some rightBrace
  | ',' => some comma
  | '.' => some dot
  | '-' => some minus
  | '+' => some plus
  | ';' => some semicolon
  | '/' => some slash
  | '*' => some star
  | '!' => some bang
  | '=' => some equal
  | '>' => some greater
  | '<' => some less
  | _ => none

def withEqual? : Symbol → Option Symbol
  | bang => some bangEqual
  | equal => some equalEqual
  | greater => some greaterEqual
  | less => some lessEqual
  | _ => none

def extend (s : Symbol) : List Char → Symbol × List Char
  | [] => (s, [])
  | c :: rest =>
    match s.withEqual? with
    | some t => if c = '=' then (t, rest) else (s, c :: rest)
    | none => (s, c :: rest)

theorem mem_all (s : Symbol) : s ∈ all := by cases s <;> decide

theorem text_ne_nil (s : Symbol) : s.text ≠ [] := by cases s <;> simp [text]

theorem text_ofChar? {c : Char} {s : Symbol} (h : ofChar? c = some s) : s.text = [c] := by
  unfold ofChar? at h
  split at h <;> cases h <;> rfl

theorem text_withEqual? {s t : Symbol} (h : s.withEqual? = some t) : t.text = s.text ++ ['='] := by
  cases s <;> cases h <;> rfl

theorem text_extend (s : Symbol) (rest : List Char) :
    (s.extend rest).1.text ++ (s.extend rest).2 = s.text ++ rest := by
  unfold extend
  split
  · rfl
  · split
    · next h => split <;> simp_all [text_withEqual? h]
    · rfl

end Symbol

end LoxLexer
