import LoxLexer.Kind
import LoxLexer.Number.Shortest

namespace LoxLexer

structure Span where
  start : Nat
  stop : Nat
  line : Nat
  column : Nat
  deriving DecidableEq

inductive Literal
  | number (value : Number.Binary64)
  | text (value : String)
  deriving DecidableEq

namespace Literal

def display : Literal → String
  | number value => value.display
  | text value => value

def equal : Literal → Literal → Bool
  | number a, number b => a.equal b
  | text a, text b => a == b
  | number _, text _ => false
  | text _, number _ => false

def equal? : Option Literal → Option Literal → Bool
  | some a, some b => a.equal b
  | none, none => true
  | some _, none => false
  | none, some _ => false

end Literal

/-- The line of a token is the one it ends on; its span has the line it begins on. -/
@[ext]
structure Token where
  kind : Kind
  lexeme : String
  literal : Option Literal
  line : Nat
  span : Span
  deriving DecidableEq

namespace Token

def number? (t : Token) : Option Number.Binary64 :=
  match t.literal with
  | some (.number value) => some value
  | _ => none

def text? (t : Token) : Option String :=
  match t.literal with
  | some (.text value) => some value
  | _ => none

def display (t : Token) : String :=
  let literal :=
    match t.literal with
    | some l => l.display
    | none => "nil"
  "Token(" ++ t.kind.name ++ ")\x7b " ++ literal ++ " \x7d"

def equal (a b : Token) : Bool :=
  a.kind == b.kind && a.lexeme == b.lexeme && Literal.equal? a.literal b.literal
    && a.line == b.line && a.span == b.span

end Token

end LoxLexer
