import LoxLexer.Keyword
import LoxLexer.Symbol

namespace LoxLexer

inductive Kind
  | symbol (s : Symbol)
  | keyword (k : Keyword)
  | identifier
  | string
  | number
  | endOfInput
  deriving DecidableEq

namespace Kind

def all : List Kind :=
  Symbol.all.map symbol ++ [identifier, string, number] ++ Keyword.all.map keyword ++ [endOfInput]

def name : Kind → String
  | symbol s => s.name
  | keyword k => k.name
  | identifier => "IDENTIFIER"
  | string => "STRING"
  | number => "NUMBER"
  | endOfInput => "EOF"

def isKeyword : Kind → Bool
  | keyword _ => true
  | _ => false

def ofName? (text : String) : Option Kind := all.find? fun k => k.name == text

def ofWord (text : String) : Kind :=
  match Keyword.ofWord? text with
  | some k => keyword k
  | none => identifier

theorem mem_all (k : Kind) : k ∈ all := by
  cases k with
  | symbol s => cases s <;> decide
  | keyword k => cases k <;> decide
  | identifier => decide
  | string => decide
  | number => decide
  | endOfInput => decide

end Kind

end LoxLexer
