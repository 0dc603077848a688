namespace LoxLexer

inductive Keyword
  | and | «class» | «else» | false | «for» | «fun» | «if» | nil
  | or | print | «return» | super | this | true | var | «while»
  deriving DecidableEq

namespace Keyword

def all : List Keyword :=
  [and, «class», «else», false, «for», «fun», «if», nil,
   or, print, «return», super, this, true, var, «while»]

def word : Keyword → String
  | and => "and"
  | «class» => "class"
  | «else» => "else"
  | false => "false"
  | «for» => "for"
  | «fun» => "fun"
  | «if» => "if"
  | nil => "nil"
  | or => "or"
  | print => "print"
  | «return» => "return"
  | super => "super"
  | this => "this"
  | true => "true"
  | var => "var"
  | «while» => "while"

def name : Keyword → String
  | and => "AND"
  | «class» => "CLASS"
  | «else» => "ELSE"
  | false => "FALSE"
  | «for» => "FOR"
  | «fun» => "FUN"
  | «if» => "IF"
  | nil => "NIL"
  | or => "OR"
  | print => "PRINT"
  | «return» => "RETURN"
  | super => "SUPER"
  | this => "THIS"
  | true => "TRUE"
  | var => "VAR"
  | «while» => "WHILE"

def ofWord? (text : String) : Option Keyword := all.find? fun k => k.word == text

theorem mem_all (k : Keyword) : k ∈ all := by cases k <;> decide

theorem word_injective {k l : Keyword} (h : k.word = l.word) : k = l := by
  cases k <;> cases l <;> simp_all [word]

theorem ofWord?_eq_some_iff {text : String} {k : Keyword} :
    ofWord? text = some k ↔ k.word = text := by
  constructor
  · intro h
    simpa using List.find?_some h
  · intro h
    subst h
    cases found : ofWord? k.word with
    | none => simpa using List.find?_eq_none.1 found k (mem_all k)
    | some l => exact congrArg some (word_injective (by simpa using List.find?_some found))

end Keyword

end LoxLexer
