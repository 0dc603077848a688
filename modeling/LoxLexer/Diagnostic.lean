namespace LoxLexer

inductive Fault
  | illegalCharacter (c : Char)
  | unterminatedString
  | malformedNumber (lexeme reason : String)
  deriving DecidableEq

def Fault.message : Fault → String
  | .illegalCharacter c => "Illegal character: `" ++ c.toString ++ "'"
  | .unterminatedString => "Unterminated string"
  | .malformedNumber lexeme reason => reason ++ ": `" ++ lexeme ++ "'"

/--
A fault and where the reading stood when it was found, with the column of the last character read,
counted from zero.
-/
structure Diagnostic where
  fault : Fault
  line : Nat
  column : Nat
  deriving DecidableEq

def Diagnostic.display (d : Diagnostic) : String :=
  "SyntaxError (" ++ toString d.line ++ ":" ++ toString d.column ++ "): " ++ d.fault.message

end LoxLexer
