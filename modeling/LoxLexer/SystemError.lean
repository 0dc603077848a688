namespace LoxLexer

structure SystemError where
  message : String
  code : Nat
  deriving DecidableEq

namespace SystemError

def display (e : SystemError) : String := e.message ++ " (os error " ++ toString e.code ++ ")"

def notFound : SystemError := ⟨"No such file or directory", 2⟩

def notDirectory : SystemError := ⟨"Not a directory", 20⟩

def isDirectory : SystemError := ⟨"Is a directory", 21⟩

def noSpace : SystemError := ⟨"No space left on device", 28⟩

def nameTooLong : SystemError := ⟨"File name too long", 36⟩

def known : List SystemError :=
  [⟨"Operation not permitted", 1⟩, notFound, ⟨"Input/output error", 5⟩,
   ⟨"Permission denied", 13⟩, notDirectory, isDirectory, ⟨"Invalid argument", 22⟩,
   ⟨"Too many open files", 24⟩, noSpace, ⟨"Broken pipe", 32⟩, nameTooLong,
   ⟨"Too many levels of symbolic links", 40⟩]

def ofCode (code : Nat) (text : String) : SystemError :=
  (known.find? fun e => e.code == code).getD ⟨text, code⟩

end SystemError

end LoxLexer
