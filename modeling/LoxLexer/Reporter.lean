import LoxLexer.Diagnostic

namespace LoxLexer

abbrev Reporter (σ : Type u) := σ → Diagnostic → σ

namespace Reporter

def log : Reporter (Array Diagnostic) := Array.push

def transcript : Reporter String := fun written d => written ++ d.display ++ "\n"

end Reporter

structure Tally where
  illegal : Nat
  unterminated : Nat
  malformed : Nat
  last : Option String
  deriving DecidableEq

namespace Tally

def empty : Tally := ⟨0, 0, 0, none⟩

def count : Reporter Tally := fun t d =>
  let t := { t with last := some d.display }
  match d.fault with
  | .illegalCharacter _ => { t with illegal := t.illegal + 1 }
  | .unterminatedString => { t with unterminated := t.unterminated + 1 }
  | .malformedNumber _ _ => { t with malformed := t.malformed + 1 }

end Tally

end LoxLexer
