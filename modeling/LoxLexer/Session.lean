import LoxLexer.Scan

namespace LoxLexer

structure Session where
  log : Array Diagnostic
  tally : Tally

namespace Session

inductive Step
  | scan (source : String)
  | scanTally (source : String)
  | report (d : Diagnostic)
  | reportTally (d : Diagnostic)
  | clear

def start : Session := ⟨#[], .empty⟩

def apply (s : Session) : Step → Session × Option (List Token)
  | .scan source =>
    let (tokens, log) := scanWith Reporter.log source s.log
    ({ s with log }, some tokens)
  | .scanTally source =>
    let (tokens, tally) := scanWith Tally.count source s.tally
    ({ s with tally }, some tokens)
  | .report d => ({ s with log := Reporter.log s.log d }, none)
  | .reportTally d => ({ s with tally := Tally.count s.tally d }, none)
  | .clear => ({ s with log := #[] }, none)

end Session

end LoxLexer
