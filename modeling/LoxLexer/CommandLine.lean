import LoxLexer.Console
import LoxLexer.Scan

namespace LoxLexer

inductive Status
  | success
  | badUsage
  | badData
  | noInput
  | ioFailure
  deriving DecidableEq

/-- Zero, or the number that `sysexits.h` has for this way to fail. -/
def Status.code : Status → Nat
  | success => 0
  | badUsage => 64
  | badData => 65
  | noInput => 66
  | ioFailure => 74

inductive SourceError
  | unreadable (e : SystemError)
  | notText
  deriving DecidableEq

def SourceError.display : SourceError → String
  | unreadable e => e.display
  | notText => "stream did not contain valid UTF-8"

structure Outcome where
  status : Status
  output : String
  errors : String
  deriving DecidableEq

inductive Command
  | prompt
  | file (path : String)
  | help
  | misuse
  deriving DecidableEq

def Command.ofArguments : List String → Command
  | [] => .prompt
  | [argument] => if argument = "--help" ∨ argument = "-h" then .help else .file argument
  | _ => .misuse

namespace CommandLine

def usage : String := "Usage: loxscan [script]"

def prompt : String := "> "

def record (t : Token) : String := "Token: `" ++ t.lexeme ++ "', Type: " ++ t.kind.name ++ "\n"

def sourceOf : Except SystemError (List UInt8) → Except SourceError String
  | .error e => .error (.unreadable e)
  | .ok bytes =>
    match Line.decode? bytes with
    | none => .error .notText
    | some text => .ok text

section

variable {m : Type → Type} [Monad m] [Console m]

def stop (status : Status) (message : String) : m Status := do
  Console.complain (message ++ "\n")
  return status

def complainAll : List Diagnostic → m Unit
  | [] => return
  | d :: ds => do
    Console.complain (d.display ++ "\n")
    complainAll ds

def printTokens : List Token → m (Option SystemError)
  | [] => return none
  | t :: ts => do
    match ← Console.write (record t) with
    | some e => return some e
    | none => printTokens ts

def show? (s : Scan) : m (Option SystemError) := do
  complainAll s.errors
  printTokens s.tokens

def runFile (path : String) : m Status := do
  match sourceOf (← Console.readFile path) with
  | .error e => stop .noInput (path ++ ": " ++ e.display)
  | .ok text =>
    let s := scan text
    match ← show? s with
    | some e => stop .ioFailure e.display
    | none => return if s.isClean then .success else .badData

/-- What is made of a line that was typed in. It says how the run ends, if it does: no fault in the
text ends it. -/
def answer? : Option (Except SourceError String) → m (Option Status)
  | none => return some .success
  | some (.error e) => some <$> stop .ioFailure e.display
  | some (.ok text) => do
    match ← show? (scan text) with
    | some e => some <$> stop .ioFailure e.display
    | none => return none

def round? : m (Option Status) := do
  match ← Console.write prompt with
  | some e => some <$> stop .ioFailure e.display
  | none =>
    let line ← Console.readLine
    answer? (line.map fun read => sourceOf (read.map Line.content))

def dispatch (converse : m Status) (arguments : List String) : m Status :=
  match Command.ofArguments arguments with
  | .prompt => converse
  | .file path => runFile path
  | .help => stop .success usage
  | .misuse => stop .badUsage usage

end

section

variable {w next : World}

theorem unread_printTokens (ts : List Token) (w : World) :
    ((printTokens ts : StateM World _) w).2.unread = w.unread := by
  induction ts generalizing w with
  | nil => rfl
  | cons t ts ih =>
    simp only [printTokens, bind, StateT.bind, Console.write]
    cases w.refusal? (record t) with
    | none => exact ih _
    | some => rfl

theorem unread_complainAll (ds : List Diagnostic) (w : World) :
    ((complainAll ds : StateM World _) w).2.unread = w.unread := by
  induction ds generalizing w with
  | nil => rfl
  | cons d ds ih => exact ih _

theorem unread_show? (s : Scan) (w : World) :
    ((show? s : StateM World _) w).2.unread = w.unread :=
  (unread_printTokens _ _).trans (unread_complainAll _ _)

theorem round?_of_refused {e : SystemError} (refused : w.refusal? prompt = some e) :
    (round? : StateM World _) w =
      (some .ioFailure, (w.filled prompt).said (e.display ++ "\n")) := by
  simp only [round?, bind, StateT.bind, Console.write, refused]
  rfl

theorem round?_of_fits (fits : w.refusal? prompt = none) :
    (round? : StateM World _) w =
      (answer? (w.line?.map fun read => sourceOf (read.map Line.content)) : StateM World _)
        (w.wrote prompt).advanced := by
  simp only [round?, bind, StateT.bind, Console.write, fits]
  rfl

theorem unread_answer? {read : Option (Except SourceError String)}
    (again : (answer? read : StateM World _) w = (none, next)) : next.unread = w.unread := by
  cases read with
  | none => cases again
  | some read =>
    cases read with
    | error e => cases again
    | ok text =>
      have shown := unread_show? (scan text) w
      simp only [answer?, bind, StateT.bind] at again
      generalize (show? (scan text) : StateM World _) w = ran at again shown
      obtain ⟨_ | e, last⟩ := ran
      · cases again
        exact shown
      · cases again

theorem unread_round? (again : (round? : StateM World _) w = (none, next)) :
    next.unread.length < w.unread.length := by
  cases refused : w.refusal? prompt with
  | some e =>
    rw [round?_of_refused refused] at again
    cases again
  | none =>
    rw [round?_of_fits refused] at again
    have left : next.unread = w.unread.tail := unread_answer? again
    cases unread : w.unread with
    | nil =>
      have line : w.line? = w.host.inputFault.map .error := by
        rw [World.line?, unread]
      rw [line] at again
      cases fault : w.host.inputFault <;> rw [fault] at again <;> cases again
    | cons line rest =>
      rw [left, unread]
      exact Nat.lt_succ_self _

end

def converse : StateM World Status := fun w =>
  match _ : (round? : StateM World _) w with
  | (some status, last) => (status, last)
  | (none, next) => converse next
termination_by w => w.unread.length
decreasing_by exact unread_round? (by assumption)

def outcome (ran : Status × World) : Outcome := ⟨ran.1, ran.2.output, ran.2.errors⟩

def run (host : Host) (arguments : List String) : Outcome :=
  outcome (dispatch converse arguments (.start host))

end CommandLine

end LoxLexer
