import LoxLexer.Proofs.Directory
import LoxLexer.Proofs.Restart
import LoxLexer.Proofs.Writing

namespace LoxLexer

def Host.Holds (host : Host) (path text : String) : Prop :=
  ∃ bytes, host.file path = .ok bytes ∧ Line.decode? bytes = some text

def Host.Fails (host : Host) (text : String) (e : SystemError) : Prop :=
  host.outputFault = some e ∧ host.room < text.length

theorem Host.not_fails {host : Host} (working : host.outputFault = none) (text : String)
    (e : SystemError) : ¬ host.Fails text e := by
  rintro ⟨fault, -⟩
  rw [working] at fault
  cases fault

theorem World.refusal?_start {host : Host} {text : String} {e : SystemError} :
    (start host).refusal? text = some e ↔ host.Fails text e := by
  have same : (start host).refusal? text =
      if text.length ≤ host.room then none else host.outputFault := rfl
  by_cases fits : text.length ≤ host.room
  · simp [same, Host.Fails, fits]
  · simp [same, Host.Fails, fits, Nat.lt_of_not_le fits]

theorem World.refusal?_start_eq_none {host : Host} {text : String} :
    (start host).refusal? text = none ↔ ∀ e, ¬ host.Fails text e := by
  simp only [Option.eq_none_iff_forall_ne_some, ne_eq, refusal?_start]

namespace CommandLine

def endRecord : String := "Token: `', Type: EOF\n"

theorem printed_eq (text : String) :
    printed text = String.join ((scan text).body.map Token.record) ++ endRecord := by
  rw [printed, tokens_scan, List.map_append, String.join_append]
  rfl

variable {host : Host} {path text : String} {bytes : List UInt8} {e : SystemError}

theorem sourceOf_of_text (decodes : Line.decode? bytes = some text) :
    sourceOf (.ok bytes) = .ok text := by
  rw [sourceOf, decodes]

theorem sourceOf_of_holds (holds : host.Holds path text) :
    sourceOf (host.file path) = .ok text := by
  obtain ⟨bytes, file, decodes⟩ := holds
  rw [file, sourceOf_of_text decodes]

theorem sourceOf_of_not_text (broken : Line.decode? bytes = none) :
    sourceOf (.ok bytes) = .error .notText := by
  rw [sourceOf, broken]

theorem run_of_path (script : path ∉ ["--help", "-h"]) :
    run host [path] = outcome ((runFile path : StateM World _) (.start host)) := by
  simp only [List.mem_cons, List.not_mem_nil, or_false] at script
  rw [run, dispatch, Command.ofArguments, if_neg script]

theorem runFile_of_holds (holds : host.Holds path text) :
    (runFile path : StateM World _) (.start host) =
      match (show? (scan text) : StateM World _) (.start host) with
      | (some e, last) => (.ioFailure, last.said (e.display ++ "\n"))
      | (none, last) => (if (scan text).isClean then .success else .badData, last) := by
  have read : (Console.readFile path : StateM World _) (.start host) =
      (host.file path, .start host) := rfl
  simp only [runFile, bind, StateT.bind, read, sourceOf_of_holds holds]
  generalize (show? (scan text) : StateM World _) (.start host) = shown
  obtain ⟨_ | e, last⟩ := shown <;> rfl

theorem runFile_of_works (holds : host.Holds path text)
    (works : ∀ e, ¬ host.Fails (printed text) e) :
    outcome ((runFile path : StateM World _) (.start host)) =
      ⟨if (scan text).isClean then .success else .badData, printed text, reported text⟩ := by
  rw [runFile_of_holds holds, show?_of_fits (World.refusal?_start_eq_none.2 works)]
  simp [outcome, World.said, World.wrote, World.start]

end CommandLine

end LoxLexer
