import LoxLexer.Proofs.Layout
import LoxLexer.Session

namespace LoxLexer

theorem scanWith_eq_foldl {σ : Type u} (report : Reporter σ) (source : String) (sink : σ) :
    scanWith report source sink =
      ((scan source).tokens, (scan source).errors.foldl report sink) := by
  rw [scanWith_eq, scan_eq]

theorem foldl_append_eq_join {α : Type u} (f : α → String) (written : String) (xs : List α) :
    xs.foldl (fun w x => w ++ f x) written = written ++ String.join (xs.map f) := by
  induction xs generalizing written with
  | nil => simp
  | cons x xs ih => rw [List.foldl_cons, ih, List.map_cons, String.join_cons, String.append_assoc]

theorem join_flatMap {α : Type u} (f : α → List String) (xs : List α) :
    String.join (xs.flatMap f) = String.join (xs.map fun x => String.join (f x)) := by
  induction xs with
  | nil => rfl
  | cons x xs ih => simp [ih]

def Token.record (t : Token) : String := s!"Token: `{t.lexeme}', Type: {t.kind.name}\n"

theorem Token.record_eq (t : Token) :
    t.record = "Token: `" ++ t.lexeme ++ "', Type: " ++ t.kind.name ++ "\n" := rfl

def Fault.description : Fault → String
  | illegalCharacter c => s!"Illegal character: `{c}'"
  | unterminatedString => "Unterminated string"
  | malformedNumber lexeme reason => s!"{reason}: `{lexeme}'"

def Diagnostic.record (d : Diagnostic) : String :=
  s!"SyntaxError ({d.line}:{d.column}): {d.fault.description}\n"

@[simp]
theorem Fault.description_illegalCharacter (c : Char) :
    (illegalCharacter c).description = "Illegal character: `" ++ String.singleton c ++ "'" := rfl

@[simp]
theorem Fault.description_unterminatedString :
    unterminatedString.description = "Unterminated string" := rfl

theorem Fault.message_eq_description (f : Fault) : f.message = f.description := by
  cases f <;> rfl

theorem Diagnostic.record_eq (d : Diagnostic) :
    d.record = "SyntaxError (" ++ toString d.line ++ ":" ++ toString d.column ++ "): " ++
      d.fault.description ++ "\n" := rfl

theorem Diagnostic.display_newline (d : Diagnostic) : d.display ++ "\n" = d.record := by
  rw [record_eq, ← Fault.message_eq_description]
  rfl

namespace Reporter

theorem toList_foldl_log (log : Array Diagnostic) (ds : List Diagnostic) :
    (ds.foldl Reporter.log log).toList = log.toList ++ ds := by
  simp [Reporter.log]

theorem foldl_transcript (written : String) (ds : List Diagnostic) :
    ds.foldl transcript written = written ++ String.join (ds.map fun d => d.display ++ "\n") := by
  rw [← foldl_append_eq_join]
  simp only [← String.append_assoc]
  rfl

end Reporter

def Fault.isIllegalCharacter : Fault → Bool
  | illegalCharacter _ => true
  | _ => false

def Fault.isMalformedNumber : Fault → Bool
  | malformedNumber _ _ => true
  | _ => false

namespace Tally

structure Counts (t : Tally) (ds : List Diagnostic) : Prop where
  illegal : t.illegal = ds.countP (·.fault.isIllegalCharacter)
  unterminated : t.unterminated = ds.countP (·.fault = .unterminatedString)
  malformed : t.malformed = ds.countP (·.fault.isMalformedNumber)
  last : t.last = ds.getLast?.map Diagnostic.display

theorem counts_empty : empty.Counts [] := ⟨rfl, rfl, rfl, rfl⟩

variable {t : Tally} {ds : List Diagnostic}

theorem Counts.count (h : t.Counts ds) (d : Diagnostic) : (t.count d).Counts (ds ++ [d]) := by
  obtain ⟨f, line, column⟩ := d
  cases f <;> constructor <;>
    simp [Tally.count, Fault.isIllegalCharacter, Fault.isMalformedNumber, h.illegal,
      h.unterminated, h.malformed]

theorem Counts.foldl_count (h : t.Counts ds) (es : List Diagnostic) :
    (es.foldl Tally.count t).Counts (ds ++ es) := by
  induction es generalizing t ds with
  | nil => simpa using h
  | cons e es ih => simpa using ih (h.count e)

end Tally

namespace Session

namespace Step

def toLog : Step → List Diagnostic
  | scan source => (LoxLexer.scan source).errors
  | report d => [d]
  | _ => []

def toTally : Step → List Diagnostic
  | scanTally source => (LoxLexer.scan source).errors
  | reportTally d => [d]
  | _ => []

def isClear : Step → Bool
  | clear => true
  | _ => false

def source? : Step → Option String
  | scan source | scanTally source => some source
  | _ => none

end Step

def run (steps : List Step) : Session := steps.foldl (fun s step => (s.apply step).1) start

theorem run_concat (steps : List Step) (step : Step) :
    run (steps ++ [step]) = ((run steps).apply step).1 := by
  rw [run, List.foldl_append]
  rfl

variable (s : Session) (step : Step)

theorem apply_tokens :
    (s.apply step).2 = step.source?.map fun source => (LoxLexer.scan source).tokens := by
  cases step <;> simp [apply, Step.source?, scanWith_eq_foldl]

theorem apply_log :
    (s.apply step).1.log.toList = (if step.isClear then [] else s.log.toList) ++ step.toLog := by
  cases step with
  | scan source =>
    simp only [apply, scanWith_eq_foldl, Reporter.toList_foldl_log]
    rfl
  | report d => simp [apply, Step.isClear, Step.toLog, Reporter.log]
  | scanTally | reportTally | clear => simp [apply, Step.isClear, Step.toLog]

variable {s} in
theorem apply_tally {ds : List Diagnostic} (h : s.tally.Counts ds) :
    (s.apply step).1.tally.Counts (ds ++ step.toTally) := by
  cases step with
  | scanTally source =>
    simp only [apply, scanWith_eq_foldl]
    exact h.foldl_count _
  | reportTally d => exact h.count d
  | scan | report | clear => simpa [apply, Step.toTally] using h

theorem run_log (steps : List Step) :
    (run steps).log.toList = (steps.rtakeWhile (!·.isClear)).flatMap Step.toLog := by
  induction steps using List.reverseRecOn with
  | nil => rfl
  | append_singleton steps step ih =>
    rw [run_concat, apply_log, List.rtakeWhile_concat, ih]
    cases step <;> simp [Step.isClear, Step.toLog]

theorem run_tally (steps : List Step) : (run steps).tally.Counts (steps.flatMap Step.toTally) := by
  induction steps using List.reverseRecOn with
  | nil => exact Tally.counts_empty
  | append_singleton steps step ih =>
    rw [run_concat, List.flatMap_append]
    simpa using apply_tally step ih

end Session

/-- A reporter, whatever it makes of them, is given the diagnostics of a scan once each and in
order, and the tokens are the same for all. So a log holds what it was sent since it was last
cleared, a tally has counted what it was sent, and a transcript has a line for each. -/
theorem reports_of_scans :
    (∀ {σ : Type u} (report : Reporter σ) (source : String) (sink : σ),
      scanWith report source sink =
        ((scan source).tokens, (scan source).errors.foldl report sink)) ∧
    (∀ (s : Session) (step : Session.Step),
      (s.apply step).2 = step.source?.map fun source => (scan source).tokens) ∧
    (∀ steps : List Session.Step,
      (Session.run steps).log.toList =
        (steps.rtakeWhile (!·.isClear)).flatMap Session.Step.toLog ∧
      (Session.run steps).tally.Counts (steps.flatMap Session.Step.toTally)) ∧
    ∀ source written : String,
      (scanWith Reporter.transcript source written).2 =
        written ++ String.join ((scan source).errors.map fun d => d.display ++ "\n") := by
  refine ⟨scanWith_eq_foldl, Session.apply_tokens, fun steps => ?_, fun source written => ?_⟩
  · exact ⟨Session.run_log steps, Session.run_tally steps⟩
  · rw [scanWith_eq_foldl]
    exact Reporter.foldl_transcript written _

end LoxLexer
