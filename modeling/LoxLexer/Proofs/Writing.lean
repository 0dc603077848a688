import LoxLexer.CommandLine
import LoxLexer.Proofs.Reporting

namespace LoxLexer

namespace World

variable {w : World} {a b text : String} {e : SystemError}

theorem wrote_empty : w.wrote "" = w := by
  simp [wrote]

theorem said_empty : w.said "" = w := by
  simp [said]

theorem wrote_wrote : (w.wrote a).wrote b = w.wrote (a ++ b) := by
  simp [wrote, String.append_assoc, Nat.sub_add_eq]

theorem said_said : (w.said a).said b = w.said (a ++ b) := by
  simp [said, String.append_assoc]

theorem room_lt_of_refused (refused : w.refusal? text = some e) : w.room < text.length := by
  rw [refusal?] at refused
  split at refused
  · cases refused
  · omega

theorem refusal?_wrote (fits : w.refusal? a = none) :
    (w.wrote a).refusal? b = w.refusal? (a ++ b) := by
  simp only [refusal?, wrote, String.length_append] at fits ⊢
  split at fits
  · next room =>
    have : b.length ≤ w.room - a.length ↔ a.length + b.length ≤ w.room := by omega
    simp only [this]
  · simp only [fits, ite_self]

theorem refusal?_append (refused : w.refusal? a = some e) : w.refusal? (a ++ b) = some e := by
  have less := room_lt_of_refused refused
  rw [refusal?, if_neg (by omega)] at refused
  rw [refusal?, String.length_append, if_neg (by omega), refused]

theorem fits_append (fits : w.refusal? (a ++ b) = none) :
    w.refusal? a = none ∧ (w.wrote a).refusal? b = none := by
  have first : w.refusal? a = none := by
    cases refused : w.refusal? a with
    | none => rfl
    | some e =>
      rw [refusal?_append refused] at fits
      cases fits
  exact ⟨first, (refusal?_wrote first).trans fits⟩

theorem filled_append (refused : w.refusal? a = some e) : w.filled (a ++ b) = w.filled a := by
  have less := room_lt_of_refused refused
  rw [← String.length_toList] at less
  simp only [filled, String.toList_append, List.take_append_of_le_length less.le]

theorem filled_wrote (fits : w.refusal? a = none) (refused : (w.wrote a).refusal? b = some e) :
    (w.wrote a).filled b = w.filled (a ++ b) := by
  have room : a.toList.length ≤ w.room := by
    rw [String.length_toList]
    by_contra less
    rw [refusal?, if_neg less] at fits
    have : (w.wrote a).host.outputFault = none := fits
    simp [refusal?, this] at refused
  have cut : (a ++ b).toList.take w.room = a.toList ++ b.toList.take (w.room - a.length) := by
    rw [String.toList_append, List.take_append, List.take_of_length_le room, String.length_toList]
  simp only [filled, wrote, cut, String.ofList_append, String.ofList_toList, String.append_assoc]

theorem write_of_fits (fits : w.refusal? text = none) :
    (Console.write text : StateM World _) w = (none, w.wrote text) := by
  simp only [Console.write, fits]

theorem write_of_refused (refused : w.refusal? text = some e) :
    (Console.write text : StateM World _) w = (some e, w.filled text) := by
  simp only [Console.write, refused]

end World

namespace CommandLine

variable {w : World} {e : SystemError}

theorem record_eq (t : Token) : record t = t.record := rfl

theorem printTokens_eq_write (ts : List Token) (w : World) :
    (printTokens ts : StateM World _) w =
      (Console.write (String.join (ts.map Token.record)) : StateM World _) w := by
  induction ts generalizing w with
  | nil =>
    have fits : w.refusal? "" = none := if_pos (Nat.zero_le _)
    rw [List.map_nil, String.join_nil, World.write_of_fits fits, World.wrote_empty]
    rfl
  | cons t ts ih =>
    rw [List.map_cons, String.join_cons]
    cases refused : w.refusal? (record t) with
    | some e =>
      -- What comes after the record is not written either way.
      have whole := World.refusal?_append refused (b := String.join (ts.map Token.record))
      rw [← record_eq, World.write_of_refused whole, World.filled_append refused]
      simp only [printTokens, bind, StateT.bind, World.write_of_refused refused]
      rfl
    | none =>
      have step : (printTokens (t :: ts) : StateM World _) w =
          (printTokens ts : StateM World _) (w.wrote (record t)) := by
        simp only [printTokens, bind, StateT.bind, World.write_of_fits refused]
      rw [step, ih, ← record_eq]
      have whole := World.refusal?_wrote refused (b := String.join (ts.map Token.record))
      cases rest : (w.wrote (record t)).refusal? (String.join (ts.map Token.record)) with
      | none =>
        rw [World.write_of_fits rest, World.write_of_fits (whole ▸ rest), World.wrote_wrote]
      | some e =>
        rw [World.write_of_refused rest, World.write_of_refused (whole ▸ rest),
          World.filled_wrote refused rest]

theorem complainAll_eq (ds : List Diagnostic) (w : World) :
    (complainAll ds : StateM World _) w =
      ((), w.said (String.join (ds.map Diagnostic.record))) := by
  induction ds generalizing w with
  | nil =>
    rw [List.map_nil, String.join_nil, World.said_empty]
    rfl
  | cons d ds ih =>
    have step : (complainAll (d :: ds) : StateM World _) w =
        (complainAll ds : StateM World _) (w.said (d.display ++ "\n")) := rfl
    rw [step, ih, World.said_said, Diagnostic.display_newline, List.map_cons, String.join_cons]

def printed (text : String) : String := String.join ((scan text).tokens.map Token.record)

def reported (text : String) : String := String.join ((scan text).errors.map Diagnostic.record)

variable {text : String}

theorem show?_of_fits (fits : w.refusal? (printed text) = none) :
    (show? (scan text) : StateM World _) w =
      (none, (w.said (reported text)).wrote (printed text)) := by
  simp only [show?, bind, StateT.bind, complainAll_eq, printTokens_eq_write]
  exact World.write_of_fits fits

theorem show?_of_refused (refused : w.refusal? (printed text) = some e) :
    (show? (scan text) : StateM World _) w =
      (some e, (w.said (reported text)).filled (printed text)) := by
  simp only [show?, bind, StateT.bind, complainAll_eq, printTokens_eq_write]
  exact World.write_of_refused refused

end CommandLine

end LoxLexer
