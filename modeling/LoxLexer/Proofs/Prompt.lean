import LoxLexer.Proofs.Invocation
import LoxLexer.Proofs.LineScan
import Mathlib.Data.Nat.Find

/-!
A conversation over whatever bytes are typed in. Each line is answered as a text of its own, up to
the first that is no text or to the end of the input, and nothing that is wrong with a line ends the
conversation.
-/

namespace LoxLexer

namespace Line

def texts (lines : List (List UInt8)) : List String :=
  ((lines.map decode?).takeWhile Option.isSome).filterMap id

def Broken (lines : List (List UInt8)) : Prop := ∃ line ∈ lines, decode? line = none

instance (lines : List (List UInt8)) : Decidable (Broken lines) :=
  inferInstanceAs (Decidable (∃ line ∈ lines, decode? line = none))

variable {line : List UInt8} {lines : List (List UInt8)} {text : String} {more : List String}

theorem texts_cons (decodes : decode? line = some text) :
    texts (line :: lines) = text :: texts lines := by
  rw [texts, List.map_cons, decodes]
  rfl

theorem exists_of_texts_eq_cons (typed : texts lines = text :: more) :
    ∃ line rest, lines = line :: rest ∧ decode? line = some text ∧ texts rest = more := by
  cases lines with
  | nil => cases typed
  | cons line rest =>
    cases decodes : decode? line with
    | none =>
      rw [texts, List.map_cons, decodes] at typed
      cases typed
    | some found =>
      rw [texts_cons decodes] at typed
      obtain ⟨rfl, rfl⟩ := List.cons.inj typed
      exact ⟨line, rest, rfl, decodes, rfl⟩

theorem texts_cons_of_broken (broken : decode? line = none) : texts (line :: lines) = [] := by
  rw [texts, List.map_cons, broken]
  rfl

theorem broken_cons : Broken (line :: lines) ↔ decode? line = none ∨ Broken lines := by
  simp [Broken]

theorem encode_mem_of_mem_texts (h : text ∈ texts lines) : encode text.toList ∈ lines := by
  obtain ⟨_, leading, rfl⟩ := List.mem_filterMap.1 h
  obtain ⟨line, member, decodes⟩ := List.mem_map.1 (List.takeWhile_subset _ leading)
  rwa [← decode?_eq_some_iff.1 decodes]

theorem decode?_encode (line : List Char) : decode? (encode line) = some (String.ofList line) := by
  rw [decode?_eq_some_iff, String.toList_ofList]

theorem texts_map_encode (lines : List (List Char)) :
    texts (lines.map encode) = lines.map String.ofList := by
  induction lines with
  | nil => rfl
  | cons line lines ih =>
    rw [List.map_cons, texts_cons (decode?_encode line), ih, List.map_cons]

theorem not_broken_map_encode (lines : List (List Char)) : ¬ Broken (lines.map encode) := by
  rintro ⟨_, member, broken⟩
  obtain ⟨line, -, rfl⟩ := List.mem_map.1 member
  rw [decode?_encode] at broken
  cases broken

end Line

def Host.texts (host : Host) : List String := Line.texts (host.lines.map Line.content)

namespace CommandLine

variable {w last next : World} {line : List UInt8} {lines : List (List UInt8)} {text : String}
  {texts : List String} {e : SystemError}

theorem converse_of_ended {status : Status}
    (ended : (round? : StateM World _) w = (some status, last)) :
    converse w = (status, last) := by
  rw [converse]
  split
  · next same =>
    rw [ended] at same
    cases same
    rfl
  · next again =>
    rw [ended] at again
    cases again

theorem converse_of_again (again : (round? : StateM World _) w = (none, next)) :
    converse w = converse next := by
  rw [converse]
  split
  · next ended =>
    rw [again] at ended
    cases ended
  · next same =>
    rw [again] at same
    cases same
    rfl

def farewell : Option SourceError → String
  | none => ""
  | some e => e.display ++ "\n"

theorem converse_of_refused (refused : w.refusal? prompt = some e) :
    converse w = (.ioFailure, (w.filled prompt).said (e.display ++ "\n")) :=
  converse_of_ended (round?_of_refused refused)

theorem converse_of_end (fits : w.refusal? prompt = none) (unread : w.unread = []) :
    converse w =
      (if w.host.inputFault.isSome then .ioFailure else .success,
        (w.advanced.wrote prompt).said (farewell (w.host.inputFault.map .unreadable))) := by
  apply converse_of_ended
  rw [round?_of_fits fits, World.line?, unread]
  cases w.host.inputFault with
  | none =>
    have silent : (w.advanced.wrote prompt).said (farewell none) = (w.wrote prompt).advanced :=
      World.said_empty
    exact congrArg (some Status.success, ·) silent.symm
  | some e => rfl

theorem round?_of_line (fits : w.refusal? prompt = none) (unread : w.unread = line :: lines) :
    (round? : StateM World _) w =
      (answer? (some (sourceOf (.ok (Line.content line)))) : StateM World _)
        (w.wrote prompt).advanced := by
  rw [round?_of_fits fits, World.line?, unread]
  rfl

theorem converse_of_broken (fits : w.refusal? prompt = none) (unread : w.unread = line :: lines)
    (broken : Line.decode? (Line.content line) = none) :
    converse w = (.ioFailure, (w.advanced.wrote prompt).said (farewell (some .notText))) := by
  apply converse_of_ended
  rw [round?_of_line fits unread, sourceOf_of_not_text broken]
  rfl

theorem converse_of_unprinted (fits : w.refusal? prompt = none) (unread : w.unread = line :: lines)
    (decodes : Line.decode? (Line.content line) = some text)
    (refused : (w.wrote prompt).refusal? (printed text) = some e) :
    converse w =
      (.ioFailure,
        ((w.advanced.said (reported text)).filled (prompt ++ printed text)).said
          (e.display ++ "\n")) := by
  apply converse_of_ended
  rw [round?_of_line fits unread, sourceOf_of_text decodes]
  have shown := show?_of_refused (w := (w.wrote prompt).advanced) refused
  simp only [answer?, bind, StateT.bind, shown]
  rw [← World.filled_wrote (w := w.advanced.said (reported text)) fits refused]
  rfl

def answered (w : World) (text : String) : World :=
  (w.advanced.said (reported text)).wrote (prompt ++ printed text)

theorem unread_answered (unread : w.unread = line :: lines) (text : String) :
    (answered w text).unread = lines := by
  change w.unread.tail = lines
  rw [unread, List.tail_cons]

theorem refusal?_answered (fits : w.refusal? (prompt ++ printed text) = none) (more : String) :
    (answered w text).refusal? more = w.refusal? ((prompt ++ printed text) ++ more) :=
  World.refusal?_wrote (w := w.advanced.said (reported text)) fits

theorem converse_of_printed (fits : w.refusal? prompt = none) (unread : w.unread = line :: lines)
    (decodes : Line.decode? (Line.content line) = some text)
    (shows : (w.wrote prompt).refusal? (printed text) = none) :
    converse w = converse (answered w text) := by
  apply converse_of_again
  rw [round?_of_line fits unread, sourceOf_of_text decodes]
  have shown := show?_of_fits (w := (w.wrote prompt).advanced) shows
  simp only [answer?, bind, StateT.bind, shown]
  rw [answered, ← World.wrote_wrote]
  rfl

/-- All that is written up to the prompt that comes after these texts. -/
def transcript (texts : List String) : String :=
  String.join (texts.map fun text => "> " ++ printed text) ++ "> "

theorem transcript_nil : transcript [] = prompt := rfl

theorem transcript_cons :
    transcript (text :: texts) = (prompt ++ printed text) ++ transcript texts := by
  simp [transcript, prompt, String.append_assoc]

def ending? (inputFault : Option SystemError) (lines : List (List UInt8)) : Option SourceError :=
  if Line.Broken lines then some .notText else inputFault.map .unreadable

theorem outcome_converse (unread : w.unread = lines)
    (fits : w.refusal? (transcript (Line.texts (lines.map Line.content))) = none) :
    outcome (converse w) =
      ⟨if (ending? w.host.inputFault (lines.map Line.content)).isSome then .ioFailure
        else .success,
        w.output ++ transcript (Line.texts (lines.map Line.content)),
        w.errors ++ String.join ((Line.texts (lines.map Line.content)).map reported) ++
          farewell (ending? w.host.inputFault (lines.map Line.content))⟩ := by
  induction lines generalizing w with
  | nil =>
    have whole : ¬ Line.Broken [] := by simp [Line.Broken]
    rw [converse_of_end fits unread]
    simp [outcome, World.said, World.wrote, World.advanced, ending?, whole, Line.texts,
      transcript_nil]
  | cons line lines ih =>
    cases decodes : Line.decode? (Line.content line) with
    | none =>
      have broken : Line.Broken (Line.content line :: lines.map Line.content) :=
        Line.broken_cons.2 (.inl decodes)
      rw [List.map_cons, Line.texts_cons_of_broken decodes] at fits ⊢
      rw [converse_of_broken fits unread decodes]
      simp [outcome, World.said, World.wrote, World.advanced, ending?, broken, transcript_nil]
    | some text =>
      have same : ending? w.host.inputFault (Line.content line :: lines.map Line.content) =
          ending? w.host.inputFault (lines.map Line.content) := by
        simp [ending?, Line.broken_cons, decodes]
      rw [List.map_cons, Line.texts_cons decodes, transcript_cons] at fits ⊢
      obtain ⟨first, later⟩ := World.fits_append fits
      obtain ⟨here, shows⟩ := World.fits_append first
      have rest := (refusal?_answered first _).trans fits
      rw [converse_of_printed here unread decodes shows, ih (unread_answered unread text) rest,
        same]
      simp [answered, World.said, World.wrote, World.advanced, String.append_assoc]

/-- Where the output takes the prompt for the last of `n` texts and not the prompt after it, these
texts are the last that are looked at. -/
theorem outcome_converse_of_refused {n : Nat}
    (typed : Line.texts (w.unread.map Line.content) = texts)
    (fits : ∀ j < n, w.refusal? (transcript (texts.take j)) = none)
    (refused : w.refusal? (transcript (texts.take n)) = some e) :
    outcome (converse w) =
      ⟨.ioFailure, (w.filled (transcript (texts.take n))).output,
        w.errors ++ String.join ((texts.take n).map reported) ++ e.display ++ "\n"⟩ := by
  induction n generalizing w texts with
  | zero =>
    rw [List.take_zero, transcript_nil] at refused ⊢
    rw [converse_of_refused refused]
    simp [outcome, World.said, World.filled, String.append_assoc]
  | succ n ih =>
    have here : w.refusal? prompt = none := fits 0 n.succ_pos
    cases texts with
    | nil =>
      rw [List.take_nil, transcript_nil, here] at refused
      cases refused
    | cons text texts =>
      obtain ⟨_, _, cut, decodes, typed⟩ := Line.exists_of_texts_eq_cons typed
      obtain ⟨line, lines, unread, rfl, rfl⟩ := List.map_eq_cons_iff.1 cut
      rw [List.take_succ_cons, transcript_cons] at refused ⊢
      have fits : ∀ j < n,
          w.refusal? ((prompt ++ printed text) ++ transcript (texts.take j)) = none := by
        intro j less
        have := fits (j + 1) (Nat.succ_lt_succ less)
        rwa [List.take_succ_cons, transcript_cons] at this
      cases shows : w.refusal? (prompt ++ printed text) with
      | some e' =>
        -- The prompt after this text is not reached, so this text is the last of the `n`.
        have whole := World.refusal?_append shows (b := transcript (texts.take n))
        obtain rfl : e' = e := Option.some.inj (whole.symm.trans refused)
        obtain rfl : n = 0 := by
          by_contra more
          have := fits 0 (Nat.pos_of_ne_zero more)
          rw [World.refusal?_append shows] at this
          cases this
        have stops := (World.refusal?_wrote here).trans shows
        rw [converse_of_unprinted here unread decodes stops, World.filled_append shows]
        simp [outcome, World.said, World.filled, World.advanced, String.append_assoc]
      | none =>
        have after := refusal?_answered shows
        have stops := (after _).trans refused
        rw [← unread_answered unread text] at typed
        rw [converse_of_printed here unread decodes ((World.refusal?_wrote here).trans shows),
          ih typed (fun j less => (after _).trans (fits j less)) stops, answered,
          World.filled_wrote (w := w.advanced.said (reported text)) shows stops]
        simp [World.said, World.filled, World.wrote, World.advanced, String.append_assoc]

variable {host : Host}

theorem exists_first_refused (fails : host.Fails (transcript host.texts) e) :
    ∃ n ≤ host.texts.length, host.Fails (transcript (host.texts.take n)) e ∧
      ∀ j < n, ∀ e, ¬ host.Fails (transcript (host.texts.take j)) e := by
  classical
  have some : ∃ n, host.Fails (transcript (host.texts.take n)) e :=
    ⟨host.texts.length, by rwa [List.take_length]⟩
  refine ⟨Nat.find some, Nat.find_min' some (by rwa [List.take_length]), Nat.find_spec some, ?_⟩
  rintro j less other ⟨fault, short⟩
  exact Nat.find_min some less ⟨fails.1, short⟩

/-- Wherever the output fails, the run ends there: some of the texts are looked at, the rest not. -/
theorem run_of_fails {n : Nat}
    (fits : ∀ j < n, ∀ e, ¬ host.Fails (transcript (host.texts.take j)) e)
    (fails : host.Fails (transcript (host.texts.take n)) e) :
    run host [] =
      ⟨.ioFailure, String.ofList ((transcript (host.texts.take n)).toList.take host.room),
        String.join ((host.texts.take n).map reported) ++ e.display ++ "\n"⟩ := by
  have typed : Line.texts ((World.start host).unread.map Line.content) = host.texts := rfl
  have ran := outcome_converse_of_refused typed
    (fun j less => World.refusal?_start_eq_none.2 (fits j less)) (World.refusal?_start.2 fails)
  simp only [World.filled, World.start, String.empty_append] at ran
  exact ran

theorem run_of_works (works : ∀ e, ¬ host.Fails (transcript host.texts) e) :
    run host [] =
      ⟨if (ending? host.inputFault (host.lines.map Line.content)).isSome then .ioFailure
        else .success,
        transcript host.texts,
        String.join (host.texts.map reported) ++
          farewell (ending? host.inputFault (host.lines.map Line.content))⟩ := by
  have ran := outcome_converse (w := .start host) rfl (World.refusal?_start_eq_none.2 works)
  simp only [World.start, String.empty_append] at ran
  exact ran

/-- What is said where these lines are typed in: a prompt and the tokens for each text, and a prompt
that no text follows. -/
structure Answered (lines : List (List UInt8)) (o : Outcome) : Prop where
  output : o.output =
    String.join ((Line.texts lines).map fun text =>
      "> " ++ String.join ((scan text).tokens.map Token.record)) ++ "> "
  errors : o.errors =
    String.join ((Line.texts lines).flatMap fun text => (scan text).errors.map Diagnostic.record) ++
      if Line.Broken lines then "stream did not contain valid UTF-8\n" else ""
  code : o.status.code = if Line.Broken lines then 74 else 0
  first_line : ∀ text ∈ Line.texts lines, ∀ d ∈ (scan text).errors, d.line = 1

theorem lines_of_whole (whole : host.inputFault = none) :
    host.lines.map Line.content = Line.divide Line.lineFeed Line.carriageReturn host.input := by
  rw [Host.lines, whole]
  exact Line.map_content_cut host.input

/-- The first of these texts are looked at, and no others, before the output fails. -/
structure CutShort (host : Host) (e : SystemError) (o : Outcome) (n : Nat) : Prop where
  code : o.status.code = 74
  output : o.output = String.ofList ((transcript (host.texts.take n)).toList.take host.room)
  errors : o.errors =
    String.join ((host.texts.take n).flatMap fun text =>
      (scan text).errors.map Diagnostic.record) ++ e.display ++ "\n"
  room : host.room < (transcript (host.texts.take n)).length ∧
    ∀ j < n, (transcript (host.texts.take j)).length ≤ host.room

/-- Lines are answered one by one, each as if it were all there is. Where not even a prompt can be
written nothing is read, and where the output fails later on nothing is read from there. -/
theorem conversation_answered (host : Host) :
    (∀ e, host.Fails "> " e →
      run host [] = ⟨.ioFailure, String.ofList ("> ".toList.take host.room), e.display ++ "\n"⟩ ∧
        (run host []).status.code = 74) ∧
    (host.outputFault = none → host.inputFault = none →
      Answered (Line.divide Line.lineFeed Line.carriageReturn host.input) (run host [])) ∧
    ∀ e, host.Fails (transcript host.texts) e →
      ∃ n ≤ host.texts.length, CutShort host e (run host []) n := by
  refine ⟨?_, ?_, ?_⟩
  · intro e fails
    have ran := run_of_fails (n := 0) (fun j less => absurd less j.not_lt_zero) fails
    rw [ran]
    exact ⟨rfl, rfl⟩
  · intro working whole
    rw [run_of_works (Host.not_fails working _), Host.texts, lines_of_whole whole, whole]
    refine ⟨rfl, ?_, ?_, ?_⟩
    · rw [join_flatMap, ending?]
      split <;> rfl
    · rw [ending?]
      split <;> rfl
    · intro text member d reported
      have line := Line.not_mem_of_mem_divide _ (Line.encode_mem_of_mem_texts member)
      exact line_of_mem_errors (Line.not_mem_of_encode line) reported
  · intro e fails
    obtain ⟨n, bound, first, fits⟩ := exists_first_refused fails
    refine ⟨n, bound, ?_⟩
    rw [run_of_fails fits first]
    refine ⟨rfl, rfl, ?_, first.2, fun j less => ?_⟩
    · rw [join_flatMap]
      rfl
    · exact Nat.le_of_not_lt fun short => fits j less e ⟨fails.1, short⟩

theorem conversation_answered_up_to_broken_line :
    let input : List UInt8 := [49, 13, 13, 10, 10, 64, 34, 195, 169, 13, 10, 255, 10, 50]
    let host : Host := { file := fun _ => .error .notFound, input, outputFault := none }
    let full : Host := { host with outputFault := some .noSpace, room := 1 }
    let filling : Host := { host with outputFault := some .noSpace, room := 60 }
    host.outputFault = none ∧ host.inputFault = none ∧ full.Fails "> " .noSpace ∧
      filling.Fails (transcript filling.texts) .noSpace ∧
      run full [] = ⟨.ioFailure, ">", "No space left on device (os error 28)\n"⟩ ∧
      Answered [[49, 13], [], [64, 34, 195, 169], [255], [50]] (run host []) ∧
      Line.texts [[49, 13], [], [64, 34, 195, 169], [255], [50]] = ["1\r", "", "@\"é"] ∧
      ∃ n ≤ filling.texts.length, CutShort filling .noSpace (run filling []) n := by
  intro input host full filling
  have lines : Line.divide Line.lineFeed Line.carriageReturn input =
      [[49, 13], [], [64, 34, 195, 169], [255], [50]] := by decide
  have answered := (conversation_answered host).2.1 rfl rfl
  rw [lines] at answered
  have full_fails : full.Fails "> " .noSpace := ⟨rfl, by decide⟩
  have filling_fails : filling.Fails (transcript filling.texts) .noSpace := ⟨rfl, by decide +kernel⟩
  exact ⟨rfl, rfl, full_fails, filling_fails, ((conversation_answered full).1 _ full_fails).1,
    answered, by decide +kernel, (conversation_answered filling).2.2 _ filling_fails⟩

end CommandLine

end LoxLexer
