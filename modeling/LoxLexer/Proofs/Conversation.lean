import LoxLexer.Proofs.Prompt

namespace LoxLexer

theorem contents_body (source : String) :
    (scan source).body.map Token.content =
      (segments source.toList).filterMap Segment.content? := by
  rw [body_scan, Segment.map_collect Segment.map_token?]

namespace CommandLine

theorem map_record (ts : List Token) :
    ts.map Token.record = (ts.map Token.content).map fun c =>
      "Token: `" ++ c.2.1 ++ "', Type: " ++ c.1.name ++ "\n" := by
  rw [List.map_map]
  rfl

variable {host : Host} {path text : String} {bytes : List UInt8}

theorem run_of_file (decodes : Line.decode? bytes = some text) (script : path ∉ ["--help", "-h"])
    (file : host.file path = .ok bytes) (working : host.outputFault = none) :
    run host [path] =
      ⟨if (scan text).isClean then .success else .badData, printed text, reported text⟩ := by
  rw [run_of_path script, runFile_of_works ⟨bytes, file, decodes⟩ (Host.not_fails working _)]

theorem divide_of_text (decodes : Line.decode? bytes = some text) :
    Line.divide Line.lineFeed Line.carriageReturn bytes =
      (Line.split text.toList).map Line.encode := by
  rw [Line.decode?_eq_some_iff.1 decodes, Line.divide_encode]

theorem run_of_typed (decodes : Line.decode? bytes = some text) (input : host.input = bytes)
    (working : host.outputFault = none) (whole : host.inputFault = none) :
    run host [] =
      ⟨.success, String.join ((Line.ofText text).map fun line => "> " ++ printed line) ++ "> ",
        String.join ((Line.ofText text).map reported)⟩ := by
  have proper : ¬ Line.Broken ((Line.split text.toList).map Line.encode) :=
    Line.not_broken_map_encode _
  rw [run_of_works (Host.not_fails working _), Host.texts, lines_of_whole whole, input,
    divide_of_text decodes, Line.texts_map_encode, whole, ending?, if_neg proper]
  simp [transcript, farewell, Line.ofText]

/-- A text read from a file and the same text typed in say the same, line for line. -/
structure Agreement (text : String) (file conversation : Outcome) : Prop where
  file_status : file.status = if (scan text).isClean then .success else .badData
  file_output : file.output =
    String.join ((scan text).body.map Token.record) ++ "Token: `', Type: EOF\n"
  file_errors : file.errors = String.join ((scan text).errors.map Diagnostic.record)
  status : conversation.status = .success
  output : conversation.output =
    String.join ((Line.ofText text).map fun line =>
      "> " ++ String.join ((scan line).body.map Token.record) ++ "Token: `', Type: EOF\n") ++ "> "
  errors : conversation.errors =
    String.join ((Line.ofText text).flatMap fun line => (scan line).errors.map Diagnostic.record)
  records : (scan text).body.map Token.record =
    (Line.ofText text).flatMap fun line => (scan line).body.map Token.record
  diagnostics : (scan text).errors =
    ((Line.ofText text).mapIdx fun i line =>
      (scan line).errors.map fun d => { d with line := i + 1 }).flatten
  first_line : ∀ line ∈ Line.ofText text, ∀ d ∈ (scan line).errors, d.line = 1

theorem records_lines (closed : ∀ line ∈ Line.split text.toList, Closed line) :
    (scan text).body.map Token.record =
      (Line.ofText text).flatMap fun line => (scan line).body.map Token.record := by
  simp only [map_record, contents_body, filterMap_content?_lines closed, Line.ofText,
    List.flatMap_map, List.map_flatMap, String.toList_ofList]

theorem errors_lines (closed : ∀ line ∈ Line.split text.toList, Closed line) :
    (scan text).errors =
      ((Line.ofText text).mapIdx fun i line =>
        (scan line).errors.map fun d => { d with line := i + 1 }).flatten := by
  have listed := collect_diagnostic?_lines closed lastLine_nil
  simp only [List.count_nil, Nat.zero_add] at listed
  rw [scan_eq, listed, Line.ofText, List.mapIdx_eq_zipIdx_map, List.mapIdx_eq_zipIdx_map,
    List.zipIdx_map, List.map_map]
  rfl

theorem file_agrees_with_prompt {onFile onInput : Host}
    (decodes : Line.decode? bytes = some text) (script : path ∉ ["--help", "-h"])
    (file : onFile.file path = .ok bytes)
    (input : onInput.input = bytes ∧ onInput.inputFault = none)
    (working : onFile.outputFault = none ∧ onInput.outputFault = none)
    (closed : ∀ line ∈ Line.ofText text, ∀ d ∈ (scan line).errors,
      d.fault ≠ .unterminatedString) :
    Agreement text (run onFile [path]) (run onInput []) := by
  have closed : ∀ line ∈ Line.split text.toList, Closed line := by
    intro line member
    have alone := not_unclosed_of_faults (closed _ (List.mem_map_of_mem member))
    rwa [String.toList_ofList] at alone
  rw [run_of_file decodes script file working.1, run_of_typed decodes input.1 working.2 input.2]
  refine ⟨rfl, printed_eq text, rfl, rfl, ?_, ?_, records_lines closed, errors_lines closed, ?_⟩
  · simp only [printed_eq, String.append_assoc, endRecord]
  · rw [join_flatMap]
    rfl
  intro line member d reported
  obtain ⟨chars, found, rfl⟩ := List.mem_map.1 member
  refine line_of_mem_errors ?_ reported
  rw [String.toList_ofList]
  exact Line.not_mem_of_mem_split found

theorem file_agrees_with_prompt_on_returns :
    let text := "1.\r\n@// \"é\r\n\n\r\"s\r\"~"
    let bytes : List UInt8 :=
      [49, 46, 13, 10, 64, 47, 47, 32, 34, 195, 169, 13, 10, 10, 13, 34, 115, 13, 34, 126]
    let host : Host := { file := fun _ => .ok bytes, input := bytes, outputFault := none }
    Line.decode? bytes = some text ∧ "a" ∉ ["--help", "-h"] ∧ host.file "a" = .ok bytes ∧
      host.input = bytes ∧ host.inputFault = none ∧ host.outputFault = none ∧
      (∀ line ∈ Line.ofText text, ∀ d ∈ (scan line).errors, d.fault ≠ .unterminatedString) ∧
      Agreement text (run host ["a"]) (run host []) := by
  intro text bytes host
  have decodes : Line.decode? bytes = some text := Line.decode?_eq_some_iff.2 (by decide +kernel)
  have script : "a" ∉ ["--help", "-h"] := by decide
  have closed : ∀ line ∈ Line.ofText text, ∀ d ∈ (scan line).errors,
      d.fault ≠ .unterminatedString := by decide +kernel
  exact ⟨decodes, script, rfl, rfl, rfl, rfl, closed,
    file_agrees_with_prompt decodes script rfl ⟨rfl, rfl⟩ ⟨rfl, rfl⟩ closed⟩

end CommandLine

end LoxLexer
