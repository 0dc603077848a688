import LoxLexer.Proofs.Automaton
import LoxLexer.Proofs.Conversation

/-!
Reading back what the command line wrote. Nothing is escaped in a record or a diagnostic, and a string
may hold what looks like the end of its record and the start of the next. But a lexeme is either a
string, which only its own quotes enclose, or holds neither a quote nor an apostrophe; so there is one
way to read a record, and thereby all of them.
-/

namespace LoxLexer

abbrev Reader := StateT (List Char) Option

namespace Reader

def mark (text : String) : Reader Unit := fun rest => (text.toList.isPrefixOf? rest).map ((), ·)

def any : Reader Char := fun rest => rest.head?.map (·, rest.tail)

def upTo (stop : Char) : Reader (List Char) := fun rest =>
  if stop ∈ rest then some (rest.takeWhile (· != stop), (rest.dropWhile (· != stop)).tail) else none

def number (stop : Char) : Reader Nat := do
  return Nat.ofDigitChars 10 (← upTo stop) 0

variable {α β : Type} {r s : Reader α} {f : α → Reader β} {a : α} {b : β}
  {text more : List Char}

def many (r : Reader α) (text : List Char) : Option (List α) :=
  if text = [] then some []
  else
    (r.run text).bind fun found =>
      if found.2.length < text.length then (many r found.2).map (found.1 :: ·) else none
termination_by text.length

/-- Whatever comes after the text, just this is read off it. -/
def Reads (r : Reader α) (text : List Char) (a : α) : Prop :=
  ∀ rest, r.run (text ++ rest) = some (a, rest)

theorem Reads.pure : (Pure.pure a : Reader α).Reads [] a := fun _ => rfl

theorem Reads.bind (first : r.Reads text a) (second : (f a).Reads more b) :
    (r >>= f).Reads (text ++ more) b := by
  intro rest
  rw [StateT.run_bind, List.append_assoc, first]
  exact second rest

theorem Reads.orElse (first : r.Reads text a) : (r <|> s).Reads text a := by
  intro rest
  rw [StateT.run_orElse, first]
  rfl

theorem Reads.orElse_right (second : s.Reads text a)
    (first : ∀ rest, r.run (text ++ rest) = none) : (r <|> s).Reads text a := by
  intro rest
  rw [StateT.run_orElse, first]
  exact second rest

theorem reads_mark (text : String) : (mark text).Reads text.toList () := by
  intro rest
  have here : text.toList.isPrefixOf? (text.toList ++ rest) = some rest :=
    List.isPrefixOf?_eq_some_iff_append_eq.2 rfl
  exact congrArg (Option.map _) here

theorem reads_any (c : Char) : any.Reads [c] c := fun _ => rfl

theorem reads_upTo {stop : Char} (free : stop ∉ text) : (upTo stop).Reads (text ++ [stop]) text := by
  intro rest
  have inside := Piece.forall_ne free
  have stops : ∀ c ∈ (stop :: rest).head?, (c != stop) = false := by simp
  rw [List.append_assoc, List.singleton_append]
  refine (if_pos (by simp)).trans ?_
  rw [Piece.takeWhile_append_of_stop inside stops, Piece.dropWhile_append_of_stop inside stops]
  rfl

theorem reads_number {stop : Char} (notDigit : ¬ stop.isDigit) (n : Nat) :
    (number stop).Reads ((toString n).toList ++ [stop]) n := by
  have digits : (toString n).toList = Nat.toDigits 10 n := by simp
  have free : stop ∉ Nat.toDigits 10 n := fun member =>
    notDigit (Nat.isDigit_of_mem_toDigits (by decide) (by decide) member)
  have read := (reads_upTo free).bind (f := fun ds => return Nat.ofDigitChars 10 ds 0) .pure
  rw [List.append_nil, Nat.ofDigitChars_ten_toDigits] at read
  rwa [digits]

theorem many_flatMap {γ : Type} {write : γ → List Char} {g : γ → α} {xs : List γ}
    (reads : ∀ x ∈ xs, r.Reads (write x) (g x)) (nonempty : ∀ x, write x ≠ []) :
    many r (xs.flatMap write) = some (xs.map g) := by
  induction xs with
  | nil => simp [many]
  | cons x xs ih =>
    obtain ⟨here, later⟩ := List.forall_mem_cons.1 reads
    have shorter : (xs.flatMap write).length < (write x ++ xs.flatMap write).length := by
      have := List.length_pos_iff.2 (nonempty x)
      rw [List.length_append]
      omega
    rw [List.flatMap_cons, many, if_neg (List.append_ne_nil_of_left_ne_nil (nonempty x) _), here,
      Option.bind_some, if_pos shorter, ih later]
    rfl

theorem run_mark_bind_eq_none {m : String} {f : Unit → Reader β} (h : ¬ m.toList <+: text) :
    (mark m >>= f).run text = none := by
  have missing : (mark m).run text = none := by
    cases found : m.toList.isPrefixOf? text with
    | none => exact congrArg (Option.map _) found
    | some rest => exact absurd ⟨rest, List.isPrefixOf?_eq_some_iff_append_eq.1 found⟩ h
  rw [StateT.run_bind, missing]
  rfl

/-- An apostrophe in a string is not the one after it. -/
def string : Reader (List Char) := do
  mark "\""
  let body ← upTo '"'
  mark "'"
  return '"' :: body ++ ['"']

def lexeme : Reader (List Char) := string <|> upTo '\''

def kind : Reader Kind := do
  let name ← upTo '\n'
  Kind.ofName? (String.ofList name)

def record : Reader (Kind × String) := do
  mark "Token: `"
  let text ← lexeme
  mark ", Type: "
  return (← kind, String.ofList text)

def illegalCharacter : Reader Fault := do
  mark "Illegal character: `"
  let c ← any
  mark "'\n"
  return .illegalCharacter c

def unterminatedString : Reader Fault := do
  mark "Unterminated string\n"
  return .unterminatedString

def diagnostic : Reader Diagnostic := do
  mark "SyntaxError ("
  let line ← number ':'
  let column ← number ')'
  mark ": "
  return ⟨← illegalCharacter <|> unterminatedString, line, column⟩

def Delimited (lexeme : List Char) : Prop :=
  (∃ body, '"' ∉ body ∧ lexeme = '"' :: body ++ ['"']) ∨ '"' ∉ lexeme ∧ '\'' ∉ lexeme

theorem reads_lexeme (delimited : Delimited text) : lexeme.Reads (text ++ ['\'']) text := by
  rcases delimited with ⟨body, free, rfl⟩ | ⟨noQuote, noApostrophe⟩
  · have written : ('"' :: body ++ ['"']) ++ ['\''] =
        "\"".toList ++ ((body ++ ['"']) ++ ("'".toList ++ [])) := by simp
    have read : string.Reads _ ('"' :: body ++ ['"']) :=
      Reads.bind (reads_mark "\"")
        (Reads.bind (reads_upTo free) (Reads.bind (reads_mark "'") Reads.pure))
    rw [written]
    exact read.orElse
  · refine (reads_upTo noApostrophe).orElse_right fun rest => run_mark_bind_eq_none ?_
    rintro ⟨more, whole⟩
    cases text with
    | nil => simp at whole
    | cons c text =>
      obtain ⟨rfl, -⟩ := List.cons.inj whole
      exact noQuote List.mem_cons_self

end Reader

namespace Kind

theorem ofName?_name (k : Kind) : ofName? k.name = some k := by
  have named : ∀ k ∈ all, ofName? k.name = some k := by decide +kernel
  exact named k k.mem_all

theorem newline_not_mem_name (k : Kind) : '\n' ∉ k.name.toList := by
  have free : ∀ k ∈ all, '\n' ∉ k.name.toList := by decide +kernel
  exact free k k.mem_all

end Kind

namespace Reader

theorem reads_kind (k : Kind) : kind.Reads (k.name.toList ++ ['\n']) k := by
  have read : kind.Reads ((k.name.toList ++ ['\n']) ++ []) k :=
    .bind (reads_upTo k.newline_not_mem_name) fun rest => by
      rw [String.ofList_toList, k.ofName?_name]
      rfl
  rwa [List.append_nil] at read

theorem reads_record {t : Token} (delimited : Delimited t.lexeme.toList) :
    record.Reads t.record.toList (t.kind, t.lexeme) := by
  have written : t.record.toList =
      "Token: `".toList ++ ((t.lexeme.toList ++ ['\'']) ++ (", Type: ".toList ++
        ((t.kind.name.toList ++ ['\n']) ++ []))) := by
    simp [Token.record_eq]
  have read : record.Reads _ (t.kind, String.ofList t.lexeme.toList) :=
    Reads.bind (reads_mark "Token: `") (Reads.bind (reads_lexeme delimited)
      (Reads.bind (reads_mark ", Type: ") (Reads.bind (reads_kind t.kind) Reads.pure)))
  rwa [← written, String.ofList_toList] at read

theorem reads_illegalCharacter (c : Char) :
    illegalCharacter.Reads ((Fault.illegalCharacter c).description.toList ++ ['\n'])
      (.illegalCharacter c) := by
  have written : (Fault.illegalCharacter c).description.toList ++ ['\n'] =
      "Illegal character: `".toList ++ ([c] ++ ("'\n".toList ++ [])) := by
    simp
  rw [written]
  exact Reads.bind (reads_mark "Illegal character: `") (Reads.bind (reads_any c)
    (Reads.bind (reads_mark "'\n") Reads.pure))

theorem reads_unterminatedString :
    unterminatedString.Reads (Fault.unterminatedString.description.toList ++ ['\n'])
      .unterminatedString := by
  have written : Fault.unterminatedString.description.toList ++ ['\n'] =
      "Unterminated string\n".toList ++ [] := by
    simp
  rw [written]
  exact Reads.bind (reads_mark "Unterminated string\n") Reads.pure

theorem reads_fault {f : Fault} (h : f = .unterminatedString ∨ ∃ c, f = .illegalCharacter c) :
    (illegalCharacter <|> unterminatedString).Reads (f.description.toList ++ ['\n']) f := by
  rcases h with rfl | ⟨c, rfl⟩
  · refine reads_unterminatedString.orElse_right fun rest => run_mark_bind_eq_none ?_
    simp
  · exact (reads_illegalCharacter c).orElse

theorem reads_diagnostic {d : Diagnostic}
    (h : d.fault = .unterminatedString ∨ ∃ c, d.fault = .illegalCharacter c) :
    diagnostic.Reads d.record.toList d := by
  obtain ⟨fault, line, column⟩ := d
  have written : (Diagnostic.mk fault line column).record.toList =
      "SyntaxError (".toList ++ (((toString line).toList ++ [':']) ++
        (((toString column).toList ++ [')']) ++ (": ".toList ++
          ((fault.description.toList ++ ['\n']) ++ [])))) := by
    simp [Diagnostic.record_eq]
  rw [written]
  exact Reads.bind (reads_mark "SyntaxError (") (Reads.bind (reads_number (by decide) line)
    (Reads.bind (reads_number (by decide) column) (Reads.bind (reads_mark ": ")
      (Reads.bind (reads_fault h) Reads.pure))))

end Reader

theorem Piece.delimited_text {p : Piece} {kind : Kind} (valid : p.Valid) (h : p.kind? = some kind) :
    Reader.Delimited p.text := by
  by_cases quoted : ∃ body, p = .string body
  · obtain ⟨body, rfl⟩ := quoted
    exact .inl ⟨body, valid, rfl⟩
  · have notString : ∀ body, p ≠ .string body := fun body same => quoted ⟨body, same⟩
    have notWord : ∀ c ∈ ['"', '\''], Alphabet.isWordChar c = false := by
      simp [Alphabet.isWordChar, Alphabet.isWordStart, Alphabet.not_isLetter]
    have notSign : ∀ s : Symbol, ∀ c ∈ ['"', '\''], c ∉ s.text := by
      intro s
      cases s <;> simp [Symbol.text]
    have outside : ∀ c ∈ ['"', '\''], c ∉ p.text := fun c mark =>
      not_mem_text valid h notString (notWord c mark) fun s => notSign s c mark
    exact .inr ⟨outside _ (by simp), outside _ (by simp)⟩

theorem delimited_of_mem_tokens {source : String} {t : Token} (h : t ∈ (scan source).tokens) :
    Reader.Delimited t.lexeme.toList := by
  rcases spells_or_end_of_mem h with ⟨p, spells⟩ | last
  · rw [← spells.text_eq]
    exact Piece.delimited_text spells.valid spells.kind
  · rw [(Token.content_eq_iff.1 last).2.1]
    exact .inr ⟨by simp, by simp⟩

namespace CommandLine

def decodeRecords (output : String) : Option (List (Kind × String)) :=
  Reader.many Reader.record output.toList

def decodeDiagnostics (errors : String) : Option (List Diagnostic) :=
  Reader.many Reader.diagnostic errors.toList

theorem decodeRecords_printed (text : String) :
    decodeRecords (printed text) = some ((scan text).tokens.map fun t => (t.kind, t.lexeme)) := by
  rw [decodeRecords, printed, String.toList_join, List.flatMap_map]
  refine Reader.many_flatMap (fun t member => ?_) fun t => ?_
  · exact Reader.reads_record (delimited_of_mem_tokens member)
  · simp [Token.record_eq]

theorem decodeDiagnostics_reported (text : String) :
    decodeDiagnostics (reported text) = some (scan text).errors := by
  have read : decodeDiagnostics (reported text) = some ((scan text).errors.map id) := by
    rw [decodeDiagnostics, reported, String.toList_join, List.flatMap_map]
    refine Reader.many_flatMap (fun d member => ?_) fun d => ?_
    · rw [errors_scan] at member
      exact Reader.reads_diagnostic (fault_of_mem_report member)
    · simp [Diagnostic.record_eq]
  rwa [List.map_id] at read

variable {host : Host} {path text : String} {bytes : List UInt8}

theorem decode_run (decodes : Line.decode? bytes = some text) (script : path ∉ ["--help", "-h"])
    (file : host.file path = .ok bytes) (working : host.outputFault = none) :
    decodeRecords (run host [path]).output =
        some ((scan text).tokens.map fun t => (t.kind, t.lexeme)) ∧
      decodeDiagnostics (run host [path]).errors = some (scan text).errors := by
  rw [run_of_file decodes script file working]
  exact ⟨decodeRecords_printed text, decodeDiagnostics_reported text⟩

theorem decode_run_on_forged_record :
    let text := "\"', Type: EOF\nToken: `\"'é\n '\""
    let bytes : List UInt8 :=
      [34, 39, 44, 32, 84, 121, 112, 101, 58, 32, 69, 79, 70, 10, 84, 111, 107, 101, 110, 58, 32, 96,
       34, 39, 195, 169, 10, 32, 39, 34]
    let host : Host := { file := fun _ => .ok bytes, input := [], outputFault := none }
    Line.decode? bytes = some text ∧ "a" ∉ ["--help", "-h"] ∧ host.file "a" = .ok bytes ∧
      host.outputFault = none ∧
      decodeRecords (run host ["a"]).output =
        some ((scan text).tokens.map fun t => (t.kind, t.lexeme)) ∧
      decodeDiagnostics (run host ["a"]).errors = some (scan text).errors := by
  intro text bytes host
  have decodes : Line.decode? bytes = some text := Line.decode?_eq_some_iff.2 (by decide +kernel)
  have script : "a" ∉ ["--help", "-h"] := by decide
  exact ⟨decodes, script, rfl, rfl, decode_run decodes script rfl rfl⟩

end CommandLine

end LoxLexer
