import LoxLexer.Proofs.Layout

namespace LoxLexer

inductive Mode
  | code | slash | comment | quote
  deriving DecidableEq

namespace Mode

def signs : List Char :=
  ['(', ')', '{', '}', ',', '.', '-', '+', ';', '*', '!', '=', '<', '>', ' ', '\t', '\r', '\n', '_']

def isPlain (c : Char) : Bool := c ∈ signs || c.isDigit || Alphabet.isLetter c

def enter (c : Char) : Mode :=
  if c = '"' then quote else if c = '/' then slash else code

def next : Mode → Char → Mode
  | code, c => enter c
  | slash, c => if c = '/' then comment else enter c
  | comment, c => if c = '\n' then code else comment
  | quote, c => if c = '"' then code else quote

def isIllegal : Mode → Char → Bool
  | code, c | slash, c => !(isPlain c || c == '"' || c == '/')
  | comment, _ | quote, _ => false

/-- What is reported of a text that is read in a mode, with all of `before` read already. -/
def report (before : List Char) (mode : Mode) : List Char → List Diagnostic
  | [] =>
    if mode = quote then
      [⟨.unterminatedString, 1 + before.count '\n', (lastLine before).length - 1⟩]
    else []
  | c :: rest =>
    (if mode.isIllegal c then
      [⟨.illegalCharacter c, 1 + before.count '\n', (lastLine before).length⟩]
    else []) ++ report (before ++ [c]) (mode.next c) rest

variable {before text body rest : List Char} {c : Char} {mode : Mode}

theorem isPlain_of_mem_signs (h : c ∈ signs) : isPlain c := by
  simp [isPlain, h]

theorem enter_of_isPlain (h : isPlain c) : enter c = code := by
  have notQuote : c ≠ '"' := by
    rintro rfl
    simp [isPlain, signs, Alphabet.not_isLetter] at h
  have notSlash : c ≠ '/' := by
    rintro rfl
    simp [isPlain, signs, Alphabet.not_isLetter] at h
  rw [enter, if_neg notQuote, if_neg notSlash]

theorem report_append (h : ∀ c ∈ text, mode.next c = mode ∧ mode.isIllegal c = false) :
    report before mode (text ++ rest) = report (before ++ text) mode rest := by
  induction text generalizing before with
  | nil => simp
  | cons c text ih =>
    obtain ⟨⟨stay, legal⟩, later⟩ := List.forall_mem_cons.1 h
    simp [report, stay, legal, ih later]

theorem report_plain (h : ∀ c ∈ text, isPlain c) :
    report before code (text ++ rest) = report (before ++ text) code rest := by
  apply report_append
  intro c member
  exact ⟨enter_of_isPlain (h c member), by simp [isIllegal, h c member]⟩

theorem report_comment (h : '\n' ∉ body) :
    report before comment (body ++ rest) = report (before ++ body) comment rest := by
  apply report_append
  intro c member
  have : c ≠ '\n' := ne_of_mem_of_not_mem member h
  simp [next, isIllegal, this]

theorem report_quote (h : '"' ∉ body) :
    report before quote (body ++ rest) = report (before ++ body) quote rest := by
  apply report_append
  intro c member
  have : c ≠ '"' := ne_of_mem_of_not_mem member h
  simp [next, isIllegal, this]

theorem report_slash (h : rest.head? ≠ some '/') :
    report before slash rest = report before code rest := by
  cases rest with
  | nil => rfl
  | cons c rest =>
    have : c ≠ '/' := by simpa using h
    simp [report, isIllegal, next, this]

theorem report_comment_end (h : ∀ c, rest.head? = some c → c = '\n') :
    report before comment rest = report before code rest := by
  cases rest with
  | nil => rfl
  | cons c rest =>
    obtain rfl := h c rfl
    rfl

end Mode

open Mode Grammar

theorem isPlain_of_isWordChar {c : Char} (h : Alphabet.isWordChar c) : isPlain c := by
  simp only [Alphabet.isWordChar, Alphabet.isWordStart, Bool.or_eq_true, beq_iff_eq] at h
  rcases h with digit | rfl | letter
  · simp [isPlain, digit]
  · exact isPlain_of_mem_signs (by simp [signs])
  · simp [isPlain, letter]

theorem isPlain_of_isDigit {c : Char} (h : c.isDigit) : isPlain c :=
  isPlain_of_isWordChar (by simp [Alphabet.isWordChar, h])

theorem isPlain_of_word {letters : List Char} (h : Word letters) : ∀ c ∈ letters, isPlain c := by
  cases letters with
  | nil => cases h
  | cons c letters =>
    obtain ⟨start, inside⟩ := Piece.valid_word_iff.2 h
    have start := isPlain_of_isWordChar (Alphabet.isWordChar_of_isWordStart start)
    exact List.forall_mem_cons.2 ⟨start, fun d member => isPlain_of_isWordChar (inside d member)⟩

theorem blanks_subset_signs : [' ', '\t', '\r', '\n'] ⊆ signs := by
  simp [signs]

theorem text_subset_signs {s : Symbol} (h : s ≠ .slash) : s.text ⊆ signs := by
  cases s with
  | slash => contradiction
  | _ => simp [Symbol.text, signs]

theorem signs_cases {c : Char} (h : c ∈ signs) :
    c ∈ [' ', '\t', '\r', '\n'] ∨ (Symbol.ofChar? c).isSome ∨ Alphabet.isWordStart c := by
  revert c
  simp [signs, Symbol.ofChar?, Alphabet.isWordStart]

theorem exists_matched_of_isPlain {c : Char} (h : isPlain c) : ∃ m, Matched [c] m := by
  have word : Alphabet.isWordStart c → ∃ m, Matched [c] m :=
    fun start => ⟨_, matched_word ⟨Alphabet.isWordStart_iff.1 start, by simp⟩⟩
  simp only [isPlain, Bool.or_eq_true, decide_eq_true_eq] at h
  rcases h with (sign | digit) | letter
  · rcases signs_cases sign with blank | symbol | start
    · exact ⟨_, .blank blank⟩
    · obtain ⟨s, found⟩ := Option.isSome_iff_exists.1 symbol
      rw [← Symbol.text_ofChar? found]
      exact ⟨_, matched_symbol s⟩
    · exact word start
  · exact ⟨_, .integer ⟨by simp, by simpa using digit⟩⟩
  · exact word (by simp [Alphabet.isWordStart, letter])

variable {before text body rest : List Char} {m : Meaning} {s : Segment}

theorem isIllegal_of_unmatched {c : Char} (h : Unmatched (c :: rest)) (notQuote : c ≠ '"') :
    code.isIllegal c := by
  have notPlain : ¬ isPlain c := by
    intro plain
    obtain ⟨m, matched⟩ := exists_matched_of_isPlain plain
    exact h _ _ matched ⟨rest, rfl⟩
  have notSlash : c ≠ '/' := by
    rintro rfl
    exact h _ _ (matched_symbol .slash) ⟨rest, rfl⟩
  simp [isIllegal, notPlain, notQuote, notSlash]

theorem report_comment_segment (free : '\n' ∉ body)
    (longest : Longest ('/' :: '/' :: body ++ rest) ('/' :: '/' :: body)) :
    report before code ('/' :: '/' :: body ++ rest) =
      report (before ++ '/' :: '/' :: body) code rest := by
  calc
    report before code ('/' :: '/' :: body ++ rest)
      = report (before ++ ['/'] ++ ['/']) comment (body ++ rest) := by
        simp [report, next, enter, isIllegal]
    _ = report (before ++ '/' :: '/' :: body) comment rest := by simp [report_comment free]
    _ = report (before ++ '/' :: '/' :: body) code rest :=
      report_comment_end fun _ => longest.head?_of_comment free

theorem report_slash_segment (longest : Longest ('/' :: rest) ['/']) :
    report before code ('/' :: rest) = report (before ++ ['/']) code rest := by
  calc
    report before code ('/' :: rest)
      = report (before ++ ['/']) slash rest := by simp [report, next, enter, isIllegal]
    _ = report (before ++ ['/']) code rest := report_slash longest.head?_of_slash

theorem report_string_segment (free : '"' ∉ body) :
    report before code ('"' :: body ++ ['"'] ++ rest) =
      report (before ++ ('"' :: body ++ ['"'])) code rest := by
  calc
    report before code ('"' :: body ++ ['"'] ++ rest)
      = report (before ++ ['"']) quote (body ++ '"' :: rest) := by
        simp [report, next, enter, isIllegal]
    _ = report (before ++ ['"'] ++ body) quote ('"' :: rest) := report_quote free
    _ = report (before ++ ('"' :: body ++ ['"'])) code rest := by simp [report, next, isIllegal]

theorem report_stray_segment {c : Char} (h : code.isIllegal c) :
    report before code (c :: rest) =
      (Segment.diagnostic? before ⟨[c], .fault (.illegalCharacter c)⟩).toList ++
        report (before ++ [c]) code rest := by
  obtain ⟨⟨notPlain, notQuote⟩, notSlash⟩ : (¬ isPlain c ∧ c ≠ '"') ∧ c ≠ '/' := by
    simpa [isIllegal] using h
  have notNewline : c ≠ '\n' := by
    rintro rfl
    exact notPlain (isPlain_of_mem_signs (by simp [signs]))
  have back : next code c = code := by rw [next, enter, if_neg notQuote, if_neg notSlash]
  rw [report, if_pos h, back]
  simp [Segment.diagnostic?, Position.after, lastLine_concat, notNewline]

theorem report_matched (matched : Matched text m) (longest : Longest (text ++ rest) text) :
    report before code (text ++ rest) = report (before ++ text) code rest := by
  -- After a slash and a comment it also takes that there is no longer match.
  cases matched with
  | blank blank =>
    apply report_plain
    intro c member
    rw [List.mem_singleton.1 member]
    exact isPlain_of_mem_signs (blanks_subset_signs blank)
  | comment free => exact report_comment_segment free longest
  | string free => exact report_string_segment free
  | integer digits => exact report_plain fun c member => isPlain_of_isDigit (digits.2 c member)
  | fractional whole fraction =>
    apply report_plain
    intro c member
    rcases List.mem_append.1 member with inside | after
    · exact isPlain_of_isDigit (whole.2 c inside)
    · rcases List.mem_cons.1 after with rfl | inside
      · exact isPlain_of_mem_signs (by simp [signs])
      · exact isPlain_of_isDigit (fraction.2 c inside)
  | reserved letterly _ => exact report_plain (isPlain_of_word letterly)
  | identifier letterly _ => exact report_plain (isPlain_of_word letterly)
  | @symbol _ s listed =>
    obtain rfl := mem_operators_iff.1 listed
    by_cases slash : s = .slash
    · subst slash
      exact report_slash_segment longest
    · exact report_plain fun c member => isPlain_of_mem_signs (text_subset_signs slash member)

theorem diagnostic?_of_matched (matched : Matched text m) :
    Segment.diagnostic? before ⟨text, m⟩ = none := by
  cases matched <;> rfl

theorem report_leading (lead : Leading text s) (e : text = s.text ++ rest) :
    report before code text =
      (s.diagnostic? before).toList ++ report (before ++ s.text) code rest := by
  cases lead with
  | longest matched _ longest =>
    subst e
    rw [report_matched matched longest, diagnostic?_of_matched matched]
    rfl
  | @unclosed body unmatched =>
    obtain rfl : rest = [] := by simpa using e
    calc
      report before code ('"' :: body)
        = report (before ++ ['"']) quote (body ++ []) := by simp [report, next, enter, isIllegal]
      _ = report (before ++ ['"'] ++ body) quote [] := report_quote unmatched.not_mem
      _ = _ := by simp [report, Segment.diagnostic?, Position.after]
  | stray unmatched notQuote =>
    obtain rfl := (List.cons.inj e).2
    exact report_stray_segment (isIllegal_of_unmatched unmatched notQuote)

theorem report_segmented {ss : List Segment} (h : Segmented text ss) :
    report before code text = Segment.collect Segment.diagnostic? before ss := by
  induction h generalizing before with
  | nil => rfl
  | cons lead _ ih => rw [report_leading lead rfl, ih, Segment.collect]

theorem errors_scan (source : String) : (scan source).errors = report [] code source.toList := by
  rw [report_segmented (segmented_segments source.toList), scan_eq]

theorem fault_of_mem_report {text : List Char} {mode : Mode} {d : Diagnostic}
    (h : d ∈ report before mode text) :
    d.fault = .unterminatedString ∨ ∃ c, d.fault = .illegalCharacter c := by
  induction text generalizing before mode with
  | nil =>
    rw [report] at h
    split at h
    · rw [List.mem_singleton.1 h]
      exact .inl rfl
    · cases h
  | cons c text ih =>
    rw [report] at h
    rcases List.mem_append.1 h with here | later
    · split at here
      · rw [List.mem_singleton.1 here]
        exact .inr ⟨c, rfl⟩
      · cases here
    · exact ih later

/-- The diagnostics of a scan are what the automaton reports of the source, so the scan is clean
exactly if that is nothing, and no number is ever malformed. -/
theorem errors_scan_eq_report (source : String) :
    (scan source).errors = report [] code source.toList ∧
      ((scan source).isClean ↔ report [] code source.toList = []) ∧
      ∀ d ∈ (scan source).errors, ∀ lexeme reason, d.fault ≠ .malformedNumber lexeme reason := by
  rw [Scan.isClean, errors_scan]
  refine ⟨rfl, List.isEmpty_iff, ?_⟩
  intro d member lexeme reason
  rcases fault_of_mem_report member with found | ⟨c, found⟩ <;> simp [found]

end LoxLexer
