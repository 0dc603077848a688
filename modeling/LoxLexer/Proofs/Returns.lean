import LoxLexer.Proofs.LineScan

namespace LoxLexer

namespace Line

def withReturns (text : List Char) : List Char :=
  text.flatMap fun c => if c = '\n' then ['\r', '\n'] else [c]

def returned (text : String) : String := String.ofList (withReturns text.toList)

def feedsBefore (source : String) (offset : Nat) : Nat :=
  ((encode source.toList).take offset).count lineFeed

variable {text : List Char} {c : Char}

@[simp] theorem withReturns_nil : withReturns [] = [] := rfl

@[simp] theorem withReturns_append (a b : List Char) :
    withReturns (a ++ b) = withReturns a ++ withReturns b := List.flatMap_append

@[simp] theorem withReturns_newline (rest : List Char) :
    withReturns ('\n' :: rest) = '\r' :: '\n' :: withReturns rest := rfl

theorem withReturns_cons (h : c ≠ '\n') (rest : List Char) :
    withReturns (c :: rest) = c :: withReturns rest := by
  simp [withReturns, h]

theorem withReturns_of_not_mem (h : '\n' ∉ text) : withReturns text = text := by
  induction text with
  | nil => rfl
  | cons c text ih =>
    obtain ⟨here, later⟩ := not_or.1 (mt List.mem_cons.2 h)
    rw [withReturns_cons (Ne.symm here), ih later]

theorem returned_ofList (text : List Char) :
    returned (String.ofList text) = String.ofList (withReturns text) := by
  rw [returned, String.toList_ofList]

theorem mem_withReturns (h : c ≠ '\r') : c ∈ withReturns text ↔ c ∈ text := by
  induction text with
  | nil => simp
  | cons d text ih =>
    by_cases newline : d = '\n'
    · simp [newline, h, ih]
    · simp [withReturns_cons newline, ih]

theorem count_withReturns (text : List Char) : (withReturns text).count '\n' = text.count '\n' := by
  induction text with
  | nil => rfl
  | cons c text ih =>
    by_cases newline : c = '\n'
    · simp [newline, ih]
    · simp [withReturns_cons newline, newline, ih]

theorem lastLine_withReturns (text : List Char) : lastLine (withReturns text) = lastLine text := by
  induction text using List.reverseRecOn with
  | nil => rfl
  | append_singleton text c ih =>
    by_cases newline : c = '\n'
    · have ended : withReturns (text ++ ['\n']) = withReturns text ++ ['\r'] ++ ['\n'] := by simp
      rw [newline, ended, lastLine_concat, if_pos rfl, lastLine_concat, if_pos rfl]
    · rw [withReturns_append, withReturns_cons newline, withReturns_nil, lastLine_concat,
        lastLine_concat, ih]

theorem any_isDigit_head?_withReturns (rest : List Char) :
    (withReturns rest).head?.any Char.isDigit = rest.head?.any Char.isDigit := by
  cases rest with
  | nil => rfl
  | cons c rest =>
    by_cases newline : c = '\n'
    · simp [newline]
    · simp [withReturns_cons newline]

theorem length_encode (text : List Char) :
    (encode text).length = (Position.after text).offset := by
  induction text with
  | nil => rfl
  | cons c text ih =>
    rw [encode, List.flatMap_cons, List.length_append, String.length_utf8EncodeChar, ← encode, ih,
      Position.offset_after_cons]

theorem count_encode (text : List Char) : (encode text).count lineFeed = text.count '\n' := by
  induction text with
  | nil => rfl
  | cons c text ih =>
    rw [← List.singleton_append, encode_append, List.count_append, List.count_append, ih]
    congr 1
    by_cases newline : c = '\n'
    · subst newline
      rfl
    · have free : '\n' ∉ [c] := by simpa using Ne.symm newline
      rw [List.count_eq_zero.2 (not_mem_encode free), List.count_eq_zero.2 free]

theorem feedsBefore_after {source : String} {before after : List Char}
    (whole : before ++ after = source.toList) :
    feedsBefore source (Position.after before).offset = before.count '\n' := by
  rw [feedsBefore, ← whole, encode_append, ← length_encode, List.take_left', count_encode]
  rfl

end Line

open Line

namespace Position

theorem offset_after_withReturns (text : List Char) :
    (after (withReturns text)).offset = (after text).offset + text.count '\n' := by
  induction text with
  | nil => rfl
  | cons c text ih =>
    by_cases newline : c = '\n'
    · have size : '\r'.utf8Size = 1 := rfl
      rw [newline, withReturns_newline, offset_after_cons, offset_after_cons, offset_after_cons, ih,
        List.count_cons_self, size]
      omega
    · rw [withReturns_cons newline, offset_after_cons, offset_after_cons, ih,
        List.count_cons_of_ne newline, Nat.add_assoc]

theorem after_withReturns (text : List Char) :
    after (withReturns text) =
      ⟨(after text).offset + text.count '\n', (after text).line, (after text).column⟩ := by
  rw [← offset_after_withReturns, after, count_withReturns, lastLine_withReturns]
  rfl

end Position

def Literal.returned : Literal → Literal
  | number value => number value
  | text value => text (Line.returned value)

def Meaning.returned : Meaning → Meaning
  | token kind literal => token kind (literal.map Literal.returned)
  | meaning => meaning

def Token.returned (source : String) (t : Token) : Token :=
  { t with
    lexeme := Line.returned t.lexeme
    literal := t.literal.map Literal.returned
    span := { t.span with
      start := t.span.start + feedsBefore source t.span.start
      stop := t.span.stop + feedsBefore source t.span.stop } }

theorem Token.endOf_returned (source : String) :
    endOf (withReturns source.toList) = (endOf source.toList).returned source := by
  have stop := feedsBefore_after (List.append_nil source.toList)
  simp only [endOf, returned, Position.after_withReturns, stop]
  rfl

namespace Segment

variable {source : String} {before after : List Char}

def returned (s : Segment) : Segment := ⟨withReturns s.text, s.meaning.returned⟩

theorem token?_returned {s : Segment} (whole : before ++ s.text ++ after = source.toList) :
    s.returned.token? (withReturns before) = (s.token? before).map (Token.returned source) := by
  rw [token?, token?, returned]
  cases s.meaning with
  | token kind literal =>
    have start := feedsBefore_after (whole.symm.trans (List.append_assoc ..)).symm
    have stop := feedsBefore_after whole
    simp only [Meaning.returned, ← withReturns_append, Position.after_withReturns, Option.map_some,
      Token.returned, start, stop, returned_ofList]
  | _ => rfl

theorem diagnostic?_returned (before : List Char) (s : Segment) :
    s.returned.diagnostic? (withReturns before) = s.diagnostic? before := by
  rw [diagnostic?, diagnostic?, returned]
  cases s.meaning with
  | fault f => simp only [Meaning.returned, ← withReturns_append, Position.after_withReturns]
  | _ => rfl

end Segment

namespace Piece

variable {p : Piece} {rest : List Char}

/-- What a piece becomes, but that the return before a line feed that is a blank is another blank. -/
def withReturns : Piece → Piece
  | string body => string (Line.withReturns body)
  | unclosed body => unclosed (Line.withReturns body)
  | p => p

theorem takes_withReturns (p : Piece) (c : Char) : p.withReturns.takes c = p.takes c := by
  cases p <;> rfl

theorem eq_comment_of_withReturns {body : List Char} (h : p.withReturns = comment body) :
    p = comment body := by
  cases p <;> first | exact h | cases h

theorem eq_number_of_withReturns {whole fraction : List Char}
    (h : p.withReturns = number whole fraction) : p = number whole fraction := by
  cases p <;> first | exact h | cases h

theorem Valid.withReturns (valid : p.Valid) : p.withReturns.Valid := by
  cases p with
  | string => exact mt (mem_withReturns (by decide)).1 valid
  | unclosed => exact mt (mem_withReturns (by decide)).1 valid
  | _ => exact valid

theorem newline_not_mem_text {kind : Kind} (valid : p.Valid) (h : p.kind? = some kind)
    (notString : ∀ body, p ≠ string body) : '\n' ∉ p.text :=
  not_mem_text valid h notString (Alphabet.not_isWordChar_of_isBlank rfl) fun s => by
    cases s <;> decide

theorem text_withReturns (valid : p.Valid) (notFeed : p ≠ blank '\n') :
    p.withReturns.text = Line.withReturns p.text := by
  cases p with
  | string body => simp [withReturns, text, withReturns_cons]
  | unclosed body => simp [withReturns, text, withReturns_cons]
  | blank c =>
    have : c ≠ '\n' := by
      rintro rfl
      exact notFeed rfl
    exact (withReturns_cons this []).symm
  | comment body =>
    have inside : '\n' ∉ body := valid
    have free : '\n' ∉ (comment body).text := by simpa [text] using inside
    exact (withReturns_of_not_mem free).symm
  | stray c =>
    have : c ≠ '\n' := by
      rintro rfl
      exact valid.1 rfl
    exact (withReturns_cons this []).symm
  | number | word | symbol =>
    exact (withReturns_of_not_mem (newline_not_mem_text valid rfl (by simp))).symm

theorem meaning_withReturns (valid : p.Valid) : p.withReturns.meaning = p.meaning.returned := by
  cases p with
  | string body => simp [withReturns, meaning, Meaning.returned, Literal.returned, returned_ofList]
  | word letters =>
    have same : (word letters).withReturns = word letters := rfl
    have free : Line.withReturns letters = letters :=
      withReturns_of_not_mem (newline_not_mem_text valid rfl (by simp))
    rw [same, meaning]
    split <;> simp [Meaning.returned, Literal.returned, returned_ofList, free]
  | number whole fraction =>
    have same : (number whole fraction).withReturns = number whole fraction := rfl
    rw [same, meaning_number valid]
    rfl
  | _ => rfl

theorem segment_withReturns (valid : p.Valid) (notFeed : p ≠ blank '\n') :
    p.withReturns.segment = p.segment.returned := by
  rw [segment, text_withReturns valid notFeed, meaning_withReturns valid]
  rfl

theorem Ends.withReturns (ends : p.Ends rest)
    (line : ∀ body, p = comment body → rest.head? ≠ some '\n') :
    p.withReturns.Ends (Line.withReturns rest) := by
  cases rest with
  | nil => exact .nil
  | cons c rest =>
    by_cases newline : c = '\n'
    · subst newline
      refine .blank rfl ?_ ?_ _
      · rintro body unclosed
        cases p <;> cases unclosed
        cases ends.eq_nil
      · rintro body comment
        exact absurd rfl (line body (eq_comment_of_withReturns comment))
    · rw [withReturns_cons newline]
      refine ⟨?_, fun whole number => ?_⟩
      · intro d head
        rw [takes_withReturns]
        exact ends.character d head
      · have stop := ends.fraction whole (eq_number_of_withReturns number)
        by_cases point : c = '.'
        · subst point
          rwa [pointed_cons, any_isDigit_head?_withReturns, ← pointed_cons]
        · simp [pointed, point]

end Piece

theorem segments_text_append {p : Piece} {rest : List Char} (valid : p.Valid) (ends : p.Ends rest) :
    segments (p.text ++ rest) = p.segment :: segments rest := by
  rw [segments, pieces_text_append valid ends, List.map_cons]
  rfl

namespace Segment

variable {α : Type u} {f : List Char → Segment → Option α} {p : Piece} {rest : List Char}

theorem Silent.collect_blank (silent : Silent f) {c : Char} (h : Alphabet.isBlank c)
    (before rest : List Char) :
    collect f before (segments (c :: rest)) = collect f (before ++ [c]) (segments rest) := by
  rw [segments, pieces_of_isBlank h, List.map_cons, collect, silent _ _ rfl]
  rfl

theorem Silent.collect_feed (silent : Silent f) (before rest : List Char) :
    collect f before (segments (withReturns ('\n' :: rest))) =
      collect f (before ++ withReturns ['\n']) (segments (withReturns rest)) := by
  calc
    collect f before (segments ('\r' :: '\n' :: withReturns rest))
      = collect f (before ++ ['\r']) (segments ('\n' :: withReturns rest)) :=
        silent.collect_blank rfl ..
    _ = collect f (before ++ ['\r'] ++ ['\n']) (segments (withReturns rest)) :=
        silent.collect_blank rfl ..
    _ = collect f (before ++ withReturns ['\n']) (segments (withReturns rest)) := by simp

theorem Silent.collect_comment (silent : Silent f) {body : List Char}
    (valid : (Piece.comment body).Valid) (before rest : List Char) :
    collect f before (segments ((Piece.comment body).text ++ withReturns ('\n' :: rest))) =
      collect f (before ++ (Piece.comment body).text) (segments (withReturns ('\n' :: rest))) := by
  have free : '\n' ∉ body := valid
  have longer : (Piece.comment (body ++ ['\r'])).Valid := by simpa [Piece.Valid] using free
  have ended : (Piece.comment (body ++ ['\r'])).Ends ('\n' :: withReturns rest) :=
    .blank rfl (by simp) (fun _ _ => rfl) _
  have whole : (Piece.comment (body ++ ['\r'])).text = (Piece.comment body).text ++ ['\r'] := rfl
  calc
    collect f before (segments ((Piece.comment body).text ++ '\r' :: '\n' :: withReturns rest))
      = collect f before
          (segments ((Piece.comment (body ++ ['\r'])).text ++ '\n' :: withReturns rest)) := by
        rw [whole, List.append_assoc]
        rfl
    _ = collect f (before ++ ((Piece.comment body).text ++ ['\r']))
          (segments ('\n' :: withReturns rest)) := by
        rw [segments_text_append longer ended, collect, silent _ _ rfl, ← whole]
        rfl
    _ = collect f (before ++ (Piece.comment body).text)
          (segments ('\r' :: '\n' :: withReturns rest)) := by
        rw [← List.append_assoc, ← silent.collect_blank rfl]

theorem Silent.collect_withReturns_piece (silent : Silent f) (valid : p.Valid) (ends : p.Ends rest)
    (before : List Char) :
    collect f before (segments (withReturns (p.text ++ rest))) =
      (f before p.segment.returned).toList ++
        collect f (before ++ withReturns p.text) (segments (withReturns rest)) := by
  by_cases feed : p = .blank '\n'
  · subst feed
    rw [silent _ _ rfl]
    exact silent.collect_feed before rest
  have same := Piece.text_withReturns valid feed
  by_cases line : ∃ body more, p = .comment body ∧ rest = '\n' :: more
  · obtain ⟨body, more, rfl, rfl⟩ := line
    rw [silent _ _ rfl, withReturns_append, ← same]
    exact silent.collect_comment valid before more
  · have ended : p.withReturns.Ends (withReturns rest) := by
      refine ends.withReturns fun body comment head => line ?_
      obtain ⟨more, rfl⟩ := List.head?_eq_some_iff.1 head
      exact ⟨body, more, comment, rfl⟩
    rw [withReturns_append, ← same, segments_text_append valid.withReturns ended, collect,
      ← Piece.segment_withReturns valid feed]
    rfl

theorem Silent.collect_withReturns (silent : Silent f) {g : α → α} {source : List Char}
    (read : ∀ before s after, before ++ s.text ++ after = source →
      f (withReturns before) s.returned = (f before s).map g)
    {ps : List Piece} (fit : Fit ps) {before : List Char}
    (whole : before ++ ps.flatMap Piece.text = source) :
    collect f (withReturns before) (segments (withReturns (ps.flatMap Piece.text))) =
      (collect f before (ps.map Piece.segment)).map g := by
  induction ps generalizing before with
  | nil => simp [collect]
  | cons p ps ih =>
    obtain ⟨valid, ends, fit⟩ := fit
    rw [List.flatMap_cons, ← List.append_assoc] at whole
    rw [List.flatMap_cons, silent.collect_withReturns_piece valid ends,
      read before p.segment _ whole, ← withReturns_append, ih fit whole, List.map_cons, collect,
      List.map_append, Option.toList_map]
    rfl

theorem silent_token? : Silent token? := by
  intro before s trivia
  rw [token?, trivia]

end Segment

/-- A carriage return before each line feed makes no difference to what is found where on a line. The
returns are there in what strings take in, and each offset goes up by one for each line feed before
it. -/
theorem scan_returned (source : String) :
    (scan (returned source)).tokens = (scan source).tokens.map (Token.returned source) ∧
      (scan (returned source)).errors = (scan source).errors := by
  have fit := fit_pieces source.toList
  have text := flatMap_text_pieces source.toList
  have whole : [] ++ (pieces source.toList).flatMap Piece.text = source.toList := text
  have tokens := Segment.silent_token?.collect_withReturns (g := Token.returned source)
    (fun _ _ _ => Segment.token?_returned) fit whole
  have errors := Segment.silent_diagnostic?.collect_withReturns (g := id)
    (fun before s _ _ => by rw [Segment.diagnostic?_returned, Option.map_id, id]) fit whole
  rw [text] at tokens errors
  rw [scan_eq, scan_eq, returned, String.toList_ofList]
  constructor
  · rw [List.map_append, List.map_singleton, ← Token.endOf_returned]
    exact congrArg (· ++ _) tokens
  · exact errors.trans (List.map_id _)

end LoxLexer
