import LoxLexer.Proofs.Layout

/-!
Scanning from the middle. Nothing is carried over a boundary between segments but the place, so a
scan of the text after one gives the rest of the scan of the whole, moved to where it stands.
-/

namespace LoxLexer

def Position.relocate (before : String) (p : Position) : Position where
  offset := p.offset + before.utf8ByteSize
  line := p.line + before.toList.count '\n'
  column := if p.line = 1 then p.column + (lastLine before.toList).length else p.column

def Span.relocate (before : String) (s : Span) : Span where
  start := s.start + before.utf8ByteSize
  stop := s.stop + before.utf8ByteSize
  line := s.line + before.toList.count '\n'
  column := if s.line = 1 then s.column + (lastLine before.toList).length else s.column

def Token.relocate (before : String) (t : Token) : Token :=
  { t with line := t.line + before.toList.count '\n', span := t.span.relocate before }

def Diagnostic.relocate (before : String) (d : Diagnostic) : Diagnostic where
  fault := d.fault
  line := d.line + before.toList.count '\n'
  column := if d.line = 1 then d.column + (lastLine before.toList).length else d.column

def Scan.body (s : Scan) : List Token := s.tokens.filter fun t => t.kind ≠ .endOfInput

namespace Position

theorem line_after_eq_one_iff {text : List Char} : (after text).line = 1 ↔ '\n' ∉ text := by
  simp [after, List.count_eq_zero]

theorem after_append (u : String) (text : List Char) :
    after (u.toList ++ text) = (after text).relocate u := by
  have size : (String.ofList (u.toList ++ text)).utf8ByteSize =
      (String.ofList text).utf8ByteSize + u.utf8ByteSize := by
    simp [Nat.add_comm]
  simp only [relocate, line_after_eq_one_iff]
  simp only [after, size, lastLine_append, List.count_append, mk.injEq, true_and]
  refine ⟨by omega, ?_⟩
  by_cases inside : '\n' ∈ text
  · simp [inside]
  · simp [inside, lastLine_eq_self inside, Nat.add_comm]

theorem column_after_pos {text : List Char} (h : text ≠ []) (line : (after text).line = 1) :
    0 < (after text).column := by
  have inside := line_after_eq_one_iff.1 line
  rw [after, lastLine_eq_self inside]
  exact List.length_pos_iff.2 h

end Position

namespace Segment

theorem token?_relocate (u : String) (before : List Char) (s : Segment) :
    s.token? (u.toList ++ before) = (s.token? before).map (Token.relocate u) := by
  rw [token?, token?]
  cases s.meaning with
  | token kind literal =>
    simp only [List.append_assoc, Position.after_append, Position.relocate, Option.map_some,
      Token.relocate, Span.relocate]
    split <;> simp only [Nat.add_right_comm]
  | _ => rfl

theorem diagnostic?_relocate (u : String) (before : List Char) {s : Segment} (h : s.text ≠ []) :
    s.diagnostic? (u.toList ++ before) = (s.diagnostic? before).map (Diagnostic.relocate u) := by
  rw [diagnostic?, diagnostic?]
  cases s.meaning with
  | fault f =>
    simp only [List.append_assoc, Position.after_append, Position.relocate, Option.map_some,
      Diagnostic.relocate]
    split
    · next line =>
      -- Some character stands before the place on the first line, so one less is not cut off.
      have := Position.column_after_pos (List.append_ne_nil_of_right_ne_nil before h) line
      rw [Nat.sub_add_comm this]
    · rfl
  | _ => rfl

theorem collect_map_append {α : Type u} {f : List Char → Segment → Option α} {g : α → α}
    (a b before : List Char) (ss : List Segment)
    (h : ∀ s ∈ ss, ∀ more, f (a ++ more) s = (f (b ++ more) s).map g) :
    collect f (a ++ before) ss = (collect f (b ++ before) ss).map g := by
  induction ss generalizing before with
  | nil => rfl
  | cons s ss ih =>
    obtain ⟨here, later⟩ := List.forall_mem_cons.1 h
    rw [collect, collect, here, List.append_assoc, List.append_assoc, ih _ later, List.map_append,
      Option.toList_map]

theorem collect_map {α : Type u} {f : List Char → Segment → Option α} {g : α → α}
    (u before : List Char) (ss : List Segment)
    (h : ∀ s ∈ ss, ∀ before, f (u ++ before) s = (f before s).map g) :
    collect f (u ++ before) ss = (collect f before ss).map g :=
  collect_map_append u [] before ss h

end Segment

theorem Token.endOf_append (u : String) (text : List Char) :
    endOf (u.toList ++ text) = (endOf text).relocate u := by
  rw [endOf, endOf, Position.after_append, Position.relocate, relocate, Span.relocate]
  dsimp only
  split <;> simp only [Nat.add_right_comm]

theorem body_scan (source : String) :
    (scan source).body = Segment.collect Segment.token? [] (segments source.toList) := by
  have proper : ∀ t ∈ Segment.collect Segment.token? [] (segments source.toList),
      t.kind ≠ .endOfInput := by
    intro t member
    obtain ⟨xs, s, ys, split, found⟩ := Segment.mem_collect member
    have among : s ∈ segments source.toList := by simp [split]
    obtain ⟨rest, lead⟩ := exists_leading_of_mem_segments among
    rw [Segment.token?] at found
    split at found
    · next kind literal meaning =>
      cases found
      exact lead.kind_ne_endOfInput meaning
    · cases found
  rw [Scan.body, scan_eq, List.filter_append, List.filter_eq_self.2 (by simpa using proper)]
  simp [Token.endOf]

theorem tokens_scan (source : String) :
    (scan source).tokens = (scan source).body ++ [.endOf source.toList] := by
  rw [body_scan, scan_eq]

theorem scan_append {u v : String}
    (h : segments (u ++ v).toList = segments u.toList ++ segments v.toList) :
    (scan (u ++ v)).tokens = (scan u).body ++ (scan v).tokens.map (Token.relocate u) ∧
      (scan (u ++ v)).errors = (scan u).errors ++ (scan v).errors.map (Diagnostic.relocate u) := by
  have moved := Segment.collect_map u.toList [] (segments v.toList)
    fun s _ before => Segment.token?_relocate u before s
  have movedFaults := Segment.collect_map u.toList [] (segments v.toList)
    fun s member before =>
      Segment.diagnostic?_relocate u before (text_ne_nil_of_mem_segments member)
  rw [List.append_nil] at moved movedFaults
  rw [body_scan, scan_eq, scan_eq, scan_eq, h, String.toList_append]
  simp only [Segment.collect_append, flatMap_text_segments, List.nil_append, moved, movedFaults,
    Token.endOf_append, List.map_append, List.append_assoc, List.map_cons, List.map_nil, and_self]

theorem exists_seam {source : String} {xs ys : List Segment}
    (h : segments source.toList = xs ++ ys) :
    ∃ u v, source = u ++ v ∧ u.toList = xs.flatMap Segment.text ∧
      segments (u ++ v).toList = segments u.toList ++ segments v.toList := by
  obtain ⟨front, back⟩ := segments_of_split h
  have whole : source = String.ofList (xs.flatMap Segment.text ++ ys.flatMap Segment.text) := by
    rw [← List.flatMap_append, ← h, flatMap_text_segments, String.ofList_toList]
  rw [String.ofList_append] at whole
  refine ⟨_, _, whole, String.toList_ofList, ?_⟩
  rw [← whole, h, String.toList_ofList, String.toList_ofList, front, back]

theorem exists_seam_of_mem_tokens {source : String} {t : Token} {p : Nat}
    (member : t ∈ (scan source).tokens) (cut : p = t.span.start ∨ p = t.span.stop) :
    ∃ u v, source = u ++ v ∧ u.utf8ByteSize = p ∧
      segments (u ++ v).toList = segments u.toList ++ segments v.toList := by
  have offset : ∀ u : String, u.utf8ByteSize = (Position.after u.toList).offset := by
    simp [Position.after]
  rcases mem_tokens_scan member with ⟨xs, s, ys, split, found⟩ | rfl
  · obtain ⟨-, -, start, stop, -, -⟩ := Segment.token?_eq_some found
    rcases cut with rfl | rfl
    · obtain ⟨u, v, whole, front, seam⟩ := exists_seam split
      exact ⟨u, v, whole, by rw [offset, front, start], seam⟩
    · have split' : segments source.toList = (xs ++ [s]) ++ ys := by simp [split]
      obtain ⟨u, v, whole, front, seam⟩ := exists_seam split'
      exact ⟨u, v, whole, by simp [offset, front, stop], seam⟩
  · refine ⟨source, "", by simp, ?_, by simp⟩
    rcases cut with rfl | rfl <;> exact offset source

/-- A scan has no memory over the start or the end of any of its tokens: it is the scan of the text
before, and then the scan of the text after as it stands there. -/
theorem scan_cut (source : String) {t : Token} {p : Nat} (member : t ∈ (scan source).tokens)
    (cut : p = t.span.start ∨ p = t.span.stop) :
    ∃ u v, source = u ++ v ∧ u.utf8ByteSize = p ∧
      (scan source).tokens = (scan u).body ++ (scan v).tokens.map (Token.relocate u) ∧
      (scan source).errors = (scan u).errors ++ (scan v).errors.map (Diagnostic.relocate u) := by
  obtain ⟨u, v, rfl, size, seam⟩ := exists_seam_of_mem_tokens member cut
  exact ⟨u, v, rfl, size, scan_append seam⟩

theorem scan_cut_behind_string :
    (⟨.string, "\"é\n\"", some (.text "é\n"), 2, ⟨2, 7, 1, 3⟩⟩ : Token) ∈
        (scan "a \"é\n\"@ 1.\"").tokens ∧
      ∃ u v, "a \"é\n\"@ 1.\"" = u ++ v ∧ u.utf8ByteSize = 7 ∧
        (scan "a \"é\n\"@ 1.\"").tokens =
          (scan u).body ++ (scan v).tokens.map (Token.relocate u) ∧
        (scan "a \"é\n\"@ 1.\"").errors =
          (scan u).errors ++ (scan v).errors.map (Diagnostic.relocate u) :=
  have member : (⟨.string, "\"é\n\"", some (.text "é\n"), 2, ⟨2, 7, 1, 3⟩⟩ : Token) ∈
      (scan "a \"é\n\"@ 1.\"").tokens := by decide +kernel
  ⟨member, scan_cut _ member (.inr rfl)⟩

end LoxLexer
