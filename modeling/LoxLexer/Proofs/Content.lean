import LoxLexer.Proofs.Layout

namespace LoxLexer

def Token.content (t : Token) : Kind × String × Option Literal := (t.kind, t.lexeme, t.literal)

theorem Token.content_eq_iff {t : Token} {kind : Kind} {lexeme : String} {literal : Option Literal} :
    t.content = (kind, lexeme, literal) ↔
      t.kind = kind ∧ t.lexeme = lexeme ∧ t.literal = literal := by
  simp only [content, Prod.mk.injEq]

namespace Segment

def content? (s : Segment) : Option (Kind × String × Option Literal) :=
  match s.meaning with
  | .token kind literal => some (kind, String.ofList s.text, literal)
  | _ => none

def fault? (s : Segment) : Option Fault :=
  match s.meaning with
  | .fault f => some f
  | _ => none

theorem meaning_of_content? {s : Segment} {c : Kind × String × Option Literal}
    (h : s.content? = some c) : s.meaning = .token c.1 c.2.2 := by
  rw [content?] at h
  cases meaning : s.meaning with
  | token kind literal =>
    rw [meaning] at h
    cases h
    rfl
  | _ => simp [meaning] at h

theorem fault?_of_content? {s : Segment} {c : Kind × String × Option Literal}
    (h : s.content? = some c) : s.fault? = none := by
  rw [fault?, meaning_of_content? h]

theorem map_token? (before : List Char) (s : Segment) :
    (s.token? before).map Token.content = s.content? := by
  rw [token?, content?]
  cases s.meaning <;> rfl

theorem map_diagnostic? (before : List Char) (s : Segment) :
    (s.diagnostic? before).map Diagnostic.fault = s.fault? := by
  rw [diagnostic?, fault?]
  cases s.meaning <;> rfl

theorem map_collect {α : Type u} {β : Type v} {f : List Char → Segment → Option α} {g : α → β}
    {k : Segment → Option β} (h : ∀ before s, (f before s).map g = k s) (before : List Char)
    (ss : List Segment) : (collect f before ss).map g = ss.filterMap k := by
  induction ss generalizing before with
  | nil => rfl
  | cons s ss ih =>
    rw [collect, List.map_append, ih, List.filterMap_cons, ← h before s]
    cases f before s <;> rfl

end Segment

namespace Piece

def kind? : Piece → Option Kind
  | string _ => some .string
  | number _ _ => some .number
  | word letters => some (Kind.ofWord (String.ofList letters))
  | symbol s => some (.symbol s)
  | _ => none

def tag? (p : Piece) : Option (Kind × String) := p.kind?.map (·, String.ofList p.text)

theorem tag?_of_kind? {p : Piece} {kind : Kind} (h : p.kind? = some kind) :
    p.tag? = some (kind, String.ofList p.text) := by
  rw [tag?, h, Option.map_some]

theorem content?_number {whole fraction : List Char} (valid : (number whole fraction).Valid) :
    (number whole fraction).segment.content? =
      some (.number, String.ofList (number whole fraction).text,
        some (.number (Number.Decimal.ofDigits whole fraction).round)) := by
  rw [segment, Segment.content?, meaning_number valid]

variable {p : Piece}

theorem map_content? (valid : p.Valid) :
    p.segment.content?.map (fun c => (c.1, c.2.1)) = p.tag? := by
  cases p with
  | number whole fraction =>
    rw [content?_number valid]
    rfl
  | word letters =>
    rw [tag?, kind?, segment, Segment.content?, meaning]
    cases Kind.ofWord (String.ofList letters) <;> rfl
  | _ => rfl

theorem kind?_of_content? {kind : Kind} {lexeme : String} {literal : Option Literal}
    (valid : p.Valid) (h : p.segment.content? = some (kind, lexeme, literal)) :
    p.kind? = some kind ∧ lexeme.toList = p.text := by
  have seen := map_content? valid
  rw [h, Option.map_some, tag?, eq_comm, Option.map_eq_some_iff] at seen
  obtain ⟨found, here, same⟩ := seen
  cases same
  exact ⟨here, String.toList_ofList⟩

theorem exists_word_iff_kind? {kind : Kind} (h : p.kind? = some kind) :
    (∃ letters, p = word letters) ↔ kind.isKeyword ∨ kind = .identifier := by
  cases p with
  | word letters =>
    cases h
    rw [Kind.ofWord]
    split <;> simp [Kind.isKeyword]
  | _ => cases h <;> simp [Kind.isKeyword]

theorem eq_symbol_of_kind? {s : Symbol} (h : p.kind? = some (.symbol s)) : p = symbol s := by
  cases p with
  | symbol => cases h; rfl
  | word letters =>
    have := (exists_word_iff_kind? h).1 ⟨letters, rfl⟩
    simp [Kind.isKeyword] at this
  | _ => cases h

theorem exists_number_of_kind? (h : p.kind? = some .number) :
    ∃ whole fraction, p = number whole fraction := by
  cases p with
  | number whole fraction => exact ⟨whole, fraction, rfl⟩
  | word letters =>
    have := (exists_word_iff_kind? h).1 ⟨letters, rfl⟩
    simp [Kind.isKeyword] at this
  | _ => cases h

theorem mem_text_cases {kind : Kind} {c : Char} (valid : p.Valid) (h : p.kind? = some kind)
    (notString : ∀ body, p ≠ string body) (member : c ∈ p.text) :
    Alphabet.isWordChar c ∨ ∃ s : Symbol, c ∈ s.text := by
  cases p with
  | string body => exact absurd rfl (notString body)
  | number whole fraction =>
    have digit : ∀ d, d.isDigit → Alphabet.isWordChar d := fun d digit => by
      simp [Alphabet.isWordChar, digit]
    cases fraction with
    | nil => exact .inl (digit c (valid.1.2 c member))
    | cons f fraction =>
      rcases List.mem_append.1 member with inside | after
      · exact .inl (digit c (valid.1.2 c inside))
      · rcases List.mem_cons.1 after with rfl | inside
        · exact .inr ⟨.dot, List.mem_cons_self⟩
        · exact .inl (digit c (valid.2 c inside))
  | word letters =>
    cases letters with
    | nil => cases member
    | cons d letters =>
      rcases List.mem_cons.1 member with rfl | inside
      · exact .inl (Alphabet.isWordChar_of_isWordStart valid.1)
      · exact .inl (valid.2 c inside)
  | symbol s => exact .inr ⟨s, member⟩
  | _ => cases h

theorem not_mem_text {kind : Kind} {c : Char} (valid : p.Valid) (h : p.kind? = some kind)
    (notString : ∀ body, p ≠ string body) (notWord : Alphabet.isWordChar c = false)
    (notSign : ∀ s : Symbol, c ∉ s.text) : c ∉ p.text := by
  intro member
  rcases mem_text_cases valid h notString member with word | ⟨s, sign⟩
  · rw [notWord] at word
    contradiction
  · exact notSign s sign

end Piece

theorem contents_scan (source : String) :
    (scan source).tokens.map Token.content =
      (pieces source.toList).filterMap (·.segment.content?) ++ [(.endOfInput, "", none)] := by
  rw [scan_eq, List.map_append, Segment.map_collect Segment.map_token?, segments,
    List.filterMap_map]
  rfl

theorem tags_scan (source : String) :
    (scan source).tokens.map (fun t => (t.kind, t.lexeme)) =
      (pieces source.toList).filterMap Piece.tag? ++ [(.endOfInput, "")] := by
  have contents := congrArg (List.map fun c => (c.1, c.2.1)) (contents_scan source)
  rw [List.map_map, List.map_append, List.map_filterMap] at contents
  have read : ∀ p ∈ pieces source.toList, _ = p.tag? := fun p member =>
    Piece.map_content? ((fit_pieces source.toList).valid member)
  rw [← List.filterMap_congr read]
  exact contents

theorem faults_scan (source : String) :
    (scan source).errors.map Diagnostic.fault =
      (pieces source.toList).filterMap (·.segment.fault?) := by
  rw [scan_eq, Segment.map_collect Segment.map_diagnostic?, segments, List.filterMap_map]
  rfl

theorem scan_of_pieces {source : String} {ps : List Piece} (read : pieces source.toList = ps)
    (clean : ps.filterMap (·.segment.fault?) = []) :
    (scan source).isClean ∧ (scan source).tokens.map Token.content =
      ps.filterMap (·.segment.content?) ++ [(.endOfInput, "", none)] := by
  subst read
  rw [← faults_scan, List.map_eq_nil_iff] at clean
  exact ⟨List.isEmpty_iff.2 clean, contents_scan source⟩

theorem scan_piece {source : String} {p : Piece} {c : Kind × String × Option Literal}
    (valid : p.Valid) (content : p.segment.content? = some c) (text : source.toList = p.text) :
    (scan source).isClean ∧
      (scan source).tokens.map Token.content = [c, (.endOfInput, "", none)] := by
  have read := pieces_text_append valid .nil
  rw [List.append_nil, ← text, pieces] at read
  have clean : [p].filterMap (·.segment.fault?) = [] := by
    rw [List.filterMap_cons, Segment.fault?_of_content? content, List.filterMap_nil]
  have found := scan_of_pieces read clean
  rwa [List.filterMap_cons, content] at found

def Token.Scanned (t : Token) : Prop := t.kind ≠ .endOfInput ∧ ∃ source, t ∈ (scan source).tokens

/-- Wherever the piece is found, the token is, places apart. -/
structure Piece.Spells (p : Piece) (t : Token) : Prop where
  valid : p.Valid
  content : p.segment.content? = some t.content

variable {α : Type u} {f : Piece → Option α} {g : Token → α} {p : Piece} {t : Token}
  {ps : List Piece} {ts : List Token}

theorem spells_or_end_of_mem {source : String} (member : t ∈ (scan source).tokens) :
    (∃ p : Piece, p.Spells t) ∨ t.content = (.endOfInput, "", none) := by
  have listed : t.content ∈ (scan source).tokens.map Token.content := List.mem_map_of_mem member
  rw [contents_scan] at listed
  rcases List.mem_append.1 listed with inside | last
  · obtain ⟨p, found, content⟩ := List.mem_filterMap.1 inside
    exact .inl ⟨p, (fit_pieces source.toList).valid found, content⟩
  · exact .inr (List.mem_singleton.1 last)

theorem Token.Scanned.exists_spells (scanned : t.Scanned) : ∃ p : Piece, p.Spells t := by
  obtain ⟨proper, source, member⟩ := scanned
  exact (spells_or_end_of_mem member).resolve_right fun last => proper (congrArg Prod.fst last)

theorem exists_spells (scanned : ∀ t ∈ ts, t.Scanned) : ∃ ps, List.Forall₂ Piece.Spells ps ts := by
  induction ts with
  | nil => exact ⟨[], .nil⟩
  | cons t ts ih =>
    obtain ⟨here, later⟩ := List.forall_mem_cons.1 scanned
    obtain ⟨p, spells⟩ := here.exists_spells
    obtain ⟨ps, spelt⟩ := ih later
    exact ⟨p :: ps, .cons spells spelt⟩

namespace Piece

theorem Spells.of_token? {before : List Char} (valid : p.Valid)
    (token : p.segment.token? before = some t) : p.Spells t :=
  ⟨valid, by rw [← Segment.map_token? before, token, Option.map_some]⟩

theorem Spells.tag (spells : p.Spells t) : p.tag? = some (t.kind, t.lexeme) := by
  rw [← map_content? spells.valid, spells.content, Option.map_some, Token.content]

theorem Spells.meaning (spells : p.Spells t) : p.meaning = .token t.kind t.literal :=
  Segment.meaning_of_content? spells.content

theorem Spells.kind (spells : p.Spells t) : p.kind? = some t.kind :=
  (kind?_of_content? spells.valid spells.content).1

theorem Spells.text_eq (spells : p.Spells t) : p.text = t.lexeme.toList :=
  (kind?_of_content? spells.valid spells.content).2.symm

theorem Spells.exists_whole_iff (spells : p.Spells t) :
    (∃ whole, p = number whole []) ↔ t.kind = .number ∧ '.' ∉ t.lexeme.toList := by
  have kind := spells.kind
  rw [← spells.text_eq]
  constructor
  · rintro ⟨whole, rfl⟩
    refine ⟨(Option.some.inj kind).symm, fun member => ?_⟩
    have : '.'.isDigit := spells.valid.1.2 '.' member
    contradiction
  · rintro ⟨number, noPoint⟩
    rw [number] at kind
    obtain ⟨whole, fraction, rfl⟩ := exists_number_of_kind? kind
    cases fraction with
    | nil => exact ⟨whole, rfl⟩
    | cons => simp [text] at noPoint

end Piece

theorem filterMap_of_spells (read : ∀ p t, p.Spells t → f p = some (g t))
    (spells : List.Forall₂ Piece.Spells ps ts) : ps.filterMap f = ts.map g := by
  induction spells with
  | nil => rfl
  | cons here _ ih => rw [List.filterMap_cons, read _ _ here, ih, List.map_cons]

theorem filterMap_fault?_of_spells (spells : List.Forall₂ Piece.Spells ps ts) :
    ps.filterMap (·.segment.fault?) = [] := by
  induction spells with
  | nil => rfl
  | cons here _ ih => rw [List.filterMap_cons, Segment.fault?_of_content? here.content, ih]

end LoxLexer
