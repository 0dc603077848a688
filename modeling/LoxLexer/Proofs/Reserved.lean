import LoxLexer.Proofs.Content

namespace LoxLexer

open Grammar

namespace Kind

variable {word : String} {kind : Kind}

theorem map_keyword_eq_some_iff :
    (Keyword.ofWord? word).map keyword = some kind ↔ kind.isKeyword ∧ ofWord word = kind := by
  rw [ofWord]
  cases Keyword.ofWord? word with
  | none =>
    refine iff_of_false (by simp) ?_
    rintro ⟨reserved, rfl⟩
    cases reserved
  | some k =>
    refine ⟨?_, fun h => congrArg some h.2⟩
    rintro ⟨⟩
    exact ⟨rfl, rfl⟩

theorem ofWord_eq_identifier_iff : ofWord word = identifier ↔ Keyword.ofWord? word = none := by
  rw [ofWord]
  cases Keyword.ofWord? word <;> simp

end Kind

theorem Piece.valid_word (k : Keyword) : (Piece.word k.word.toList).Valid := by
  have letterly : ∀ k ∈ Keyword.all,
      k.word.toList ≠ [] ∧ k.word.toList.all Alphabet.isWordStart := by
    decide +kernel
  obtain ⟨nonempty, starts⟩ := letterly k k.mem_all
  obtain ⟨c, rest, text⟩ := List.exists_cons_of_ne_nil nonempty
  rw [text, List.all_cons, Bool.and_eq_true, List.all_eq_true] at starts
  rw [text]
  exact ⟨starts.1, fun d member => Alphabet.isWordChar_of_isWordStart (starts.2 d member)⟩

theorem Keyword.toLower_name (k : Keyword) : k.name.toLower = k.word := by
  have lower : ∀ k ∈ all, k.name.toLower = k.word := by decide +kernel
  exact lower k k.mem_all

variable {p : Piece} {t : Token} {kind : Kind} {source : String}

namespace Piece

theorem content?_word (lexeme : String) :
    (word lexeme.toList).segment.content? =
      some (Kind.ofWord lexeme, lexeme,
        if Kind.ofWord lexeme = .identifier then some (.text lexeme) else none) := by
  have spelt : String.ofList (word lexeme.toList).text = lexeme := String.ofList_toList
  simp only [Segment.content?, segment, meaning, String.ofList_toList, spelt]
  cases Kind.ofWord lexeme <;> rfl

theorem Spells.content_of_word {letters : List Char} (spells : (word letters).Spells t) :
    t.content = (Kind.ofWord t.lexeme, t.lexeme,
      if Kind.ofWord t.lexeme = .identifier then some (.text t.lexeme) else none) := by
  have text : letters = t.lexeme.toList := spells.text_eq
  have content := spells.content
  rw [text, content?_word] at content
  exact (Option.some.inj content).symm

theorem Spells.kind_of_word {letters : List Char} (spells : (word letters).Spells t) :
    t.kind = Kind.ofWord t.lexeme :=
  (Token.content_eq_iff.1 spells.content_of_word).1

theorem Spells.eq_word_of_reserved (spells : p.Spells t) {k : Keyword}
    (reserved : Keyword.ofWord? t.lexeme = some k) : p = word t.lexeme.toList := by
  have same : k.word = t.lexeme := Keyword.ofWord?_eq_some_iff.1 reserved
  refine spells.valid.eq_of_text_eq (same ▸ valid_word k) ?_
  rw [spells.text_eq]
  rfl

theorem Spells.map_keyword_eq_some_iff (spells : p.Spells t) :
    (Keyword.ofWord? t.lexeme).map Kind.keyword = some kind ↔ t.kind = kind ∧ kind.isKeyword := by
  constructor
  · intro found
    obtain ⟨k, reserved, -⟩ := Option.map_eq_some_iff.1 found
    obtain rfl := spells.eq_word_of_reserved reserved
    obtain ⟨isKeyword, same⟩ := Kind.map_keyword_eq_some_iff.1 found
    exact ⟨spells.kind_of_word.trans same, isKeyword⟩
  · rintro ⟨rfl, isKeyword⟩
    obtain ⟨letters, rfl⟩ := (exists_word_iff_kind? spells.kind).2 (.inl isKeyword)
    exact Kind.map_keyword_eq_some_iff.2 ⟨isKeyword, spells.kind_of_word.symm⟩

theorem Spells.of_identifier (spells : p.Spells t) (identifier : t.kind = .identifier) :
    t.text? = some t.lexeme ∧ Keyword.ofWord? t.lexeme = none := by
  obtain ⟨letters, rfl⟩ := (exists_word_iff_kind? spells.kind).2 (.inr identifier)
  have word : Kind.ofWord t.lexeme = .identifier := spells.kind_of_word.symm.trans identifier
  have content := spells.content_of_word
  rw [word, if_pos rfl, Token.content_eq_iff] at content
  obtain ⟨-, -, literal⟩ := content
  exact ⟨by rw [Token.text?, literal], Kind.ofWord_eq_identifier_iff.1 word⟩

end Piece

theorem map_keyword_eq_some_iff_of_mem (member : t ∈ (scan source).tokens) :
    (Keyword.ofWord? t.lexeme).map Kind.keyword = some kind ↔ t.kind = kind ∧ kind.isKeyword := by
  rcases spells_or_end_of_mem member with ⟨p, spells⟩ | last
  · exact spells.map_keyword_eq_some_iff
  · obtain ⟨ends, lexeme, -⟩ := Token.content_eq_iff.1 last
    refine iff_of_false ?_ ?_
    · rw [lexeme]
      intro found
      cases found
    · rintro ⟨rfl, isKeyword⟩
      rw [ends] at isKeyword
      cases isKeyword

theorem scan_word (k : Keyword) :
    (scan k.word).isClean ∧ (scan k.word).tokens.map Token.content =
      [(.keyword k, k.word, none), (.endOfInput, "", none)] := by
  have found : Kind.ofWord k.word = .keyword k := by
    rw [Kind.ofWord, Keyword.ofWord?_eq_some_iff.2 rfl]
  have content := Piece.content?_word k.word
  rw [found, if_neg (by simp)] at content
  exact scan_piece (Piece.valid_word k) content rfl

theorem keyword_iff_name {word : String} :
    (Keyword.ofWord? word).map Kind.keyword = some kind ↔
      kind.isKeyword ∧ word = kind.name.toLower := by
  constructor
  · intro found
    obtain ⟨k, reserved, rfl⟩ := Option.map_eq_some_iff.1 found
    rw [← Keyword.ofWord?_eq_some_iff.1 reserved]
    exact ⟨rfl, k.toLower_name.symm⟩
  · rintro ⟨isKeyword, rfl⟩
    cases kind with
    | keyword k =>
      rw [Kind.name, k.toLower_name, Keyword.ofWord?_eq_some_iff.2 rfl, Option.map_some]
    | _ => cases isKeyword

theorem keyword_iff_scan {word : String} :
    (Keyword.ofWord? word).map Kind.keyword = some kind ↔
      (scan word).isClean ∧ kind.isKeyword ∧
        (scan word).tokens.map Token.content = [(kind, word, none), (.endOfInput, "", none)] := by
  constructor
  · intro found
    obtain ⟨k, reserved, rfl⟩ := Option.map_eq_some_iff.1 found
    obtain rfl := Keyword.ofWord?_eq_some_iff.1 reserved
    obtain ⟨clean, tokens⟩ := scan_word k
    exact ⟨clean, rfl, tokens⟩
  · rintro ⟨-, isKeyword, tokens⟩
    obtain ⟨t, member, content⟩ : ∃ t ∈ (scan word).tokens, t.content = (kind, word, none) := by
      rw [← List.mem_map, tokens]
      exact List.mem_cons_self
    obtain ⟨rfl, rfl, -⟩ := Token.content_eq_iff.1 content
    exact (map_keyword_eq_some_iff_of_mem member).2 ⟨rfl, isKeyword⟩

/-- The table, the names of the kinds and the scans of all texts know the same reserved words. -/
theorem reserved_words_agree :
    (∀ (word : String) (kind : Kind),
      ((Keyword.ofWord? word).map Kind.keyword = some kind ↔
        (scan word).isClean ∧ kind.isKeyword ∧
          (scan word).tokens.map Token.content = [(kind, word, none), (.endOfInput, "", none)]) ∧
      ((Keyword.ofWord? word).map Kind.keyword = some kind ↔
        kind.isKeyword ∧ word = kind.name.toLower)) ∧
    ∀ source, ∀ t ∈ (scan source).tokens,
      (∀ kind, t.kind = kind ∧ kind.isKeyword ↔
        (Keyword.ofWord? t.lexeme).map Kind.keyword = some kind) ∧
      (t.kind = .identifier → t.text? = some t.lexeme ∧ Keyword.ofWord? t.lexeme = none) := by
  refine ⟨fun word kind => ⟨keyword_iff_scan, keyword_iff_name⟩, fun source t member => ⟨?_, ?_⟩⟩
  · exact fun _ => (map_keyword_eq_some_iff_of_mem member).symm
  · intro identifier
    have scanned : t.Scanned := ⟨by simp [identifier], source, member⟩
    obtain ⟨p, spells⟩ := scanned.exists_spells
    exact spells.of_identifier identifier

theorem reserved_words_agree_on_while :
    ((Keyword.ofWord? "while").map Kind.keyword = some (.keyword .while) ∧
      "while" = (Kind.keyword .while).name.toLower ∧ (scan "while").isClean) ∧
    (⟨.identifier, "While", some (.text "While"), 1, ⟨6, 11, 1, 7⟩⟩ : Token) ∈
        (scan "while While").tokens ∧ Keyword.ofWord? "While" = none :=
  have found : (Keyword.ofWord? "while").map Kind.keyword = some (.keyword .while) := by decide
  have member : (⟨.identifier, "While", some (.text "While"), 1, ⟨6, 11, 1, 7⟩⟩ : Token) ∈
      (scan "while While").tokens := by decide +kernel
  have agree := reserved_words_agree.1 "while" (.keyword .while)
  ⟨⟨found, (agree.2.1 found).2, (agree.1.1 found).1⟩,
    member, ((reserved_words_agree.2 "while While" _ member).2 rfl).2⟩

end LoxLexer
