import LoxLexer.Proofs.Numeral

namespace LoxLexer

open Number

structure Token.Alike (t u : Token) : Prop where
  kind : t.kind = u.kind
  lexeme : t.lexeme = u.lexeme
  line : t.line = u.line
  span : t.span = u.span

variable {t u : Token} {ts us : List Token} {a b : String}

theorem Token.equal_iff : t.equal u ↔ t.Alike u ∧ Literal.equal? t.literal u.literal := by
  simp only [equal, Bool.and_eq_true, beq_iff_eq]
  constructor
  · rintro ⟨⟨⟨⟨kind, lexeme⟩, literal⟩, line⟩, span⟩
    exact ⟨⟨kind, lexeme, line, span⟩, literal⟩
  · rintro ⟨⟨kind, lexeme, line, span⟩, literal⟩
    exact ⟨⟨⟨⟨kind, lexeme⟩, literal⟩, line⟩, span⟩

theorem Number.Decimal.not_isNaN_round (d : Decimal) : d.round.isNaN = false :=
  (Decimal.rounds_value_iff.2 rfl).number

theorem Literal.equal_text (value : String) : (text value).equal (text value) := beq_self_eq_true _

theorem Literal.equal_round (d : Decimal) : (number d.round).equal (number d.round) := by
  rw [equal, Binary64.equal_self, d.not_isNaN_round, Bool.not_false]

theorem Piece.equal?_literal {p : Piece} {kind : Kind} {literal : Option Literal}
    (valid : p.Valid) (h : p.meaning = .token kind literal) : Literal.equal? literal literal := by
  cases p with
  | string body => cases h; exact Literal.equal_text _
  | number whole fraction =>
    rw [meaning_number valid] at h
    cases h
    exact Literal.equal_round _
  | word letters =>
    rw [meaning] at h
    split at h <;> cases h
    · exact Literal.equal_text _
    · rfl
  | symbol s => cases h; rfl
  | _ => cases h

theorem equal?_literal_of_mem (member : t ∈ (scan a).tokens) :
    Literal.equal? t.literal t.literal := by
  rcases spells_or_end_of_mem member with ⟨p, spells⟩ | last
  · exact Piece.equal?_literal spells.valid spells.meaning
  · rw [(Token.content_eq_iff.1 last).2.2]
    rfl

theorem Piece.Spells.lexeme_ne_empty {p : Piece} (spells : p.Spells t) : t.lexeme ≠ "" := by
  intro empty
  refine spells.valid.text_ne_nil ?_
  rw [spells.text_eq, empty]
  rfl

theorem content_eq_of_mem (first : t ∈ (scan a).tokens) (second : u ∈ (scan b).tokens)
    (same : t.lexeme = u.lexeme) : t.content = u.content := by
  rcases spells_or_end_of_mem first with ⟨p, p_spells⟩ | t_last
  · rcases spells_or_end_of_mem second with ⟨q, q_spells⟩ | u_last
    · have texts : p.text = q.text := by rw [p_spells.text_eq, q_spells.text_eq, same]
      obtain rfl := p_spells.valid.eq_of_text_eq q_spells.valid texts
      exact Option.some.inj (p_spells.content.symm.trans q_spells.content)
    · exact absurd (same.trans (Token.content_eq_iff.1 u_last).2.1) p_spells.lexeme_ne_empty
  · rcases spells_or_end_of_mem second with ⟨q, q_spells⟩ | u_last
    · exact absurd (same.symm.trans (Token.content_eq_iff.1 t_last).2.1) q_spells.lexeme_ne_empty
    · exact t_last.trans u_last.symm

theorem literal_eq_of_mem (first : t ∈ (scan a).tokens) (second : u ∈ (scan b).tokens)
    (same : t.lexeme = u.lexeme) : t.literal = u.literal :=
  congrArg (fun c => c.2.2) (content_eq_of_mem first second same)

theorem equal_iff_alike_of_mem (first : t ∈ (scan a).tokens) (second : u ∈ (scan b).tokens) :
    t.equal u ↔ t.Alike u := by
  rw [Token.equal_iff]
  refine and_iff_left_of_imp fun alike => ?_
  rw [← literal_eq_of_mem first second alike.lexeme]
  exact equal?_literal_of_mem first

theorem alike_iff_eq_of_mem (first : t ∈ (scan a).tokens) (second : u ∈ (scan b).tokens) :
    t.Alike u ↔ t = u := by
  constructor
  · intro alike
    exact Token.ext alike.kind alike.lexeme (literal_eq_of_mem first second alike.lexeme)
      alike.line alike.span
  · rintro rfl
    exact ⟨rfl, rfl, rfl, rfl⟩

theorem isEqv_iff_forall₂ {r : Token → Token → Bool} :
    ts.isEqv us r ↔ List.Forall₂ (fun t u => r t u) ts us := by
  induction ts generalizing us with
  | nil => cases us <;> simp
  | cons t ts ih => cases us <;> simp [List.isEqv_cons_cons, ih]

theorem forall₂_iff_of_mem {r s : Token → Token → Prop}
    (same : ∀ t ∈ ts, ∀ u ∈ us, (r t u ↔ s t u)) : List.Forall₂ r ts us ↔ List.Forall₂ s ts us := by
  rw [List.forall₂_iff_zip, List.forall₂_iff_zip]
  refine and_congr_right fun _ => forall₂_congr fun t u => forall_congr' fun member => ?_
  exact same t (List.of_mem_zip member).1 u (List.of_mem_zip member).2

theorem scan_equal_iff :
    (scan a).equal (scan b) ↔
      (scan a).errors = (scan b).errors ∧
        List.Forall₂ Token.Alike (scan a).tokens (scan b).tokens := by
  rw [Scan.equal, Scan.equalTokens, Bool.and_eq_true, isEqv_iff_forall₂, beq_iff_eq, and_comm]
  refine and_congr_right fun _ => forall₂_iff_of_mem fun t first u second => ?_
  exact equal_iff_alike_of_mem first second

theorem scan_equal_iff_eq : (scan a).equal (scan b) ↔ scan a = scan b := by
  have alike : List.Forall₂ Token.Alike (scan a).tokens (scan b).tokens ↔
      (scan a).tokens = (scan b).tokens := by
    rw [← List.forall₂_eq_eq_eq]
    exact forall₂_iff_of_mem fun t first u second => alike_iff_eq_of_mem first second
  rw [scan_equal_iff, alike, and_comm]
  exact Scan.ext_iff.symm

/-- Comparing scans goes by all fields but the literals, which the lexemes tell. -/
theorem scan_equal_sound :
    (∀ a b, (scan a).equal (scan b) ↔
      (scan a).errors = (scan b).errors ∧
        List.Forall₂ Token.Alike (scan a).tokens (scan b).tokens) ∧
    (∀ a b, (scan a).equal (scan b) → scan a = scan b) ∧
    Equivalence (fun a b : String => (scan a).equal (scan b) = true) ∧
    ∀ a b, ∀ t ∈ (scan a).tokens, ∀ u ∈ (scan b).tokens, t.lexeme = u.lexeme →
      t.kind = u.kind ∧ t.literal = u.literal := by
  refine ⟨fun _ _ => scan_equal_iff, fun _ _ => scan_equal_iff_eq.1, ?_, ?_⟩
  · simp only [scan_equal_iff_eq]
    exact eq_equivalence.comap scan
  · intro a b t first u second same
    have content := content_eq_of_mem first second same
    exact ⟨congrArg Prod.fst content, literal_eq_of_mem first second same⟩

theorem scan_equal_sound_on_zero :
    ((scan "0.0 @").equal (scan "0.0\t@") ∧ scan "0.0 @" = scan "0.0\t@") ∧
      (⟨.number, "0.0", some (.number (.ofBits 0)), 1, ⟨1, 4, 1, 2⟩⟩ : Token) ∈
        (scan "-0.0").tokens ∧
      ∀ t ∈ (scan "0.0 @").tokens, t.lexeme = "0.0" →
        t.kind = .number ∧ t.literal = some (.number (.ofBits 0)) :=
  have equal : (scan "0.0 @").equal (scan "0.0\t@") := by decide +kernel
  have member : (⟨.number, "0.0", some (.number (.ofBits 0)), 1, ⟨1, 4, 1, 2⟩⟩ : Token) ∈
      (scan "-0.0").tokens := by decide +kernel
  ⟨⟨equal, scan_equal_sound.2.1 _ _ equal⟩, member,
    fun t other same => scan_equal_sound.2.2.2 _ _ t other _ member same⟩

end LoxLexer
