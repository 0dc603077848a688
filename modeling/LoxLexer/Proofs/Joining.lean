import LoxLexer.Proofs.Content

namespace LoxLexer

/-- Neighbours that need something between them: a word before what could be the next character of
it, two numbers, a sign that is another symbol with an equals sign after it, and two slashes, which
begin a comment. -/
def Clash (t u : Token) : Prop :=
  (t.kind.isKeyword ∨ t.kind = .identifier) ∧
    (∃ c ∈ u.lexeme.toList.head?, Alphabet.isLetter c ∨ c = '_' ∨ c.isDigit) ∨
  t.kind = .number ∧ u.kind = .number ∨
  t.kind ∈ [.symbol .bang, .symbol .equal, .symbol .less, .symbol .greater] ∧
    u.kind ∈ [.symbol .equal, .symbol .equalEqual] ∨
  t.kind = .symbol .slash ∧ u.kind = .symbol .slash

def Fraction (t u v : Token) : Prop :=
  t.kind = .number ∧ '.' ∉ t.lexeme.toList ∧ u.kind = .symbol .dot ∧ v.kind = .number

def Glued (ts : List Token) : Prop :=
  (∃ t u, [t, u] <:+: ts ∧ Clash t u) ∨ ∃ t u v, [t, u, v] <:+: ts ∧ Fraction t u v

variable {p q : Piece} {t u v : Token} {ps qs : List Piece} {ts us : List Token} {c d : Char}
  {k : Kind} {tail rest : List Char}

theorem glued_cons : Glued (t :: ts) ↔
    ((∃ u us, ts = u :: us ∧ Clash t u) ∨ ∃ u v us, ts = u :: v :: us ∧ Fraction t u v) ∨
      Glued ts := by
  have pair : ∀ a b, [a, b] <:+: t :: ts ↔ (a = t ∧ ∃ us, ts = b :: us) ∨ [a, b] <:+: ts := by
    intro a b
    rw [List.infix_cons_iff, List.cons_prefix_cons]
    simp [List.IsPrefix, eq_comm]
  have triple : ∀ a b c, [a, b, c] <:+: t :: ts ↔
      (a = t ∧ ∃ us, ts = b :: c :: us) ∨ [a, b, c] <:+: ts := by
    intro a b c
    rw [List.infix_cons_iff, List.cons_prefix_cons]
    simp [List.IsPrefix, eq_comm]
  simp only [Glued, pair, triple]
  grind

namespace Piece

open Alphabet

theorem head_cases (valid : q.Valid) (kind : q.kind? = some k) (begins : q.text = c :: tail) :
    k = .string ∧ c = '"' ∨ k = .number ∧ c.isDigit ∨
      (k.isKeyword ∨ k = .identifier) ∧ isWordStart c ∨
      ∃ s, k = .symbol s ∧ s.text = c :: tail := by
  cases q with
  | string body =>
    cases kind
    obtain ⟨rfl, -⟩ := List.cons.inj begins
    exact .inl ⟨rfl, rfl⟩
  | number whole fraction =>
    cases kind
    obtain ⟨d, more, rfl⟩ := List.exists_cons_of_ne_nil valid.1.1
    have digit : d.isDigit := valid.1.2 d (by simp)
    have : d = c := by cases fraction <;> exact (List.cons.inj begins).1
    exact .inr (.inl ⟨rfl, this ▸ digit⟩)
  | word letters =>
    have sort := (exists_word_iff_kind? kind).1 ⟨letters, rfl⟩
    obtain rfl : letters = c :: tail := begins
    exact .inr (.inr (.inl ⟨sort, valid.1⟩))
  | symbol s =>
    cases kind
    exact .inr (.inr (.inr ⟨s, rfl, begins⟩))
  | _ => cases kind

def symbolsAt (d : Char) : List Kind :=
  (Symbol.all.filter fun s => s.text.head? == some d).map .symbol

theorem mem_symbolsAt : k ∈ symbolsAt d ↔ ∃ s, k = .symbol s ∧ s.text.head? = some d := by
  simp only [symbolsAt, List.mem_map, List.mem_filter, Symbol.mem_all, true_and, beq_iff_eq]
  exact exists_congr fun s => by rw [and_comm, eq_comm (a := k)]

theorem head_eq_iff (valid : q.Valid) (kind : q.kind? = some k) (begins : q.text = c :: tail)
    (sign : d ≠ '"' ∧ ¬ d.isDigit ∧ ¬ isWordStart d) : c = d ↔ k ∈ symbolsAt d := by
  rw [mem_symbolsAt]
  constructor
  · rintro rfl
    rcases head_cases valid kind begins with ⟨-, quote⟩ | ⟨-, digit⟩ | ⟨-, start⟩ | ⟨s, rfl, form⟩
    · exact absurd quote sign.1
    · exact absurd digit sign.2.1
    · exact absurd start sign.2.2
    · exact ⟨s, rfl, by rw [form, List.head?_cons]⟩
  · rintro ⟨s, rfl, head⟩
    rcases head_cases valid kind begins with ⟨⟨⟩, -⟩ | ⟨⟨⟩, -⟩ | ⟨⟨⟨⟩⟩ | ⟨⟨⟩⟩, -⟩ | ⟨s, ⟨⟩, form⟩
    rw [form] at head
    exact Option.some.inj head

theorem isDigit_head_iff (valid : q.Valid) (kind : q.kind? = some k)
    (begins : q.text = c :: tail) : c.isDigit ↔ k = .number := by
  constructor
  · intro digit
    rcases head_cases valid kind begins with ⟨-, rfl⟩ | ⟨number, -⟩ | ⟨-, start⟩ | ⟨s, -, form⟩
    · contradiction
    · exact number
    · have := toNat_of_isWordStart start
      have := toNat_of_isDigit digit
      omega
    · cases s <;> obtain ⟨rfl, -⟩ := List.cons.inj form <;> contradiction
  · rintro rfl
    rcases head_cases valid kind begins with ⟨⟨⟩, -⟩ | ⟨-, digit⟩ | ⟨⟨⟨⟩⟩ | ⟨⟨⟩⟩, -⟩ | ⟨s, ⟨⟩, -⟩
    exact digit

theorem takes_iff_clash (left : p.Spells t) (right : q.Spells u) (begins : q.text = c :: tail) :
    p.takes c ↔ Clash t u := by
  have kind := left.kind
  have head : (∃ c ∈ u.lexeme.toList.head?, isLetter c ∨ c = '_' ∨ c.isDigit) ↔ isWordChar c := by
    rw [← right.text_eq, begins, isWordChar_iff]
    simp
  rw [Clash, head]
  cases p with
  | string body =>
    have : t.kind = .string := (Option.some.inj kind).symm
    simp [takes, this, Kind.isKeyword]
  | number whole fraction =>
    have : t.kind = .number := (Option.some.inj kind).symm
    simp [takes, this, Kind.isKeyword, isDigit_head_iff right.valid right.kind begins]
  | word letters =>
    have sort := (exists_word_iff_kind? kind).1 ⟨letters, rfl⟩
    generalize t.kind = k at sort
    cases k <;> simp_all [takes, Kind.isKeyword]
  | symbol s =>
    have : t.kind = .symbol s := (Option.some.inj kind).symm
    have slash : c = '/' ↔ u.kind = .symbol .slash :=
      (head_eq_iff right.valid right.kind begins (by simp [isWordStart, not_isLetter])).trans
        List.mem_singleton
    have equal : c = '=' ↔ u.kind ∈ [.symbol .equal, .symbol .equalEqual] :=
      head_eq_iff right.valid right.kind begins (by simp [isWordStart, not_isLetter])
    rw [this, ← equal, ← slash]
    cases s <;> simp [takes, Symbol.withEqual?, Kind.isKeyword]
  | _ => cases kind

theorem any_isDigit_head_iff (spells : List.Forall₂ Spells qs us) :
    (qs.flatMap text).head?.any Char.isDigit ↔ ∃ v vs, us = v :: vs ∧ v.kind = .number := by
  cases spells with
  | nil => simp
  | @cons q v _ _ here later =>
    obtain ⟨c, tail, begins⟩ := List.exists_cons_of_ne_nil here.valid.text_ne_nil
    rw [List.flatMap_cons, begins]
    simp [isDigit_head_iff here.valid here.kind begins]

theorem pointed_iff (spells : List.Forall₂ Spells qs us) :
    pointed (qs.flatMap text) ↔
      ∃ u v vs, us = u :: v :: vs ∧ u.kind = .symbol .dot ∧ v.kind = .number := by
  cases spells with
  | nil => simp [pointed]
  | @cons q u qs us here later =>
    by_cases dot : u.kind = .symbol .dot
    · have kind := here.kind
      rw [dot] at kind
      obtain rfl := eq_symbol_of_kind? kind
      rw [List.flatMap_cons]
      refine (Bool.eq_iff_iff.1 (pointed_cons (qs.flatMap text))).trans ?_
      rw [any_isDigit_head_iff later]
      simp [dot]
    · obtain ⟨c, tail, begins⟩ := List.exists_cons_of_ne_nil here.valid.text_ne_nil
      have sign : c = '.' ↔ u.kind = .symbol .dot :=
        (head_eq_iff here.valid here.kind begins (by simp [isWordStart, not_isLetter])).trans
          List.mem_singleton
      rw [List.flatMap_cons, begins]
      simp [pointed, sign, dot]

theorem ends_iff (here : p.Spells t) (later : List.Forall₂ Spells qs us) :
    p.Ends (qs.flatMap text) ↔
      ¬ ((∃ u vs, us = u :: vs ∧ Clash t u) ∨ ∃ u v vs, us = u :: v :: vs ∧ Fraction t u v) := by
  rw [not_or]
  constructor
  · intro ends
    constructor
    · rintro ⟨u, vs, rfl, clash⟩
      cases later with
      | @cons q _ _ _ next _ =>
        obtain ⟨c, tail, begins⟩ := List.exists_cons_of_ne_nil next.valid.text_ne_nil
        have stop := ends.character c (by simp [begins])
        rw [(takes_iff_clash here next begins).2 clash] at stop
        cases stop
    · rintro ⟨u, v, vs, rfl, number, noPoint, dot, after⟩
      obtain ⟨whole, rfl⟩ := here.exists_whole_iff.2 ⟨number, noPoint⟩
      have stop := ends.fraction whole rfl
      rw [(pointed_iff later).2 ⟨u, v, vs, rfl, dot, after⟩] at stop
      cases stop
  · rintro ⟨apart, noFraction⟩
    constructor
    · intro c head
      cases later with
      | nil => cases head
      | @cons q u _ _ next _ =>
        obtain ⟨d, tail, begins⟩ := List.exists_cons_of_ne_nil next.valid.text_ne_nil
        obtain rfl : d = c := by simpa [begins] using head
        refine Bool.eq_false_iff.2 fun takes => apart ⟨u, _, rfl, ?_⟩
        exact (takes_iff_clash here next begins).1 takes
    · intro whole number
      refine Bool.eq_false_iff.2 fun point => noFraction ?_
      obtain ⟨u, v, vs, rfl, dot, after⟩ := (pointed_iff later).1 point
      obtain ⟨kind, noPoint⟩ := here.exists_whole_iff.1 ⟨whole, number⟩
      exact ⟨u, v, vs, rfl, kind, noPoint, dot, after⟩

end Piece

theorem fit_iff_not_glued (spells : List.Forall₂ Piece.Spells ps ts) : Fit ps ↔ ¬ Glued ts := by
  induction spells with
  | nil => simp [Fit, Glued]
  | cons here later ih =>
    rw [glued_cons, not_or, ← Piece.ends_iff here later, ← ih]
    exact and_iff_right here.valid

theorem text_of_spells (spells : List.Forall₂ Piece.Spells ps ts) :
    ps.flatMap Piece.text = (String.join (ts.map Token.lexeme)).toList := by
  induction spells with
  | nil => rfl
  | cons here _ ih =>
    rw [List.flatMap_cons, List.map_cons, String.join_cons, String.toList_append, ih, here.text_eq]

theorem length_lexemes_add_le (valid : ∀ q ∈ qs, q.Valid) :
    ((qs.filterMap Piece.tag?).flatMap (·.2.toList)).length + qs.countP (·.kind?.isNone) ≤
      (qs.flatMap Piece.text).length := by
  induction qs with
  | nil => simp
  | cons q qs ih =>
    obtain ⟨here, later⟩ := List.forall_mem_cons.1 valid
    have some := List.length_pos_iff.2 here.text_ne_nil
    have := ih later
    rw [List.flatMap_cons, List.length_append]
    cases kind : q.kind? with
    | none =>
      rw [List.filterMap_cons_none (by rw [Piece.tag?, kind]; rfl),
        List.countP_cons_of_pos (by rw [kind]; rfl)]
      omega
    | some k =>
      rw [List.filterMap_cons_some (Piece.tag?_of_kind? kind), List.flatMap_cons, List.length_append,
        List.countP_cons_of_neg (by simp [kind]), String.toList_ofList]
      omega

theorem eq_of_tags (spells : List.Forall₂ Piece.Spells ps ts) (valid : ∀ q ∈ qs, q.Valid)
    (proper : ∀ q ∈ qs, q.kind?.isSome)
    (same : qs.filterMap Piece.tag? = ts.map fun t => (t.kind, t.lexeme)) : qs = ps := by
  induction spells generalizing qs with
  | nil =>
    cases qs with
    | nil => rfl
    | cons q qs =>
      obtain ⟨k, kind⟩ := Option.isSome_iff_exists.1 (proper q List.mem_cons_self)
      simp [Piece.tag?, kind] at same
  | @cons p t ps ts here _ ih =>
    cases qs with
    | nil => cases same
    | cons q qs =>
      obtain ⟨validHere, validLater⟩ := List.forall_mem_cons.1 valid
      obtain ⟨properHere, properLater⟩ := List.forall_mem_cons.1 proper
      obtain ⟨k, kind⟩ := Option.isSome_iff_exists.1 properHere
      rw [List.filterMap_cons_some (Piece.tag?_of_kind? kind), List.map_cons] at same
      obtain ⟨head, tail⟩ := List.cons.inj same
      have text : q.text = p.text := by
        rw [here.text_eq, ← (Prod.mk.inj head).2, String.toList_ofList]
      rw [validHere.eq_of_text_eq here.valid text, ih validLater properLater tail]

theorem pieces_eq_of_tags (spells : List.Forall₂ Piece.Spells ps ts)
    (same : (pieces (ps.flatMap Piece.text)).filterMap Piece.tag? =
      ts.map fun t => (t.kind, t.lexeme)) : pieces (ps.flatMap Piece.text) = ps := by
  have valid : ∀ q ∈ pieces (ps.flatMap Piece.text), q.Valid := fun _ => (fit_pieces _).valid
  have bound := length_lexemes_add_le valid
  have lexemes : (ts.map fun t => (t.kind, t.lexeme)).flatMap (·.2.toList) =
      ps.flatMap Piece.text := by
    rw [text_of_spells spells, String.toList_join, List.flatMap_map, List.flatMap_map]
  rw [same, lexemes, flatMap_text_pieces] at bound
  -- The lexemes alone are as long as the text, so nothing is left for a piece that is no token.
  have all : (pieces (ps.flatMap Piece.text)).countP (·.kind?.isNone) = 0 := by omega
  refine eq_of_tags spells valid (fun q member => ?_) same
  simpa [Option.isSome_iff_ne_none] using List.countP_eq_zero.1 all q member

/-- Tokens of any texts, written out with nothing between them, are found again with nothing wrong
exactly if no neighbours clash and no three of them read as one number. -/
theorem scan_join_iff (scanned : ∀ t ∈ ts, t.Scanned) :
    ((scan (String.join (ts.map Token.lexeme))).errors = [] ∧
      (scan (String.join (ts.map Token.lexeme))).tokens.map (fun t => (t.kind, t.lexeme)) =
        ts.map (fun t => (t.kind, t.lexeme)) ++ [(.endOfInput, "")]) ↔ ¬ Glued ts := by
  obtain ⟨ps, spells⟩ := exists_spells scanned
  have whole := text_of_spells spells
  rw [← fit_iff_not_glued spells, tags_scan, ← whole, List.append_left_inj]
  constructor
  · rintro ⟨-, same⟩
    exact (pieces_eq_iff.1 (pieces_eq_of_tags spells same)).1
  · intro fit
    constructor
    · apply List.map_eq_nil_iff.1
      rw [faults_scan, ← whole, fit.pieces_eq, filterMap_fault?_of_spells spells]
    · rw [fit.pieces_eq, filterMap_of_spells (fun _ _ here => here.tag) spells]

theorem scan_join_iff_fraction_point_number :
    (∀ t ∈ ([⟨.number, "1.5", some (.number (.ofBits 0x3ff8000000000000)), 1, ⟨0, 3, 1, 1⟩⟩,
        ⟨.symbol .dot, ".", none, 1, ⟨1, 2, 1, 2⟩⟩,
        ⟨.number, "2", some (.number (.ofBits 0x4000000000000000)), 3, ⟨2, 3, 3, 1⟩⟩] : List Token),
      t.Scanned) ∧
      ¬ Glued [⟨.number, "1.5", some (.number (.ofBits 0x3ff8000000000000)), 1, ⟨0, 3, 1, 1⟩⟩,
        ⟨.symbol .dot, ".", none, 1, ⟨1, 2, 1, 2⟩⟩,
        ⟨.number, "2", some (.number (.ofBits 0x4000000000000000)), 3, ⟨2, 3, 3, 1⟩⟩] := by
  have fraction : (⟨.number, "1.5", some (.number (.ofBits 0x3ff8000000000000)), 1,
      ⟨0, 3, 1, 1⟩⟩ : Token).Scanned := ⟨by decide, "1.5", by decide +kernel⟩
  have point : (⟨.symbol .dot, ".", none, 1, ⟨1, 2, 1, 2⟩⟩ : Token).Scanned :=
    ⟨by decide, "x.", by decide +kernel⟩
  have number : (⟨.number, "2", some (.number (.ofBits 0x4000000000000000)), 3,
      ⟨2, 3, 3, 1⟩⟩ : Token).Scanned := ⟨by decide, "\n\n2.", by decide +kernel⟩
  have scanned := List.forall_mem_cons.2
    ⟨fraction, List.forall_mem_cons.2 ⟨point, List.forall_mem_singleton.2 number⟩⟩
  exact ⟨scanned, (scan_join_iff scanned).1 (by decide +kernel)⟩

end LoxLexer
