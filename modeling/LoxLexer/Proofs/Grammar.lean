import LoxLexer.Piece

/-!
The lexical grammar. A text is cut up from left to right, each time at the end of the longest
prefix that one of the rules matches; where no rule matches, one character is given up, or the
whole rest if it begins with a quote. Nothing here says how the cuts are found.
-/

namespace LoxLexer

structure Segment where
  text : List Char
  meaning : Meaning
  deriving DecidableEq

namespace Grammar

def Digits (text : List Char) : Prop := text ≠ [] ∧ ∀ d ∈ text, d.isDigit

def Word : List Char → Prop
  | [] => False
  | c :: rest => (Alphabet.isLetter c ∨ c = '_') ∧
      ∀ d ∈ rest, Alphabet.isLetter d ∨ d = '_' ∨ d.isDigit

def operators : List (List Char × Symbol) :=
  [(['('], .leftParen), ([')'], .rightParen), (['{'], .leftBrace), (['}'], .rightBrace),
   ([','], .comma), (['.'], .dot), (['-'], .minus), (['+'], .plus), ([';'], .semicolon),
   (['*'], .star), (['/'], .slash), (['!'], .bang), (['!', '='], .bangEqual), (['='], .equal),
   (['=', '='], .equalEqual), (['<'], .less), (['<', '='], .lessEqual), (['>'], .greater),
   (['>', '='], .greaterEqual)]

/-- The rules: a text that a rule matches as a whole has the meaning that the rule gives it. -/
inductive Matched : List Char → Meaning → Prop
  | blank : c ∈ [' ', '\t', '\r', '\n'] → Matched [c] .trivia
  | comment : '\n' ∉ body → Matched ('/' :: '/' :: body) .trivia
  | string : '"' ∉ body →
      Matched ('"' :: body ++ ['"']) (.token .string (some (.text (String.ofList body))))
  | integer : Digits whole →
      Matched whole (.token .number (some (.number (Number.Decimal.ofDigits whole []).round)))
  | fractional : Digits whole → Digits fraction →
      Matched (whole ++ '.' :: fraction)
        (.token .number (some (.number (Number.Decimal.ofDigits whole fraction).round)))
  | reserved : Word letters → Keyword.ofWord? (String.ofList letters) = some k →
      Matched letters (.token (.keyword k) none)
  | identifier : Word letters → Keyword.ofWord? (String.ofList letters) = none →
      Matched letters (.token .identifier (some (.text (String.ofList letters))))
  | symbol : (text, s) ∈ operators → Matched text (.token (.symbol s) none)

def Unmatched (text : List Char) : Prop := ∀ t m, Matched t m → ¬ t <+: text

def Longest (text t : List Char) : Prop :=
  ∀ u n, Matched u n → u <+: text → u.length ≤ t.length

inductive Leading : List Char → Segment → Prop
  | longest : Matched t m → t <+: text → Longest text t → Leading text ⟨t, m⟩
  | unclosed : Unmatched ('"' :: body) →
      Leading ('"' :: body) ⟨'"' :: body, .fault .unterminatedString⟩
  | stray : Unmatched (c :: rest) → c ≠ '"' →
      Leading (c :: rest) ⟨[c], .fault (.illegalCharacter c)⟩

inductive Segmented : List Char → List Segment → Prop
  | nil : Segmented [] []
  | cons {s : Segment} {rest : List Char} {ss : List Segment} :
      Leading (s.text ++ rest) s → Segmented rest ss → Segmented (s.text ++ rest) (s :: ss)

variable {text shorter body rest : List Char} {c : Char} {m : Meaning}
  {s : Segment} {ss xs ys : List Segment}

theorem mem_operators_iff {o : Symbol} : (text, o) ∈ operators ↔ text = o.text := by
  constructor
  · intro listed
    have same : ∀ entry ∈ operators, entry.1 = entry.2.text := by decide
    exact same _ listed
  · rintro rfl
    cases o <;> simp [operators, Symbol.text]

theorem matched_symbol (o : Symbol) : Matched o.text (.token (.symbol o) none) :=
  .symbol (mem_operators_iff.2 rfl)

theorem Matched.ne_nil (h : Matched text m) : text ≠ [] := by
  cases h with
  | integer digits => exact digits.1
  | reserved letterly _ =>
    rintro rfl
    exact letterly
  | identifier letterly _ =>
    rintro rfl
    exact letterly
  | symbol listed =>
    rw [mem_operators_iff.1 listed]
    exact Symbol.text_ne_nil _
  | _ => simp

theorem Unmatched.not_mem (h : Unmatched ('"' :: body)) : '"' ∉ body := by
  intro member
  obtain ⟨inside, after, rfl, free⟩ := List.eq_append_cons_of_mem member
  exact h _ _ (.string free) ⟨after, by simp⟩

theorem Longest.head?_of_comment (h : Longest ('/' :: '/' :: body ++ rest) ('/' :: '/' :: body))
    (free : '\n' ∉ body) (head : rest.head? = some c) : c = '\n' := by
  obtain ⟨rest, rfl⟩ := List.head?_eq_some_iff.1 head
  apply Classical.byContradiction
  intro notNewline
  have free' : '\n' ∉ body ++ [c] := by simp [free, Ne.symm notNewline]
  have longer := h _ _ (.comment free') ⟨rest, by simp⟩
  simp only [List.length_cons, List.length_append, List.length_nil] at longer
  omega

theorem Longest.head?_of_slash (h : Longest ('/' :: rest) ['/']) : rest.head? ≠ some '/' := by
  intro head
  obtain ⟨rest, rfl⟩ := List.head?_eq_some_iff.1 head
  have longer := h _ _ (.comment List.not_mem_nil) ⟨rest, rfl⟩
  simp only [List.length_cons, List.length_nil] at longer
  omega

theorem Leading.ne_nil (h : Leading text s) : s.text ≠ [] := by
  cases h with
  | longest matched _ _ => exact matched.ne_nil
  | _ => simp

theorem Leading.kind_ne_endOfInput {kind : Kind} {literal : Option Literal} (h : Leading text s)
    (token : s.meaning = .token kind literal) : kind ≠ .endOfInput := by
  rintro rfl
  cases h with
  | longest matched _ _ =>
    cases token
    cases matched
  | _ => cases token

theorem Leading.of_prefix (h : Leading text s) (short : shorter <+: text)
    (reach : s.text <+: shorter) : Leading shorter s := by
  cases h with
  | longest matched _ longest =>
    exact .longest matched reach fun u n h pre => longest u n h (pre.trans short)
  | unclosed unmatched =>
    rw [short.eq_of_length_le reach.length_le]
    exact .unclosed unmatched
  | stray unmatched notQuote =>
    obtain ⟨rest, rfl⟩ := reach
    exact .stray (fun u n h pre => unmatched u n h (pre.trans short)) notQuote

theorem Segmented.flatMap_text (h : Segmented text ss) : ss.flatMap Segment.text = text := by
  induction h with
  | nil => rfl
  | cons _ _ ih => rw [List.flatMap_cons, ih]

theorem Segmented.exists_leading (h : Segmented text ss) (member : s ∈ ss) :
    ∃ rest, Leading (s.text ++ rest) s := by
  induction h with
  | nil => cases member
  | @cons r rest ss lead _ ih =>
    rcases List.mem_cons.1 member with rfl | member
    · exact ⟨rest, lead⟩
    · exact ih member

theorem Segmented.split (h : Segmented text (xs ++ ys)) :
    Segmented (xs.flatMap Segment.text) xs ∧ Segmented (ys.flatMap Segment.text) ys := by
  induction xs generalizing text with
  | nil =>
    have whole := h.flatMap_text
    rw [List.nil_append] at h whole
    rw [whole]
    exact ⟨.nil, h⟩
  | cons s xs ih =>
    cases h with
    | cons lead tail =>
      obtain ⟨front, back⟩ := ih tail
      -- Only the front is shortened, so all there is to see is that its first segment stays.
      refine ⟨.cons (lead.of_prefix ?_ (List.prefix_append _ _)) front, back⟩
      rw [← tail.flatMap_text, List.prefix_append_right_inj, List.append_eq, List.flatMap_append]
      exact List.prefix_append _ _

end Grammar

end LoxLexer
