import LoxLexer.Position
import Mathlib.Data.List.DropRight

namespace LoxLexer

def lastLine (text : List Char) : List Char := text.rtakeWhile (· != '\n')

@[simp] theorem lastLine_nil : lastLine [] = [] := rfl

theorem lastLine_concat (text : List Char) (c : Char) :
    lastLine (text ++ [c]) = if c = '\n' then [] else lastLine text ++ [c] := by
  rw [lastLine, List.rtakeWhile_concat]
  by_cases h : c = '\n' <;> simp [lastLine, h]

theorem lastLine_append (a b : List Char) :
    lastLine (a ++ b) = if '\n' ∈ b then lastLine b else lastLine a ++ b := by
  induction b using List.reverseRecOn with
  | nil => simp
  | append_singleton b c ih =>
    rw [← List.append_assoc, lastLine_concat, lastLine_concat, ih]
    by_cases h : c = '\n'
    · simp [h]
    · by_cases inside : '\n' ∈ b <;> simp [h, inside, eq_comm]

theorem lastLine_eq_self {text : List Char} (h : '\n' ∉ text) : lastLine text = text := by
  have := lastLine_append [] text
  rwa [if_neg h, lastLine_nil, List.nil_append] at this

namespace Position

def after (text : List Char) : Position where
  offset := (String.ofList text).utf8ByteSize
  line := 1 + text.count '\n'
  column := (lastLine text).length

theorem after_nil : after [] = start := rfl

theorem after_concat (text : List Char) (c : Char) : after (text ++ [c]) = (after text).next c := by
  have size : (String.ofList (text ++ [c])).utf8ByteSize =
      (String.ofList text).utf8ByteSize + c.utf8Size := by
    simp [String.ofList_append]
  rw [after, size, lastLine_concat, List.count_append, next]
  by_cases h : c = '\n'
  · simp [after, h, Nat.add_assoc]
  · simp [after, h]

theorem advance_after (a b : List Char) : (after a).advance b = after (a ++ b) := by
  induction b generalizing a with
  | nil => simp
  | cons c b ih => rw [advance_cons, ← after_concat, ih, List.append_assoc, List.singleton_append]

theorem offset_after_append (a b : List Char) :
    (after (a ++ b)).offset = (after a).offset + (after b).offset := by
  simp [after]

theorem offset_after_cons (c : Char) (rest : List Char) :
    (after (c :: rest)).offset = c.utf8Size + (after rest).offset := by
  simp [after, String.ofList_cons]

theorem eq_of_offset_after_eq {a b a' b' : List Char} (whole : a ++ b = a' ++ b')
    (offset : (after a).offset = (after a').offset) : a = a' ∧ b = b' := by
  have grown : ∀ x y : List Char, (after (x ++ y)).offset = (after x).offset → y = [] := by
    intro x y same
    simpa [after] using same
  rcases List.append_eq_append_iff.1 whole with ⟨more, rfl, rfl⟩ | ⟨more, rfl, rfl⟩
  · simp [grown a more offset.symm]
  · simp [grown a' more offset]

end Position

end LoxLexer
