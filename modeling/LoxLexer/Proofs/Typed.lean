import LoxLexer.Line
import Mathlib.Data.List.Basic

namespace LoxLexer.Line

def encode (text : List Char) : List UInt8 := text.flatMap String.utf8EncodeChar

@[simp] theorem encode_nil : encode [] = [] := rfl

@[simp] theorem encode_append (a b : List Char) : encode (a ++ b) = encode a ++ encode b :=
  List.flatMap_append

theorem encode_eq_nil_iff {text : List Char} : encode text = [] ↔ text = [] := by
  cases text with
  | nil => simp
  | cons c text => simp [encode, String.utf8EncodeChar_ne_nil]

theorem toByteArray_encode (text : List Char) :
    (encode text).toByteArray = (String.ofList text).toByteArray := by
  rw [← String.utf8Encode_toList, String.toList_ofList]
  rfl

theorem decode?_eq_some_iff {bytes : List UInt8} {text : String} :
    decode? bytes = some text ↔ bytes = encode text.toList := by
  rw [decode?, String.fromUTF8?]
  constructor
  · intro decoded
    split at decoded
    · cases decoded
      apply List.toByteArray_inj.1
      rw [toByteArray_encode, String.ofList_toList]
      rfl
    · cases decoded
  · rintro rfl
    have same := toByteArray_encode text.toList
    rw [String.ofList_toList] at same
    rw [dif_pos (same ▸ text.isValidUTF8), Option.some.injEq, ← String.toByteArray_inj]
    exact same

theorem toNat_eq_of_mem_utf8EncodeChar {c : Char} {b : UInt8} (ascii : b.toNat < 128)
    (h : b ∈ String.utf8EncodeChar c) : c.val.toNat = b.toNat := by
  rw [String.utf8EncodeChar] at h
  split at h
  · next small =>
    rw [List.mem_singleton.1 h, UInt8.toNat_ofNat_of_lt' (Nat.lt_of_le_of_lt small (by decide))]
  -- In a longer code each byte is marked by its upper bits.
  · have wide : ∀ n, 128 ≤ n → n < 256 → b ≠ UInt8.ofNat n := by
      rintro n low high rfl
      rw [UInt8.toNat_ofNat_of_lt' high] at ascii
      omega
    split at h
    · simp only [List.mem_cons, List.not_mem_nil, or_false] at h
      rcases h with h | h <;> exact absurd h (wide _ (by omega) (by omega))
    split at h
    · simp only [List.mem_cons, List.not_mem_nil, or_false] at h
      rcases h with h | h | h <;> exact absurd h (wide _ (by omega) (by omega))
    · simp only [List.mem_cons, List.not_mem_nil, or_false] at h
      rcases h with h | h | h | h <;> exact absurd h (wide _ (by omega) (by omega))

theorem mem_encode {text : List Char} {c : Char} {b : UInt8} (ascii : b.toNat < 128)
    (code : b.toNat = c.val.toNat) (h : b ∈ encode text) : c ∈ text := by
  obtain ⟨d, member, inside⟩ := List.mem_flatMap.1 h
  have same := toNat_eq_of_mem_utf8EncodeChar ascii inside
  rw [code] at same
  rwa [← Char.ext (UInt32.toNat_inj.1 same)]

theorem not_mem_of_encode {text : List Char} (h : lineFeed ∉ encode text) : '\n' ∉ text :=
  fun member => h (List.mem_flatMap.2 ⟨'\n', member, List.mem_singleton_self lineFeed⟩)

theorem not_mem_encode {text : List Char} (h : '\n' ∉ text) : lineFeed ∉ encode text :=
  fun member => h (mem_encode (by decide) rfl member)

section Lines

variable {α : Type u} [DecidableEq α]

theorem line_induction (feed : α) {P : List α → Prop} (last : ∀ line, feed ∉ line → P line)
    (more : ∀ line rest, feed ∉ line → P rest → P (line ++ feed :: rest)) (text : List α) :
    P text := by
  induction size : text.length using Nat.strongRecOn generalizing text with
  | ind n ih =>
    by_cases h : feed ∈ text
    · obtain ⟨line, rest, rfl, free⟩ := List.eq_append_cons_of_mem h
      have shorter : rest.length < n := by
        rw [← size, List.length_append, List.length_cons]
        omega
      exact more line rest free (ih _ shorter rest rfl)
    · exact last text h

def withoutEnd (sign : α) (line : List α) : List α :=
  if line.getLast? = some sign then line.dropLast else line

/-- Each `feed` ends a line and takes one `ret` before it along. What follows the last `feed` is a line
if there is anything, and keeps all of it. -/
def divide (feed ret : α) (text : List α) : List (List α) :=
  let parts := text.splitOn feed
  parts.dropLast.map (withoutEnd ret) ++ (parts.getLast?.filter (· ≠ [])).toList

variable {feed : α} {line : List α}

theorem divide_append (h : feed ∉ line) (ret : α) (rest : List α) :
    divide feed ret (line ++ feed :: rest) = withoutEnd ret line :: divide feed ret rest := by
  rw [divide, divide, List.splitOn_append_cons_self_of_not_mem h]
  have := List.splitOn_ne_nil feed rest
  simp [List.dropLast_cons_of_ne_nil this, List.getLast?_cons_of_ne_nil this]

theorem divide_of_not_mem (h : feed ∉ line) (ret : α) :
    divide feed ret line = if line = [] then [] else [line] := by
  rw [divide, List.splitOn_eq_singleton h]
  split <;> simp_all

theorem not_mem_withoutEnd (h : feed ∉ line) (ret : α) : feed ∉ withoutEnd ret line := by
  rw [withoutEnd]
  split
  · exact fun member => h (List.dropLast_subset line member)
  · exact h

theorem not_mem_of_mem_divide (ret : α) {text : List α} (h : line ∈ divide feed ret text) :
    feed ∉ line := by
  induction text using line_induction feed with
  | last only free =>
    rw [divide_of_not_mem free] at h
    split at h
    · cases h
    · rwa [List.mem_singleton.1 h]
  | more first rest free ih =>
    rw [divide_append free] at h
    rcases List.mem_cons.1 h with rfl | later
    · exact not_mem_withoutEnd free ret
    · exact ih later

end Lines

variable {bytes : List UInt8}

theorem cut_append (h : lineFeed ∉ bytes) (rest : List UInt8) :
    cut (bytes ++ lineFeed :: rest) = (bytes ++ [lineFeed]) :: cut rest := by
  induction bytes with
  | nil => simp [cut]
  | cons b bytes ih =>
    obtain ⟨here, later⟩ := not_or.1 (mt List.mem_cons.2 h)
    rw [List.cons_append, cut, if_neg (Ne.symm here), ih later]
    rfl

theorem cut_of_not_mem (h : lineFeed ∉ bytes) : cut bytes = if bytes = [] then [] else [bytes] := by
  induction bytes with
  | nil => rfl
  | cons b bytes ih =>
    obtain ⟨here, later⟩ := not_or.1 (mt List.mem_cons.2 h)
    rw [cut, if_neg (Ne.symm here), ih later]
    cases bytes <;> rfl

theorem content_append (line : List UInt8) :
    content (line ++ [lineFeed]) = withoutEnd carriageReturn line := by
  simp [content, withoutEnd]

theorem content_of_not_mem (h : lineFeed ∉ bytes) : content bytes = bytes := by
  rw [content, if_neg]
  intro last
  exact h (List.mem_of_getLast? last)

theorem map_content_cut (bytes : List UInt8) :
    (cut bytes).map content = divide lineFeed carriageReturn bytes := by
  induction bytes using line_induction lineFeed with
  | last line h =>
    rw [cut_of_not_mem h, divide_of_not_mem h]
    split
    · rfl
    · rw [List.map_singleton, content_of_not_mem h]
  | more line rest h ih =>
    rw [cut_append h, divide_append h, List.map_cons, ih, content_append]

def withoutReturn (line : List Char) : List Char :=
  if line.getLast? = some '\r' then line.dropLast else line

theorem eq_withoutReturn_or (line : List Char) :
    line = withoutReturn line ∨ line = withoutReturn line ++ ['\r'] := by
  rw [withoutReturn]
  split
  · next last => exact .inr (List.dropLast_append_getLast? '\r' last).symm
  · exact .inl rfl

theorem not_mem_withoutReturn {line : List Char} (h : '\n' ∉ line) : '\n' ∉ withoutReturn line :=
  not_mem_withoutEnd h '\r'

theorem withoutReturn_concat (line : List Char) : withoutReturn (line ++ ['\r']) = line := by
  simp [withoutReturn]

theorem getLast?_of_encode {line : List Char} (h : (encode line).getLast? = some carriageReturn) :
    line.getLast? = some '\r' := by
  rcases List.eq_nil_or_concat' line with rfl | ⟨front, c, rfl⟩
  · cases h
  · have last : encode [c] = String.utf8EncodeChar c := by simp [encode]
    rw [encode_append, last, List.getLast?_append_of_ne_nil _ String.utf8EncodeChar_ne_nil] at h
    have inside : '\r' ∈ [c] := mem_encode (by decide) rfl (last ▸ List.mem_of_getLast? h)
    rw [List.getLast?_concat, List.mem_singleton.1 inside]

theorem withoutEnd_encode (line : List Char) :
    withoutEnd carriageReturn (encode line) = encode (withoutReturn line) := by
  by_cases ended : line.getLast? = some '\r'
  · obtain ⟨front, rfl⟩ : ∃ front, line = front ++ ['\r'] :=
      ⟨_, (List.dropLast_append_getLast? '\r' ended).symm⟩
    have last : encode ['\r'] = [carriageReturn] := by decide
    rw [encode_append, last, withoutReturn_concat]
    simp [withoutEnd]
  · rw [withoutEnd, if_neg (mt getLast?_of_encode ended), withoutReturn, if_neg ended]

def split (text : List Char) : List (List Char) :=
  let parts := text.splitOn '\n'
  parts.dropLast.map withoutReturn ++ (parts.getLast?.filter (· ≠ [])).toList

theorem split_append {line : List Char} (h : '\n' ∉ line) (rest : List Char) :
    split (line ++ '\n' :: rest) = withoutReturn line :: split rest :=
  divide_append h '\r' rest

theorem split_of_not_mem {line : List Char} (h : '\n' ∉ line) :
    split line = if line = [] then [] else [line] :=
  divide_of_not_mem h '\r'

def ofText (text : String) : List String := (split text.toList).map String.ofList

theorem not_mem_of_mem_split {text line : List Char} (h : line ∈ split text) : '\n' ∉ line :=
  not_mem_of_mem_divide '\r' h

theorem divide_encode (text : List Char) :
    divide lineFeed carriageReturn (encode text) = (split text).map encode := by
  induction text using line_induction '\n' with
  | last line h =>
    rw [divide_of_not_mem (not_mem_encode h), split_of_not_mem h]
    by_cases nothing : line = []
    · simp [nothing]
    · simp [nothing, encode_eq_nil_iff]
  | more line rest h ih =>
    have seam : encode (line ++ '\n' :: rest) = encode line ++ lineFeed :: encode rest := by
      rw [encode_append]
      rfl
    rw [seam, divide_append (not_mem_encode h), split_append h, List.map_cons, ih,
      withoutEnd_encode]

end LoxLexer.Line
