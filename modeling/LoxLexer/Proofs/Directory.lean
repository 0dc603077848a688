import LoxLexer.Directory
import Mathlib.Data.List.Basic

namespace LoxLexer.Directory

variable {d : Directory} {place : Place} {path other : String} {entry : Entry}
  {content : List UInt8}

theorem walk_eq_ok_iff {names : List String} : d.walk place names = .ok entry ↔
    (∀ step ∈ place.passed names, d.entryAt step = some .directory) ∧
      (∀ name ∈ names, name.utf8ByteSize ≤ longestName) ∧
      d.entryAt (names.foldl Place.enter place) = some entry := by
  induction names generalizing place with
  | nil =>
    simp only [walk, Place.passed, List.not_mem_nil, false_implies, implies_true, true_and,
      List.foldl_nil]
    cases d.entryAt place <;> simp
  | cons name rest ih =>
    simp only [walk, Place.passed, List.forall_mem_cons, List.foldl_cons]
    split
    · next missing => simp [missing]
    · next _ file => simp [file]
    · next directory =>
      split
      · next long => simp [Nat.not_le_of_lt long]
      · next short =>
        rw [ih]
        simp [directory, Nat.le_of_not_lt short]

structure Proper (path : String) : Prop where
  nonempty : path ≠ ""
  path_le : path.utf8ByteSize ≤ longestPath
  name_le : ∀ name ∈ names path, name.utf8ByteSize ≤ longestName

theorem find_eq_ok_iff : d.find path = .ok entry ↔
    Proper path ∧ (∀ step ∈ through path, d.entryAt step = some .directory) ∧
      d.entryAt (target path) = some entry := by
  have proper : Proper path ↔ path ≠ "" ∧ path.utf8ByteSize ≤ longestPath ∧
      ∀ name ∈ names path, name.utf8ByteSize ≤ longestName :=
    ⟨fun h => ⟨h.nonempty, h.path_le, h.name_le⟩, fun h => ⟨h.1, h.2.1, h.2.2⟩⟩
  rw [proper, find]
  split
  · next nothing => simp [nothing]
  · next something =>
    split
    · next long => simp [Nat.not_le_of_lt long]
    · next short =>
      rw [walk_eq_ok_iff]
      simp only [something, Nat.le_of_not_lt short, through, target, ne_eq, not_false_eq_true,
        true_and]
      tauto

theorem read_eq_ok_iff : d.read path = .ok content ↔
    Proper path ∧ (∀ step ∈ through path, d.entryAt step = some .directory) ∧
      d.entryAt (target path) = some (.file content) := by
  rw [← find_eq_ok_iff, read]
  split <;> simp_all

theorem lookup_insert_of_ne (apart : place ≠ target path) :
    (d.insert path entry).entries.lookup place =
      (d.entries.lookup place).or
        (((through path).map fun step => (step, Entry.directory)).lookup place) := by
  rw [Directory.insert, List.cons_append, List.lookup_cons, beq_false_of_ne apart,
    List.lookup_append]

theorem entryAt_insert_of_ne (apart : place ≠ target path) (known : d.entryAt place = some entry)
    (put : Entry) : (d.insert path put).entryAt place = some entry := by
  by_cases given : place.isGiven
  · simpa [entryAt, given] using known
  · have found : d.entries.lookup place = some entry := by simpa [entryAt, given] using known
    simp [entryAt, given, lookup_insert_of_ne apart, found]

theorem read_insert_of_ne (apart : target path ≠ target other)
    (outside : target path ∉ through other)
    (known : d.read other = .ok content) : (d.insert path entry).read other = .ok content := by
  obtain ⟨proper, passable, there⟩ := read_eq_ok_iff.1 known
  refine read_eq_ok_iff.2 ⟨proper, fun step member => ?_, ?_⟩
  · refine entryAt_insert_of_ne ?_ (passable step member) entry
    rintro rfl
    exact outside member
  · exact entryAt_insert_of_ne apart.symm there entry

end LoxLexer.Directory
