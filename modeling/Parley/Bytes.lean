/-
  This file fixes what a byte string is, how text becomes
  bytes, and where one byte string first occurs in another.

  Key definitions include:
    * `Bytes`
    * `Bytes.ofString`
    * `Bytes.find?`

  Key theorems include:
    * `Bytes.find?_nil_left`
    * `Bytes.find?_le`
-/

namespace Parley

------------------------------------------------------------
-- Byte strings
------------------------------------------------------------

/-
  Everything that travels between two peers is a byte string.
-/
abbrev Bytes :=
  List UInt8

namespace Bytes

/- The UTF-8 bytes of a text. -/
def ofString
    (s : String) : Bytes :=
  s.toUTF8.data.toList

------------------------------------------------------------
-- Searching
------------------------------------------------------------

/-
  The position of the first occurrence of `pat`. The empty
  pattern occurs at the very start of every byte string.
-/
def find?
    (pat : Bytes) : Bytes → Option Nat
  | [] => if pat.isEmpty then some 0 else none
  | b :: rest =>
    if pat.isPrefixOf (b :: rest) then some 0
    else (find? pat rest).map (· + 1)

/- The empty pattern is found at once. -/
theorem find?_nil_left
    (s : Bytes) :
    find? [] s = some 0 := by
  cases s <;> simp [find?]

/- An occurrence lies inside the searched bytes. -/
theorem find?_le
    {pat s : Bytes}
    {n : Nat}
    (h : find? pat s = some n) :
    n + pat.length ≤ s.length := by
  induction s generalizing n with
  | nil =>
    by_cases hp : pat = []
    · subst hp
      simp [find?] at h
      simp [← h]
    · simp [find?, hp] at h
  | cons b rest ih =>
    rw [find?] at h
    split at h
    · next hpre =>
      obtain rfl : 0 = n := by simpa using h
      simpa using (List.isPrefixOf_iff_prefix.1 hpre).length_le
    · obtain ⟨m, hm, rfl⟩ := Option.map_eq_some_iff.1 h
      have := ih hm
      simp only [List.length_cons]
      omega

end Bytes

end Parley
