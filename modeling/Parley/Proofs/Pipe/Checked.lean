import Mathlib.Data.Nat.PSub
import Parley.Proofs.Pipe.Queue
/-
  This file shows that the operations of a queue never look
  outside of what is stored. A subtraction that would fall
  below zero, or a piece of bytes that would reach past their
  end, is cut short without a word in `Half.pending`,
  `Half.take` and `Half.put`. Here it fails, and a queue of
  sound shape never fails.

  Key definitions include:
    * `Bytes.first?`
    * `Bytes.behind?`
    * `Half.pending?`
    * `Half.takeInto`
    * `Half.take?`
    * `Half.put?`

  Key theorems include:
    * `Half.Sound.pending?_eq`
    * `Half.Sound.take?_eq`
    * `Half.Sound.put?_eq`
-/

namespace Parley

------------------------------------------------------------
-- Pieces of bytes
------------------------------------------------------------

namespace Bytes

/- The first `n` bytes, where there are so many. -/
def first?
    (bytes : Bytes)
    (n : Nat) : Option Bytes :=
  if n ≤ bytes.length then some (bytes.take n) else none

/- What follows the first `n` bytes, where there are so many. -/
def behind?
    (bytes : Bytes)
    (n : Nat) : Option Bytes :=
  if n ≤ bytes.length then some (bytes.drop n) else none

theorem first?_of_le
    {bytes : Bytes}
    {n : Nat}
    (hWithin : n ≤ bytes.length) :
    bytes.first? n = some (bytes.take n) :=
  if_pos hWithin

theorem behind?_of_le
    {bytes : Bytes}
    {n : Nat}
    (hWithin : n ≤ bytes.length) :
    bytes.behind? n = some (bytes.drop n) :=
  if_pos hWithin

end Bytes

namespace Half

------------------------------------------------------------
-- Operations that can fail
------------------------------------------------------------

/- How many bytes are unread, if that is a number at all. -/
def pending?
    (h : Half) : Option Nat :=
  match h.buf with
  | some buf => buf.length.psub h.off
  | none => some 0

/-
  A take into a place that holds `dst`: how many bytes were
  taken, and the place with its first bytes overwritten by them.
-/
def takeInto
    (h : Half)
    (dst : Bytes) : Nat × Bytes × Half :=
  let (taken, h) := h.take dst.length
  (taken.length, taken ++ dst.drop taken.length, h)

/-
  The same, unless it reaches outside of the storage, of the
  unread bytes or of the place.
-/
def take?
    (h : Half)
    (dst : Bytes) : Option (Nat × Bytes × Half) :=
  match h.buf with
  | none => some (0, dst, h)
  | some buf => do
    let live ← buf.behind? h.off
    let n := min live.length dst.length
    -- As many places are overwritten as bytes are copied.
    let taken ← live.first? n
    let kept ← dst.behind? n
    let off := h.off + n
    if off = buf.length then
      some (n, taken ++ kept, { h with buf := some [], off := 0 })
    else some (n, taken ++ kept, { h with off := off })

/-
  A put, unless it reaches outside of the storage or of the
  bytes that are put, or counts fewer than no places.
-/
def put?
    (h : Half)
    (src : Bytes) : Option (Nat × Half) :=
  match h.buf with
  | none => some (0, h)
  | some buf => do
    let pending ← buf.length.psub h.off
    if h.cap ≤ pending then some (0, h)
    else
      let (buf, off) ←
        if buf.length = h.cap then
          (buf.behind? h.off).map fun unread => (unread, 0)
        else some (buf, h.off)
      let places ← h.cap.psub buf.length
      let n := min places src.length
      let accepted ← src.first? n
      some (n, { h with buf := some (buf ++ accepted), off := off })

------------------------------------------------------------
-- They do not fail
------------------------------------------------------------

/- The unread bytes can be counted. -/
theorem Sound.pending?_eq
    {h : Half}
    (hSound : h.Sound) :
    h.pending? = some h.pending := by
  have hOff := hSound.off_le_stored
  unfold pending? pending
  cases hBuf : h.buf with
  | none => rfl
  | some buf =>
      simp only [stored, hBuf] at hOff
      exact Nat.psub_eq_sub hOff

/- A take stays within the storage and within its place. -/
theorem Sound.take?_eq
    {h : Half}
    (hSound : h.Sound)
    (dst : Bytes) :
    h.take? dst = some (h.takeInto dst) := by
  have hOff := hSound.off_le_stored
  unfold take? takeInto take
  cases hBuf : h.buf with
  | none => simp
  | some buf =>
      simp only [stored, hBuf] at hOff
      have hTaken :
          (buf.drop h.off).take
              (min (buf.drop h.off).length dst.length) =
            (buf.drop h.off).take dst.length := by
        rw [Nat.min_comm]
        exact List.take_eq_take_min.symm
      have hCount :
          ((buf.drop h.off).take dst.length).length =
            min (buf.drop h.off).length dst.length := by
        rw [List.length_take, Nat.min_comm]
      simp only [Bytes.behind?_of_le hOff,
        Bytes.first?_of_le (Nat.min_le_left _ _),
        Bytes.behind?_of_le (Nat.min_le_right _ _),
        Option.bind_eq_bind, Option.bind_some, hTaken, hCount]
      split
      · rw [hCount]
      · rw [hCount]

/-
  A put stays within the storage and within what is put, and
  there are never fewer than no places.
-/
theorem Sound.put?_eq
    {h : Half}
    (hSound : h.Sound)
    (src : Bytes) :
    h.put? src = some (h.put src) := by
  rcases h with ⟨_ | buf, off, cap, eof⟩
  · rfl
  · have hOff : off ≤ buf.length := hSound.off_le_stored
    have hCap : buf.length ≤ cap := hSound.stored_le_cap
    unfold put?
    simp only [Nat.psub_eq_sub hOff, Option.bind_eq_bind,
      Option.bind_some]
    by_cases hFull : cap ≤ buf.length - off
    · rw [put_of_full src hFull, if_pos hFull]
    · have hFree : buf.length - off < cap := by
        omega
      rw [if_neg hFull]
      by_cases hEnd : buf.length = cap
      · rw [put_of_moved src hFree hEnd, if_pos hEnd,
          Bytes.behind?_of_le hOff]
        simp only [Option.map_some, Option.bind_some,
          List.length_drop,
          Nat.psub_eq_sub (Nat.le_of_lt hFree),
          Bytes.first?_of_le (Nat.min_le_right _ _)]
        rw [← List.take_eq_take_min]
      · rw [put_of_kept src hFree hEnd, if_neg hEnd]
        simp only [Option.bind_some, Nat.psub_eq_sub hCap,
          Bytes.first?_of_le (Nat.min_le_right _ _)]
        rw [← List.take_eq_take_min]

end Half

end Parley
