import Parley.Pipe.Half
/-
  This file shows that the storage and the offset of a queue
  stand for a bounded queue of unread bytes: what each
  operation does to the unread bytes, and the shape that every
  operation keeps.

  Key definitions include:
    * `Half.stored`
    * `Half.room`
    * `Half.Sound`

  Key theorems include:
    * `Half.Sound.length_unread_add_off`
    * `Half.Sound.room_eq`
    * `Half.Sound.room_eq_zero_iff`
    * `Half.Sound.take_spec`
    * `Half.Sound.put_spec`
    * `Half.Sound.stored_put_eq_cap`
-/

namespace Parley

namespace Half

------------------------------------------------------------
-- The shape of a queue
------------------------------------------------------------

/- How many bytes the storage holds, those already read included. -/
def stored
    (h : Half) : Nat :=
  match h.buf with
  | some buf => buf.length
  | none => 0

/-
  How many bytes a single put can add. Places before the
  offset count only when the storage is full to its end.
-/
def room
    (h : Half) : Nat :=
  match h.buf with
  | some buf =>
    if h.cap ≤ buf.length - h.off then 0
    else if buf.length = h.cap then h.cap - (buf.length - h.off)
    else h.cap - buf.length
  | none => 0

/-
  The shape that every operation keeps. A storage of which
  all has been read does not occur, since it is emptied.
-/
structure Sound (h : Half) : Prop where
  cap_pos : 0 < h.cap
  off_le_stored : h.off ≤ h.stored
  stored_le_cap : h.stored ≤ h.cap
  eq_zero_of_drained : h.off = h.stored → h.stored = 0

/- The unread bytes are what is stored behind the offset. -/
theorem length_unread
    (h : Half) :
    h.unread.length = h.stored - h.off := by
  cases hBuf : h.buf <;> simp [unread, stored, hBuf]

/- In a queue of sound shape the two parts make up the storage. -/
theorem Sound.length_unread_add_off
    {h : Half}
    (hSound : h.Sound) :
    h.unread.length + h.off = h.stored := by
  have hLength := h.length_unread
  have hOff := hSound.off_le_stored
  omega

/- There are never more unread bytes than the capacity. -/
theorem Sound.length_unread_le_cap
    {h : Half}
    (hSound : h.Sound) :
    h.unread.length ≤ h.cap := by
  have hParts := hSound.length_unread_add_off
  have hCap := hSound.stored_le_cap
  omega

------------------------------------------------------------
-- Room
------------------------------------------------------------

/- A queue that was given back takes nothing. -/
theorem room_of_isReleased
    {h : Half}
    (hReleased : h.isReleased = true) :
    h.room = 0 := by
  have hBuf : h.buf = none :=
    Option.isNone_iff_eq_none.mp hReleased
  simp only [room, hBuf]

/-
  In a storage that is full to its end every place that is not
  unread counts; in any other only the places at its end do.
-/
theorem Sound.room_eq
    {h : Half}
    (hSound : h.Sound)
    (hReleased : h.isReleased = false) :
    h.room =
      if h.stored = h.cap then h.cap - h.unread.length
      else h.cap - h.stored := by
  have hOff := hSound.off_le_stored
  have hStored := hSound.stored_le_cap
  have hLength := h.length_unread
  cases hBuf : h.buf with
  | none => simp [isReleased, hBuf] at hReleased
  | some buf =>
      simp only [stored, hBuf] at hOff hStored hLength
      simp only [room, stored, hBuf, hLength]
      split
      · split <;> omega
      · rfl

/-
  A queue that was not given back takes nothing only when it
  holds as many unread bytes as it may.
-/
theorem Sound.room_eq_zero_iff
    {h : Half}
    (hSound : h.Sound)
    (hReleased : h.isReleased = false) :
    h.room = 0 ↔ h.unread.length = h.cap := by
  have hParts := hSound.length_unread_add_off
  have hStored := hSound.stored_le_cap
  rw [hSound.room_eq hReleased]
  split <;> omega

------------------------------------------------------------
-- Taking
------------------------------------------------------------

/- What is taken are the first unread bytes. -/
theorem take_fst
    (h : Half)
    (room : Nat) :
    (h.take room).1 = h.unread.take room := by
  rcases h with ⟨_ | buf, off, cap, eof⟩
  · simp [take, unread]
  · simp only [take, unread]
    split <;> rfl

/- A take that reads all empties the storage. -/
theorem take_of_drained
    {buf : Bytes}
    {off cap room : Nat}
    {eof : Bool}
    (hDrained : buf.length ≤ off + room)
    (hOff : off ≤ buf.length) :
    (Half.mk (some buf) off cap eof).take room =
      (buf.drop off, ⟨some [], 0, cap, eof⟩) := by
  have hTaken : (buf.drop off).take room = buf.drop off := by
    apply List.take_of_length_le
    simp only [List.length_drop]
    omega
  have hEnd : off + (buf.drop off).length = buf.length := by
    simp only [List.length_drop]
    omega
  simp only [take, hTaken, hEnd, if_true]

/- A take that leaves something only moves the offset. -/
theorem take_of_left
    {buf : Bytes}
    {off cap room : Nat}
    {eof : Bool}
    (hLeft : off + room < buf.length) :
    (Half.mk (some buf) off cap eof).take room =
      ((buf.drop off).take room,
        ⟨some buf, off + room, cap, eof⟩) := by
  have hTaken : ((buf.drop off).take room).length = room := by
    simp only [List.length_take, List.length_drop]
    omega
  have hShort : ¬ off + room = buf.length := by
    omega
  simp only [take, hTaken, if_neg hShort]

/-
  What was not taken stays unread, and nothing else changes
  that a later call can see.
-/
theorem Sound.take_spec
    {h : Half}
    (hSound : h.Sound)
    (room : Nat) :
    (h.take room).2.unread = h.unread.drop room ∧
      (h.take room).2.eof = h.eof ∧
      (h.take room).2.cap = h.cap ∧
      (h.take room).2.isReleased = h.isReleased ∧
      (h.take room).2.Sound := by
  rcases h with ⟨_ | buf, off, cap, eof⟩
  · exact ⟨by simp [take, unread], rfl, rfl, rfl, hSound⟩
  · have hOff : off ≤ buf.length := hSound.off_le_stored
    by_cases hDrained : buf.length ≤ off + room
    · rw [take_of_drained hDrained hOff]
      refine ⟨?_, rfl, rfl, rfl, ?_⟩
      · symm
        apply List.drop_of_length_le
        simp only [unread, List.length_drop]
        omega
      · exact ⟨hSound.cap_pos, Nat.le_refl 0, Nat.zero_le cap,
          fun _ => rfl⟩
    · have hLeft : off + room < buf.length := by
        omega
      rw [take_of_left hLeft]
      refine ⟨?_, rfl, rfl, rfl, ?_⟩
      · simp only [unread, List.drop_drop]
      · refine ⟨hSound.cap_pos, Nat.le_of_lt hLeft,
          hSound.stored_le_cap, ?_⟩
        intro hEnd
        exact absurd hEnd (Nat.ne_of_lt hLeft)

------------------------------------------------------------
-- Putting
------------------------------------------------------------

/- Nothing is put where the unread bytes fill the capacity. -/
theorem put_of_full
    {buf : Bytes}
    {off cap : Nat}
    {eof : Bool}
    (src : Bytes)
    (hFull : cap ≤ buf.length - off) :
    (Half.mk (some buf) off cap eof).put src =
      (0, ⟨some buf, off, cap, eof⟩) := by
  simp only [put, if_pos hFull]

/- A storage that is full to its end is moved to its start first. -/
theorem put_of_moved
    {buf : Bytes}
    {off cap : Nat}
    {eof : Bool}
    (src : Bytes)
    (hFree : buf.length - off < cap)
    (hEnd : buf.length = cap) :
    (Half.mk (some buf) off cap eof).put src =
      (min (cap - (buf.length - off)) src.length,
        ⟨some (buf.drop off ++
          src.take (cap - (buf.length - off))), 0, cap, eof⟩) := by
  have hNotFull : ¬ cap ≤ buf.length - off := by
    omega
  simp only [put, if_neg hNotFull, if_pos hEnd,
    List.length_take, List.length_drop]

/- Any other storage is filled where it ends. -/
theorem put_of_kept
    {buf : Bytes}
    {off cap : Nat}
    {eof : Bool}
    (src : Bytes)
    (hFree : buf.length - off < cap)
    (hEnd : buf.length ≠ cap) :
    (Half.mk (some buf) off cap eof).put src =
      (min (cap - buf.length) src.length,
        ⟨some (buf ++ src.take (cap - buf.length)), off, cap,
          eof⟩) := by
  have hNotFull : ¬ cap ≤ buf.length - off := by
    omega
  simp only [put, if_neg hNotFull, if_neg hEnd,
    List.length_take]

/-
  What there is room for follows the unread bytes and is
  counted, and nothing else changes that a later call can see.
-/
theorem Sound.put_spec
    {h : Half}
    (hSound : h.Sound)
    (src : Bytes) :
    (h.put src).1 = min h.room src.length ∧
      (h.put src).2.unread = h.unread ++ src.take h.room ∧
      (h.put src).2.eof = h.eof ∧
      (h.put src).2.cap = h.cap ∧
      (h.put src).2.isReleased = h.isReleased ∧
      (h.put src).2.Sound := by
  rcases h with ⟨_ | buf, off, cap, eof⟩
  · exact ⟨by simp [put, room], by simp [put, unread, room],
      rfl, rfl, rfl, hSound⟩
  · have hOff : off ≤ buf.length := hSound.off_le_stored
    have hCap : buf.length ≤ cap := hSound.stored_le_cap
    by_cases hFull : cap ≤ buf.length - off
    · have hRoom :
          (Half.mk (some buf) off cap eof).room = 0 := by
        simp only [room, if_pos hFull]
      rw [put_of_full src hFull, hRoom]
      exact ⟨by simp, by simp, rfl, rfl, rfl, hSound⟩
    · have hFree : buf.length - off < cap := by
        omega
      by_cases hEnd : buf.length = cap
      · have hRoom :
            (Half.mk (some buf) off cap eof).room =
              cap - (buf.length - off) := by
          simp only [room, if_neg hFull, if_pos hEnd]
        rw [put_of_moved src hFree hEnd, hRoom]
        refine ⟨rfl, rfl, rfl, rfl, rfl, hSound.cap_pos,
          Nat.zero_le _, ?_, ?_⟩
        · simp only [stored, List.length_append,
            List.length_drop, List.length_take]
          omega
        · exact fun hDrained => hDrained.symm
      · have hRoom :
            (Half.mk (some buf) off cap eof).room =
              cap - buf.length := by
          simp only [room, if_neg hFull, if_neg hEnd]
        rw [put_of_kept src hFree hEnd, hRoom]
        refine ⟨rfl, ?_, rfl, rfl, rfl, hSound.cap_pos,
          ?_, ?_, ?_⟩
        · exact List.drop_append_of_le_length hOff
        · simp only [stored, List.length_append]
          omega
        · simp only [stored, List.length_append,
            List.length_take]
          omega
        · have hDrained := hSound.eq_zero_of_drained
          simp only [stored, List.length_append] at hDrained ⊢
          omega

/-
  A put that had too little room leaves a storage that is
  full to its end.
-/
theorem Sound.stored_put_eq_cap
    {h : Half}
    (hSound : h.Sound)
    {src : Bytes}
    (hReleased : h.isReleased = false)
    (hShort : h.room < src.length) :
    (h.put src).2.stored = h.cap := by
  rcases h with ⟨_ | buf, off, cap, eof⟩
  · simp [isReleased] at hReleased
  · have hOff : off ≤ buf.length := hSound.off_le_stored
    have hCap : buf.length ≤ cap := hSound.stored_le_cap
    by_cases hFull : cap ≤ buf.length - off
    · rw [put_of_full src hFull]
      simp only [stored]
      omega
    · have hFree : buf.length - off < cap := by
        omega
      simp only [room, if_neg hFull] at hShort
      by_cases hEnd : buf.length = cap
      · rw [if_pos hEnd] at hShort
        rw [put_of_moved src hFree hEnd]
        simp only [stored, List.length_append,
          List.length_drop, List.length_take]
        omega
      · rw [if_neg hEnd] at hShort
        rw [put_of_kept src hFree hEnd]
        simp only [stored, List.length_append,
          List.length_take]
        omega

------------------------------------------------------------
-- Beginning, emptying and ending
------------------------------------------------------------

/- A new queue has the shape. -/
theorem Sound.empty
    {cap : Nat}
    (hCap : 0 < cap) :
    (Half.empty cap).Sound :=
  ⟨hCap, Nat.le_refl 0, Nat.zero_le cap, fun _ => rfl⟩

/- Forgetting what is unread does not give the storage back. -/
@[simp] theorem isReleased_clear
    (h : Half) :
    h.clear.isReleased = h.isReleased := by
  cases hBuf : h.buf <;> simp [clear, isReleased, hBuf]

/- Forgetting what is unread keeps the shape. -/
theorem Sound.clear
    {h : Half}
    (hSound : h.Sound) :
    h.clear.Sound := by
  rcases h with ⟨_ | buf, off, cap, eof⟩
  · exact ⟨hSound.cap_pos, Nat.le_refl 0, Nat.zero_le cap,
      fun _ => rfl⟩
  · exact ⟨hSound.cap_pos, Nat.le_refl 0, Nat.zero_le cap,
      fun _ => rfl⟩

/- Giving the storage back keeps the shape. -/
theorem Sound.release
    {h : Half}
    (hSound : h.Sound) :
    h.release.Sound :=
  ⟨hSound.cap_pos, Nat.le_refl 0, Nat.zero_le h.cap,
    fun _ => rfl⟩

/- Marking the end keeps the shape. -/
theorem Sound.setEof
    {h : Half}
    (hSound : h.Sound) :
    h.setEof.Sound :=
  ⟨hSound.cap_pos, hSound.off_le_stored, hSound.stored_le_cap,
    hSound.eq_zero_of_drained⟩

end Half

end Parley
