import Parley.Proofs.Pipe.Checked
/-
  This file says what a queue is after any sequence of
  operations on it: a bounded queue of unread bytes, whose
  storage and offset only show in how many bytes a put accepts
  at a time. One that has been emptied, by reading or by
  forgetting, cannot be told from a new one, apart from the
  mark of its end.

  Key definitions include:
    * `Half.Op`
    * `Half.Answer`
    * `Half.perform`
    * `Half.performAll`
    * `Half.performAll?`
    * `Half.endIf`
    * `Half.Renewed`
    * `Half.BoundedQueue`

  Key theorems include:
    * `Half.Sound.perform_spec`
    * `Half.Sound.performAll_spec`
    * `Half.Sound.performAll?_eq`
    * `Half.performAll_endIf`
    * `Half.Sound.renewed`
    * `Half.Sound.boundedQueue`
    * `Half.boundedQueue_performAll`
-/

namespace Parley

namespace Half

------------------------------------------------------------
-- Sequences of operations
------------------------------------------------------------

/- What can be done to a queue. A take has a place to write to. -/
inductive Op where
  | put (src : Bytes)
  | take (dst : Bytes)
  | clear
  | setEof
  | release
deriving DecidableEq, Repr

/-
  What an operation answers: how many bytes a put accepted, or
  how many a take removed and what its place holds then.
-/
inductive Answer where
  | accepted (n : Nat)
  | filled (n : Nat) (dst : Bytes)
  | nothing
deriving DecidableEq, Repr

/- One operation on a queue. -/
def perform
    (h : Half) : Op → Answer × Half
  | .put src =>
    let (n, h) := h.put src
    (.accepted n, h)
  | .take dst =>
    let (n, dst, h) := h.takeInto dst
    (.filled n dst, h)
  | .clear => (.nothing, h.clear)
  | .setEof => (.nothing, h.setEof)
  | .release => (.nothing, h.release)

/- The same, unless an index or a subtraction leaves its range. -/
def perform?
    (h : Half) : Op → Option (Answer × Half)
  | .put src => do
    let (n, h) ← h.put? src
    some (.accepted n, h)
  | .take dst => do
    let (n, dst, h) ← h.take? dst
    some (.filled n dst, h)
  | .clear => some (.nothing, h.clear)
  | .setEof => some (.nothing, h.setEof)
  | .release => some (.nothing, h.release)

/- Operations in a row, with what each of them answers. -/
def performAll : Half → List Op → List Answer × Half
  | h, [] => ([], h)
  | h, op :: ops =>
    let (answer, h) := h.perform op
    let (answers, h) := h.performAll ops
    (answer :: answers, h)

/- The same, unless one of them leaves its range. -/
def performAll? : Half → List Op → Option (List Answer × Half)
  | h, [] => some ([], h)
  | h, op :: ops => do
    let (answer, h) ← h.perform? op
    let (answers, h) ← h.performAll? ops
    some (answer :: answers, h)

------------------------------------------------------------
-- What a sequence keeps
------------------------------------------------------------

section

variable {h : Half}

/-
  Each operation keeps the shape and the capacity. The storage
  is given back, and the end marked, by one operation only.
-/
theorem Sound.perform_spec
    (hSound : h.Sound)
    (op : Op) :
    (h.perform op).2.Sound ∧
      (h.perform op).2.cap = h.cap ∧
      ((h.perform op).2.isReleased = true ↔
        h.isReleased = true ∨ op = .release) ∧
      ((h.perform op).2.eof = true ↔
        h.eof = true ∨ op = .setEof) := by
  cases op with
  | put src =>
      rcases hSound.put_spec src with
        ⟨-, -, hEof, hCap, hReleased, hPut⟩
      exact ⟨hPut, hCap, by simp [perform, hReleased],
        by simp [perform, hEof]⟩
  | take dst =>
      rcases hSound.take_spec dst.length with
        ⟨-, hEof, hCap, hReleased, hTake⟩
      exact ⟨hTake, hCap,
        by simp [perform, takeInto, hReleased],
        by simp [perform, takeInto, hEof]⟩
  | clear =>
      exact ⟨hSound.clear, rfl,
        by simp [perform],
        by simp [perform, Half.clear]⟩
  | setEof =>
      exact ⟨hSound.setEof, rfl,
        by simp [perform, Half.setEof, isReleased],
        by simp [perform, Half.setEof]⟩
  | release =>
      exact ⟨hSound.release, rfl,
        by simp [perform, Half.release, isReleased],
        by simp [perform, Half.release]⟩

/- So do operations in a row. -/
theorem Sound.performAll_spec
    (hSound : h.Sound)
    (ops : List Op) :
    (h.performAll ops).2.Sound ∧
      (h.performAll ops).2.cap = h.cap ∧
      ((h.performAll ops).2.isReleased = true ↔
        h.isReleased = true ∨ .release ∈ ops) ∧
      ((h.performAll ops).2.eof = true ↔
        h.eof = true ∨ .setEof ∈ ops) := by
  induction ops generalizing h with
  | nil => exact ⟨hSound, rfl, by simp [performAll],
      by simp [performAll]⟩
  | cons op ops ih =>
      rcases hSound.perform_spec op with
        ⟨hNext, hCap, hReleased, hEof⟩
      rcases ih hNext with
        ⟨hLast, hLastCap, hLastReleased, hLastEof⟩
      refine ⟨hLast, hLastCap.trans hCap, ?_, ?_⟩
      · rw [List.mem_cons, ← or_assoc, eq_comm (a := Op.release),
          ← hReleased]
        exact hLastReleased
      · rw [List.mem_cons, ← or_assoc, eq_comm (a := Op.setEof),
          ← hEof]
        exact hLastEof

/- No operation on a queue of sound shape leaves its range. -/
theorem Sound.perform?_eq
    (hSound : h.Sound)
    (op : Op) :
    h.perform? op = some (h.perform op) := by
  cases op with
  | put src =>
      simp only [perform?, hSound.put?_eq src]
      rfl
  | take dst =>
      simp only [perform?, hSound.take?_eq dst]
      rfl
  | clear => rfl
  | setEof => rfl
  | release => rfl

/- No sequence of them does. -/
theorem Sound.performAll?_eq
    (hSound : h.Sound)
    (ops : List Op) :
    h.performAll? ops = some (h.performAll ops) := by
  induction ops generalizing h with
  | nil => rfl
  | cons op ops ih =>
      have hNext := (hSound.perform_spec op).1
      simp only [performAll?, hSound.perform?_eq op,
        Option.bind_eq_bind, Option.bind_some, ih hNext]
      rfl

end

------------------------------------------------------------
-- The mark of the end
------------------------------------------------------------

/- Mark the end of the bytes, if `ends` says so. -/
def endIf
    (h : Half)
    (ends : Bool) : Half :=
  { h with eof := h.eof || ends }

/- Reading does not look at the mark. -/
theorem take_endIf
    (h : Half)
    (ends : Bool)
    (room : Nat) :
    (h.endIf ends).take room =
      ((h.take room).1, (h.take room).2.endIf ends) := by
  rcases h with ⟨_ | buf, off, cap, eof⟩
  · rfl
  · unfold take endIf
    simp only
    split <;> rfl

/- Neither does writing. -/
theorem put_endIf
    (h : Half)
    (ends : Bool)
    (src : Bytes) :
    (h.endIf ends).put src =
      ((h.put src).1, (h.put src).2.endIf ends) := by
  rcases h with ⟨_ | buf, off, cap, eof⟩
  · rfl
  · unfold put endIf
    simp only
    split <;> rfl

/- No operation does, and none takes the mark away. -/
theorem perform_endIf
    (h : Half)
    (ends : Bool)
    (op : Op) :
    (h.endIf ends).perform op =
      ((h.perform op).1, (h.perform op).2.endIf ends) := by
  cases op with
  | put src =>
      simp only [perform, put_endIf]
  | take dst =>
      simp only [perform, takeInto, take_endIf]
  | clear => rfl
  | setEof => simp [perform, setEof, endIf]
  | release => rfl

/- So it does not show in what any sequence answers. -/
theorem performAll_endIf
    (h : Half)
    (ends : Bool)
    (ops : List Op) :
    (h.endIf ends).performAll ops =
      ((h.performAll ops).1, (h.performAll ops).2.endIf ends) := by
  induction ops generalizing h with
  | nil => rfl
  | cons op ops ih =>
      simp only [performAll, perform_endIf, ih]

------------------------------------------------------------
-- Emptied queues
------------------------------------------------------------

/-
  Whatever follows, the queue gives the answers of a new one of
  the given capacity and comes to the same state, apart from a
  mark of the end that it bears already.
-/
def Renewed
    (h : Half)
    (cap : Nat) : Prop :=
  ∀ ops : List Op,
    h.performAll ops =
      (((empty cap).performAll ops).1,
        ((empty cap).performAll ops).2.endIf h.eof)

/- A queue in which nothing is unread starts from its beginning. -/
theorem Sound.eq_empty
    {h : Half}
    (hSound : h.Sound)
    (hReleased : h.isReleased = false)
    (hUnread : h.unread = []) :
    h = (Half.empty h.cap).endIf h.eof := by
  have hParts := hSound.length_unread_add_off
  rw [hUnread, List.length_nil, Nat.zero_add] at hParts
  -- The offset is at the end, so the storage was emptied.
  have hStored := hSound.eq_zero_of_drained hParts
  rcases h with ⟨_ | buf, off, cap, eof⟩
  · cases hReleased
  · have hBuf : buf = [] := List.length_eq_zero_iff.mp hStored
    have hOff : off = 0 := hParts.trans hStored
    subst hBuf hOff
    simp [Half.empty, endIf]

/- It cannot be told from a new one. -/
theorem Sound.renewed
    {h : Half}
    (hSound : h.Sound)
    (hReleased : h.isReleased = false)
    (hUnread : h.unread = []) :
    h.Renewed h.cap := by
  intro ops
  rw [← performAll_endIf, ← hSound.eq_empty hReleased hUnread]

------------------------------------------------------------
-- Bounded queues
------------------------------------------------------------

/- What can be relied on in a queue of capacity `cap`. -/
structure BoundedQueue
    (cap : Nat)
    (h : Half) : Prop where
  /- The offset lies in the storage, and the storage is bounded. -/
  off_le_stored : h.off ≤ h.stored
  stored_le_cap : h.stored ≤ cap
  /- The offset reaches the end of an empty storage only. -/
  drained : h.off = h.stored → h.off = 0 ∧ h.stored = 0
  /- Where the storage was given back there is no offset. -/
  released : h.isReleased = true → h.off = 0
  /- The unread bytes can be counted. -/
  counted : h.pending? = some h.unread.length
  /- The next operation stays in its range, whatever it is. -/
  inRange : ∀ op, h.perform? op = some (h.perform op)
  /-
    A take removes the first unread bytes, as many as there are
    and its place has room for, and overwrites the beginning of
    the place with them.
  -/
  taking :
    ∀ dst,
      let (n, place, after) := h.takeInto dst
      n = min dst.length h.unread.length ∧
        place = h.unread.take n ++ dst.drop n ∧
        after.unread = h.unread.drop n
  /-
    A put adds a first part of its bytes behind the unread ones.
    It adds no more than there are free places, and some just if
    it has a byte and there is a place for it; if not, what is
    unread stays as it is.
  -/
  putting :
    ∀ src,
      let (n, after) := h.put src
      n ≤ src.length ∧
        n ≤ cap - h.unread.length ∧
        after.unread = h.unread ++ src.take n ∧
        (0 < n ↔
          src ≠ [] ∧ h.unread.length < cap ∧
            h.isReleased = false)
  /-
    Unless the storage was given back, a queue is as good as
    new when nothing is unread, so after a take that reads all
    and after all was forgotten.
  -/
  renewed :
    h.isReleased = false →
      (h.unread = [] → h.Renewed cap) ∧
        (∀ dst, h.unread.length ≤ dst.length →
          (h.takeInto dst).2.2.Renewed cap) ∧
        h.clear.Renewed cap

section

variable {h : Half}

/- There is never more room than free places. -/
theorem Sound.room_le
    (hSound : h.Sound) :
    h.room ≤ h.cap - h.unread.length := by
  cases hReleased : h.isReleased with
  | true =>
      rw [room_of_isReleased hReleased]
      exact Nat.zero_le _
  | false =>
      have hParts := hSound.length_unread_add_off
      rw [hSound.room_eq hReleased]
      split <;> omega

/- There is some if the storage is there and has a free place. -/
theorem Sound.room_pos_iff
    (hSound : h.Sound) :
    0 < h.room ↔
      h.unread.length < h.cap ∧ h.isReleased = false := by
  cases hReleased : h.isReleased with
  | true => simp [room_of_isReleased hReleased]
  | false =>
      have hFull := hSound.room_eq_zero_iff hReleased
      have hCap := hSound.length_unread_le_cap
      simp only [and_true]
      omega

/- A take in terms of the unread bytes. -/
theorem Sound.takeInto_spec
    (hSound : h.Sound)
    (dst : Bytes) :
    (h.takeInto dst).1 = min dst.length h.unread.length ∧
      (h.takeInto dst).2.1 =
        h.unread.take (h.takeInto dst).1 ++
          dst.drop (h.takeInto dst).1 ∧
      (h.takeInto dst).2.2.unread =
        h.unread.drop (h.takeInto dst).1 := by
  have hUnread := (hSound.take_spec dst.length).1
  have hCount :
      (h.take dst.length).1.length =
        min dst.length h.unread.length := by
    rw [take_fst, List.length_take]
  simp only [takeInto, hCount]
  refine ⟨trivial, ?_, ?_⟩
  · rw [take_fst, ← List.take_eq_take_min]
  · rw [hUnread, ← List.drop_eq_drop_min]

/- A queue of sound shape is a bounded queue. -/
theorem Sound.boundedQueue
    (hSound : h.Sound) :
    BoundedQueue h.cap h where
  off_le_stored := hSound.off_le_stored
  stored_le_cap := hSound.stored_le_cap
  drained := by
    intro hDrained
    have hStored := hSound.eq_zero_of_drained hDrained
    exact ⟨hDrained.trans hStored, hStored⟩
  released := by
    intro hReleased
    have hBuf := Option.isNone_iff_eq_none.mp hReleased
    have hOff := hSound.off_le_stored
    simp only [stored, hBuf] at hOff
    exact Nat.le_zero.mp hOff
  counted := by
    rw [← pending_eq_length_unread]
    exact hSound.pending?_eq
  inRange := hSound.perform?_eq
  taking := hSound.takeInto_spec
  putting := by
    intro src
    rcases hSound.put_spec src with ⟨hCount, hUnread, -⟩
    have hRoom := hSound.room_le
    simp only [hCount, hUnread, ← List.length_pos_iff,
      ← hSound.room_pos_iff]
    refine ⟨Nat.min_le_right _ _,
      Nat.le_trans (Nat.min_le_left _ _) hRoom, ?_, ?_⟩
    · rw [← List.take_eq_take_min]
    · omega
  renewed := by
    intro hReleased
    refine ⟨hSound.renewed hReleased, ?_, ?_⟩
    · intro dst hAll
      rcases hSound.take_spec dst.length with
        ⟨hLeft, -, hCap, hKept, hTake⟩
      have hNone : (h.take dst.length).2.unread = [] := by
        rw [hLeft]
        exact List.drop_of_length_le hAll
      rw [← hCap]
      exact hTake.renewed (hKept.trans hReleased) hNone
    · have hKept := h.isReleased_clear.trans hReleased
      exact hSound.clear.renewed hKept h.unread_clear

end

/-
  After any sequence of operations on a new queue, none of which
  leaves its range, there is a bounded queue of the same
  capacity. Its storage is gone just if it was given back on the
  way, and its end marked just if that was done on the way.
-/
theorem boundedQueue_performAll
    {cap : Nat}
    (hCap : 0 < cap)
    (ops : List Op) :
    (empty cap).performAll? ops =
        some ((empty cap).performAll ops) ∧
      (((empty cap).performAll ops).2.isReleased = true ↔
        .release ∈ ops) ∧
      (((empty cap).performAll ops).2.eof = true ↔
        .setEof ∈ ops) ∧
      BoundedQueue cap ((empty cap).performAll ops).2 := by
  have hNew : (empty cap).Sound := .empty hCap
  rcases hNew.performAll_spec ops with
    ⟨hSound, hSame, hReleased, hEof⟩
  refine ⟨hNew.performAll?_eq ops, ?_, ?_, ?_⟩
  · simpa [empty, isReleased] using hReleased
  · simpa [empty] using hEof
  · have hQueue := hSound.boundedQueue
    rw [hSame] at hQueue
    exact hQueue

/-
  Four places are filled, two are read again, and of three more
  bytes two are accepted, where the first two were. Then the end
  is marked and all is read, into a place for five.
-/
def wrappedOps : List Op :=
  [.put [97, 98, 99, 100], .take [0, 0], .put [120, 121, 122],
    .setEof, .take [0, 0, 0, 0, 0]]

theorem boundedQueue_performAll_of_wrapped :
    0 < 4 ∧
      (empty 4).performAll? wrappedOps =
        some
          ([.accepted 4, .filled 2 [97, 98], .accepted 2,
              .nothing, .filled 4 [99, 100, 120, 121, 0]],
            ⟨some [], 0, 4, true⟩) ∧
      BoundedQueue 4 ⟨some [], 0, 4, true⟩ ∧
      (Half.mk (some []) 0 4 true).Renewed 4 := by
  have hCap : 0 < 4 := by decide
  rcases boundedQueue_performAll hCap wrappedOps with
    ⟨hInRange, -, -, hQueue⟩
  have hRenewed := (hQueue.renewed rfl).1 rfl
  exact ⟨hCap, hInRange, hQueue, hRenewed⟩

end Half

end Parley
