import Parley.Bytes
/-
  This file gives one direction of a pipe: a bounded queue of
  bytes that is kept as a storage with an offset, so that
  reading does not move bytes and writing moves them only when
  the end of the storage is reached.

  Key definitions include:
    * `Half`
    * `Half.empty`
    * `Half.unread`
    * `Half.take`
    * `Half.put`
    * `Half.isExhausted`

  Key theorems include:
    * `Half.unread_empty`
    * `Half.unread_clear`
    * `Half.isExhausted_release`
-/

namespace Parley

------------------------------------------------------------
-- The queue
------------------------------------------------------------

/-
  One direction of a pipe. The bytes of `buf` before `off` have
  been read, the others are unread; `buf` is `none` once the
  storage has been given back. `eof` says that no byte will be
  added.
-/
structure Half where
  buf : Option Bytes
  off : Nat
  cap : Nat
  eof : Bool
deriving DecidableEq, Repr

namespace Half

/-
  A queue that holds nothing and takes up to `cap` unread bytes.
-/
def empty
    (cap : Nat) : Half where
  buf := some []
  off := 0
  cap := cap
  eof := false

/- The bytes that have been added and not yet read. -/
def unread
    (h : Half) : Bytes :=
  match h.buf with
  | some buf => buf.drop h.off
  | none => []

/- How many bytes are unread. -/
def pending
    (h : Half) : Nat :=
  match h.buf with
  | some buf => buf.length - h.off
  | none => 0

/- Whether the storage has been given back. -/
def isReleased
    (h : Half) : Bool :=
  h.buf.isNone

/-
  No byte will ever be read again: the storage is gone, or all
  was read and none will come.
-/
def isExhausted
    (h : Half) : Bool :=
  h.buf.isNone || (h.eof && h.pending == 0)

------------------------------------------------------------
-- Closing
------------------------------------------------------------

/- Give the storage back, with whatever was unread. -/
def release
    (h : Half) : Half :=
  { h with buf := none, off := 0 }

/- No byte will be added any more. -/
def setEof
    (h : Half) : Half :=
  { h with eof := true }

/- Forget the unread bytes. -/
def clear
    (h : Half) : Half :=
  { h with buf := h.buf.map fun _ => [], off := 0 }

------------------------------------------------------------
-- Reading and writing
------------------------------------------------------------

/-
  Remove the first unread bytes, `room` of them at most. When
  all has been read the storage is emptied, so that it can be
  filled from its start again.
-/
def take
    (h : Half)
    (room : Nat) : Bytes × Half :=
  match h.buf with
  | none => ([], h)
  | some buf =>
    let taken := (buf.drop h.off).take room
    let off := h.off + taken.length
    if off = buf.length then
      (taken, { h with buf := some [], off := 0 })
    else (taken, { h with off := off })

/-
  Add as much of `src` as fits and say how much that was. The
  bytes already read are dropped from the storage only when it
  has no place left at its end.
-/
def put
    (h : Half)
    (src : Bytes) : Nat × Half :=
  match h.buf with
  | none => (0, h)
  | some buf =>
    if h.cap ≤ buf.length - h.off then (0, h)
    else
      let (buf, off) :=
        if buf.length = h.cap then (buf.drop h.off, 0)
        else (buf, h.off)
      let accepted := src.take (h.cap - buf.length)
      (accepted.length,
        { h with buf := some (buf ++ accepted), off := off })

------------------------------------------------------------
-- Small facts
------------------------------------------------------------

@[simp] theorem unread_empty
    (cap : Nat) :
    (empty cap).unread = [] :=
  rfl

@[simp] theorem unread_clear
    (h : Half) :
    h.clear.unread = [] := by
  cases hb : h.buf <;> simp [clear, unread, hb]

@[simp] theorem unread_release
    (h : Half) :
    h.release.unread = [] :=
  rfl

@[simp] theorem isExhausted_release
    (h : Half) :
    h.release.isExhausted = true :=
  rfl

/-
  The count of unread bytes is the length of the unread bytes.
-/
theorem pending_eq_length_unread
    (h : Half) :
    h.pending = h.unread.length := by
  cases hb : h.buf <;> simp [pending, unread, hb]

end Half

end Parley
