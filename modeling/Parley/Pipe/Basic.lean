import Parley.Time
import Parley.Pipe.Half
import Parley.Pipe.Error
/-
  This file gives the pipe between two endpoints: a queue for
  each direction, the time limits that each endpoint has set,
  and the signals that wake those who wait.

  Every function here is one hold of the pipe's lock. A call
  that cannot go on says so and leaves the pipe as it should be
  found; it is repeated when a signal or the clock allows.

  Key definitions include:
    * `Side`
    * `Two`
    * `Limits`
    * `Pipe`
    * `Pipe.pair`
    * `Pipe.close`
    * `Pipe.clear`
    * `Pipe.isClosed`
    * `Pipe.receive`
    * `Pipe.Sending`
    * `Pipe.send`
-/

namespace Parley

------------------------------------------------------------
-- Two sides
------------------------------------------------------------

/- The two ends of a pipe. -/
inductive Side where
  | a
  | b
deriving DecidableEq, Repr

namespace Side

/- The far end. -/
def other : Side → Side
  | a => b
  | b => a

@[simp] theorem other_other
    (s : Side) :
    s.other.other = s := by
  cases s <;> rfl

end Side

/- One value for each side. -/
structure Two (α : Type) where
  a : α
  b : α
deriving DecidableEq, Repr

namespace Two

variable {α : Type}

/- The value of one side. -/
def get
    (t : Two α) : Side → α
  | .a => t.a
  | .b => t.b

/- Change the value of one side. -/
def modify
    (t : Two α)
    (s : Side)
    (f : α → α) : Two α :=
  match s with
  | .a => { t with a := f t.a }
  | .b => { t with b := f t.b }

/- Change both values. -/
def map
    (t : Two α)
    (f : α → α) : Two α :=
  ⟨f t.a, f t.b⟩

@[simp] theorem get_modify_self
    (t : Two α)
    (s : Side)
    (f : α → α) :
    (t.modify s f).get s = f (t.get s) := by
  cases s <;> rfl

@[simp] theorem get_modify_other
    (t : Two α)
    (s : Side)
    (f : α → α) :
    (t.modify s f).get s.other = t.get s.other := by
  cases s <;> rfl

@[simp] theorem get_map
    (t : Two α)
    (s : Side)
    (f : α → α) :
    (t.map f).get s = f (t.get s) := by
  cases s <;> rfl

end Two

------------------------------------------------------------
-- The pipe
------------------------------------------------------------

/- The limits that an endpoint has set for its own calls. -/
structure Limits where
  read : Option Instant := none
  write : Option Instant := none
  timeout : Option Duration := none
deriving DecidableEq, Repr

/-
  A pipe. Each queue stands under the side that reads it, and so
  does the count of signals given to those who wait for that
  queue.
-/
structure Pipe where
  names : Two String
  queues : Two Half
  limits : Two Limits := ⟨{}, {}⟩
  signals : Two Nat := ⟨0, 0⟩
deriving DecidableEq, Repr

namespace Pipe

/- The capacity of each direction where none is asked for. -/
def defaultCapacity : Nat :=
  4096

/-
  A new pipe between two named endpoints; capacity `0` asks for
  the default.
-/
def pair
    (nameA nameB : String)
    (capacity : Nat) : Pipe :=
  let cap := if capacity = 0 then defaultCapacity else capacity
  { names := ⟨nameA, nameB⟩
    queues := ⟨Half.empty cap, Half.empty cap⟩ }

/- Wake everyone who waits for the queue that `s` reads. -/
def notify
    (p : Pipe)
    (s : Side) : Pipe :=
  { p with signals := p.signals.modify s (· + 1) }

/- Wake everyone. -/
def notifyAll
    (p : Pipe) : Pipe :=
  { p with signals := p.signals.map (· + 1) }

/- Whether nothing will ever be read again at this end. -/
def isClosed
    (p : Pipe)
    (s : Side) : Bool :=
  (p.queues.get s).isExhausted

/-
  Close the pipe from one end: nothing is added in either
  direction any more, and what was unread at this end is gone.
  What is unread at the far end stays readable there. A second
  close from the same end does nothing.
-/
def close
    (p : Pipe)
    (s : Side) : Pipe :=
  if (p.queues.get s).isReleased then p
  else
    notifyAll
      { p with
        queues :=
          (p.queues.modify s Half.release).map Half.setEof }

/-
  Forget the unread bytes of both directions and wake everyone;
  nothing is closed.
-/
def clear
    (p : Pipe) : Pipe :=
  notifyAll { p with queues := p.queues.map Half.clear }

/- Change the limits of one endpoint. -/
def setLimits
    (p : Pipe)
    (s : Side)
    (f : Limits → Limits) : Pipe :=
  { p with limits := p.limits.modify s f }

------------------------------------------------------------
-- Timers of calls
------------------------------------------------------------

/-
  The timer of a read that starts now, by the limits as they
  stand.
-/
def readTimer
    (p : Pipe)
    (s : Side)
    (now : Instant) : Timer :=
  let limits := p.limits.get s
  Timer.startingAt now limits.read limits.timeout

/-
  The timer of a write that starts now, by the limits as they
  stand.
-/
def writeTimer
    (p : Pipe)
    (s : Side)
    (now : Instant) : Timer :=
  let limits := p.limits.get s
  Timer.startingAt now limits.write limits.timeout

------------------------------------------------------------
-- Receiving
------------------------------------------------------------

/-
  One look at the incoming queue by a read with room for `room`
  bytes. In this order: the end of the stream (which closes the
  pipe from this end), the timer, an empty room, unread bytes.
  Without any of them there is no answer yet and the caller
  waits.
-/
def receive
    (p : Pipe)
    (s : Side)
    (timer : Timer)
    (now : Instant)
    (room : Nat) : Option (Except PipeError Bytes) × Pipe :=
  let queue := p.queues.get s
  if queue.isExhausted then (some (.error .endOfStream), p.close s)
  else if timer.hasExpired now then
    (some (.error (.timeout (p.names.get s) .read)), p)
  else if room = 0 then (some (.ok []), p)
  else if queue.pending = 0 then (none, p)
  else
    let (taken, queue) := queue.take room
    (some (.ok taken),
      notify { p with
        queues := p.queues.modify s fun _ => queue } s)

------------------------------------------------------------
-- Sending
------------------------------------------------------------

/-
  How far a send has come: the bytes already in the pipe, and
  those still to be put there.
-/
structure Sending where
  written : Nat
  rest : Bytes
deriving DecidableEq, Repr

/-
  One look at the outgoing queue by a send. In this order: the
  end of the stream, the timer, nothing left to write. Then as
  much is put as fits; unless that was all, the caller waits.
-/
def send
    (p : Pipe)
    (s : Side)
    (timer : Timer)
    (now : Instant)
    (sending : Sending) :
    (Except ShortWrite Nat ⊕ Sending) × Pipe :=
  let queue := p.queues.get s.other
  if queue.eof then
    (.inl (.error ⟨sending.written, .endOfStream⟩), p)
  else if timer.hasExpired now then
    (.inl (.error
      ⟨sending.written, .timeout (p.names.get s) .write⟩), p)
  else if sending.rest = [] then (.inl (.ok sending.written), p)
  else
    let (n, queue) := queue.put sending.rest
    if n = 0 then (.inr sending, p)
    else
      let p := notify { p with
        queues := p.queues.modify s.other fun _ => queue } s.other
      let sending :=
        { written := sending.written + n
          rest := sending.rest.drop n }
      if sending.rest = [] then (.inl (.ok sending.written), p)
      else (.inr sending, p)

end Pipe

end Parley
