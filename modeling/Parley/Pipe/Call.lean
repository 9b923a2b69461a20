import Parley.Routine
import Parley.Pipe.Basic
/-
  This file gives the calls that an endpoint offers to whoever
  holds it, and how a call is carried out: it begins, which
  fixes its timer, and then looks at the pipe as often as it is
  woken, until a look answers it.

  Key definitions include:
    * `Call`
    * `Call.Answer`
    * `endpointInterface`
    * `Call.Stage`
    * `Call.begin`
    * `Call.look`

  Key theorems include:
    * `Call.timer_of_look_wait`
-/

namespace Parley

------------------------------------------------------------
-- Calls and answers
------------------------------------------------------------

/- What the holder of an endpoint can ask of it. -/
inductive Call where
  | recv (room : Nat)
  | send (src : Bytes)
  | close
  | clear
  | now
  | setTimeout (timeout : Option Duration)
  | setDeadline (deadline : Option Instant)
  | setReadDeadline (deadline : Option Instant)
  | setWriteDeadline (deadline : Option Instant)
  | timeout
  | isClosed
  | names
deriving DecidableEq, Repr

namespace Call

/-
  The answer to each call; the names are the endpoint's own and
  that of the far end.
-/
abbrev Answer : Call → Type
  | recv _ => Except PipeError Bytes
  | send _ => Except ShortWrite Nat
  | now => Instant
  | timeout => Option Duration
  | isClosed => Bool
  | names => String × String
  | _ => Unit

end Call

/- The interface of an endpoint. -/
def endpointInterface : Interface where
  Op := Call
  Answer := Call.Answer

------------------------------------------------------------
-- Carrying out a call
------------------------------------------------------------

namespace Call

/-
  How far a call has come: its timer, and for a send the bytes
  it has moved and still has.
-/
structure Stage where
  timer : Timer := {}
  sending : Pipe.Sending := ⟨0, []⟩
deriving DecidableEq, Repr

/-
  A call begins by fixing its timer from the limits as they
  stand at that moment.
-/
def begin
    (call : Call)
    (p : Pipe)
    (s : Side)
    (now : Instant) : Stage :=
  match call with
  | recv _ => { timer := p.readTimer s now }
  | send src =>
    { timer := p.writeTimer s now, sending := ⟨0, src⟩ }
  | _ => {}

/-
  What a look at the pipe gives: the answer, or the stage at
  which to wait for a signal.
-/
inductive Look (α : Type) where
  | answer (a : α)
  | wait (stage : Stage)

/- The side whose queue a call waits for. -/
def waitsFor
    (call : Call)
    (s : Side) : Side :=
  match call with
  | send _ => s.other
  | _ => s

/- One hold of the lock by a call. -/
def look
    (call : Call)
    (stage : Stage)
    (p : Pipe)
    (s : Side)
    (now : Instant) : Look call.Answer × Pipe :=
  match call with
  | recv room =>
    match p.receive s stage.timer now room with
    | (some r, p) => (.answer r, p)
    | (none, p) => (.wait stage, p)
  | send _ =>
    match p.send s stage.timer now stage.sending with
    | (.inl r, p) => (.answer r, p)
    | (.inr sending, p) =>
      (.wait { stage with sending := sending }, p)
  | close => (.answer (), p.close s)
  | clear => (.answer (), p.clear)
  | .now => (.answer now, p)
  | setTimeout t =>
    (.answer (), p.setLimits s fun l => { l with timeout := t })
  | setDeadline d =>
    (.answer (),
      p.setLimits s fun l => { l with read := d, write := d })
  | setReadDeadline d =>
    (.answer (), p.setLimits s fun l => { l with read := d })
  | setWriteDeadline d =>
    (.answer (), p.setLimits s fun l => { l with write := d })
  | timeout => (.answer (p.limits.get s).timeout, p)
  | isClosed => (.answer (p.isClosed s), p)
  | names => (.answer (p.names.get s, p.names.get s.other), p)

/-
  Looking again does not change the timer that the call began
  with.
-/
theorem timer_of_look_wait
    {call : Call}
    {stage next : Stage}
    {p q : Pipe}
    {s : Side}
    {now : Instant}
    (h : call.look stage p s now = (.wait next, q)) :
    next.timer = stage.timer := by
  unfold look at h
  split at h <;> first
    | (split at h <;> simp_all <;> (obtain ⟨rfl, -⟩ := h; rfl))
    | simp at h

end Call

end Parley
