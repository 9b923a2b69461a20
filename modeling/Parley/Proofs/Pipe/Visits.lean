import Parley.Pipe.Call
import Parley.Proofs.Pipe.Looks
/-
  This file gives one hold of the lock by a call as a record,
  with what it delivers, accepts and closes, and says once what
  a hold can do to the pipe. Everything that is true of all
  runs is read off these five effects.

  Key definitions include:
    * `Visit`
    * `Visit.delivered`
    * `Visit.accepted`
    * `Visit.closes`
    * `Visit.Effect`

  Key theorems include:
    * `Call.look_recv_of_some`
    * `Call.look_send_of_inl`
    * `Visit.effect`
    * `Visit.sound_after`
-/

namespace Parley

------------------------------------------------------------
-- Looks by reads and by sends
------------------------------------------------------------

namespace Call

section

variable (stage : Stage) {p q : Pipe} {s : Side} {now : Instant}

/- A read is answered when the pipe has an answer. -/
theorem look_recv_of_some
    {room : Nat}
    {a : Except PipeError Bytes}
    (hReceive :
      p.receive s stage.timer now room = (some a, q)) :
    (Call.recv room).look stage p s now = (.answer a, q) := by
  simp only [look, hReceive]

/- A read waits, at the same stage, when the pipe has none. -/
theorem look_recv_of_none
    {room : Nat}
    (hReceive : p.receive s stage.timer now room = (none, q)) :
    (Call.recv room).look stage p s now = (.wait stage, q) := by
  simp only [look, hReceive]

/- A send is answered when the pipe has an answer. -/
theorem look_send_of_inl
    (src : Bytes)
    {a : Except ShortWrite Nat}
    (hSend :
      p.send s stage.timer now stage.sending = (.inl a, q)) :
    (Call.send src).look stage p s now = (.answer a, q) := by
  simp only [look, hSend]

/- A send waits with what it has left when the pipe has none. -/
theorem look_send_of_inr
    (src : Bytes)
    {next : Pipe.Sending}
    (hSend :
      p.send s stage.timer now stage.sending = (.inr next, q)) :
    (Call.send src).look stage p s now =
      (.wait { stage with sending := next }, q) := by
  simp only [look, hSend]

end

------------------------------------------------------------
-- What a look moves
------------------------------------------------------------

/- The bytes that a look answers to a read. -/
def got :
    (call : Call) → Look call.Answer → Bytes
  | .recv _, .answer (.ok bytes) => bytes
  | _, _ => []

/-
  The bytes by which a look brought a send further, by the
  count that its holder is told or that it keeps for later.
-/
def moved :
    (call : Call) → Stage → Look call.Answer → Bytes
  | .send _, stage, .answer (.ok count) =>
    stage.sending.rest.take (count - stage.sending.written)
  | .send _, stage, .answer (.error short) =>
    stage.sending.rest.take
      (short.written - stage.sending.written)
  | .send _, stage, .wait next =>
    stage.sending.rest.take
      (next.sending.written - stage.sending.written)
  | _, _, _ => []

/-
  Whether a look closes its end: a close does, and so does a
  read that is told of the end of the stream.
-/
def ends :
    (call : Call) → Look call.Answer → Bool
  | .close, _ => true
  | .recv _, .answer (.error .endOfStream) => true
  | _, _ => false

end Call

------------------------------------------------------------
-- Holds of the lock
------------------------------------------------------------

/-
  One hold of the lock: the party that has it, its side, its
  call, how far that call has come, the time, and the pipe as
  it is found.
-/
structure Visit (ι : Type) where
  party : ι
  side : Side
  call : Call
  stage : Call.Stage
  now : Instant
  before : Pipe

namespace Visit

variable {ι : Type}

/- What the call comes to, and the pipe as it is left. -/
def outcome
    (v : Visit ι) : Call.Look v.call.Answer × Pipe :=
  v.call.look v.stage v.before v.side v.now

/- The pipe as it is left. -/
def after
    (v : Visit ι) : Pipe :=
  v.outcome.2

/- The bytes that reach whoever reads at side `s`. -/
def delivered
    (v : Visit ι)
    (s : Side) : Bytes :=
  if v.side = s then v.call.got v.outcome.1 else []

/- The bytes that are accepted on their way to side `s`. -/
def accepted
    (v : Visit ι)
    (s : Side) : Bytes :=
  if v.side.other = s then v.call.moved v.stage v.outcome.1
  else []

/- Whether side `s` closes. -/
def closes
    (v : Visit ι)
    (s : Side) : Prop :=
  v.side = s ∧ v.call.ends v.outcome.1 = true

instance
    (v : Visit ι)
    (s : Side) :
    Decidable (v.closes s) := by
  unfold closes
  infer_instance

end Visit

------------------------------------------------------------
-- Effects
------------------------------------------------------------

namespace Visit

variable {ι : Type}

/-
  What a hold of the lock can do. Only a read that finds bytes
  delivers, only a send that finds room accepts, and what is
  delivered or accepted is what leaves or enters the queue.
-/
inductive Effect (v : Visit ι) : Prop where
  | idle
      (hQueues : v.after.queues = v.before.queues)
      (hSignals : v.after.signals = v.before.signals)
      (hCall : v.call ≠ .clear)
      (hCloses : ∀ s, ¬ v.closes s)
      (hDelivered : ∀ s, v.delivered s = [])
      (hAccepted : ∀ s, v.accepted s = [])
  | closed
      (hAfter : v.after = v.before.close v.side)
      (hCall : v.call ≠ .clear)
      (hCloses : ∀ s, v.closes s ↔ v.side = s)
      (hDelivered : ∀ s, v.delivered s = [])
      (hAccepted : ∀ s, v.accepted s = [])
  | cleared
      (hAfter : v.after = v.before.clear)
      (hCall : v.call = .clear)
      (hCloses : ∀ s, ¬ v.closes s)
      (hDelivered : ∀ s, v.delivered s = [])
      (hAccepted : ∀ s, v.accepted s = [])
  | taken
      (room : Nat)
      (hRoom : room ≠ 0)
      (hUnread : (v.before.queues.get v.side).unread ≠ [])
      (hAfter :
        v.after = v.before.store v.side
          ((v.before.queues.get v.side).take room).2)
      (hCall : v.call ≠ .clear)
      (hCloses : ∀ s, ¬ v.closes s)
      (hDelivered : ∀ s,
        v.delivered s =
          if v.side = s then
            (v.before.queues.get v.side).unread.take room
          else [])
      (hAccepted : ∀ s, v.accepted s = [])
  | added
      (rest : Bytes)
      (hEof : (v.before.queues.get v.side.other).eof = false)
      (hAfter :
        v.after = v.before.store v.side.other
          ((v.before.queues.get v.side.other).put rest).2)
      (hCall : v.call ≠ .clear)
      (hCloses : ∀ s, ¬ v.closes s)
      (hDelivered : ∀ s, v.delivered s = [])
      (hAccepted : ∀ s,
        v.accepted s =
          if v.side.other = s then
            rest.take (v.before.queues.get v.side.other).room
          else [])

/-
  A hold that touches no queue, delivers nothing and closes
  nothing is idle. All calls but four are of this kind.
-/
theorem effect_of_unmoved
    {v : Visit ι}
    (hQueues : v.after.queues = v.before.queues)
    (hSignals : v.after.signals = v.before.signals)
    (hCall : v.call ≠ .clear)
    (hEnds : v.call.ends v.outcome.1 = false)
    (hGot : v.call.got v.outcome.1 = [])
    (hMoved : v.call.moved v.stage v.outcome.1 = []) :
    v.Effect := by
  refine .idle hQueues hSignals hCall ?_ ?_ ?_
  · intro s hCloses
    rw [closes, hEnds] at hCloses
    exact Bool.noConfusion hCloses.2
  · intro s
    simp only [delivered, hGot, ite_self]
  · intro s
    simp only [accepted, hMoved, ite_self]

/- What a hold by a read can do. -/
theorem effect_recv
    (party : ι)
    (side : Side)
    (room : Nat)
    (stage : Call.Stage)
    (now : Instant)
    (pipe : Pipe) :
    (Visit.mk party side (.recv room) stage now pipe).Effect := by
  have hFound := pipe.received_receive side stage.timer now room
  generalize hReceive :
    pipe.receive side stage.timer now room = received at hFound
  cases hFound with
  | ended hExhausted =>
      have hLook := Call.look_recv_of_some stage hReceive
      refine .closed ?_ ?_ ?_ ?_ ?_ <;>
        simp [after, closes, delivered, accepted, outcome, hLook,
          Call.ends, Call.got, Call.moved]
  | late =>
      have hLook := Call.look_recv_of_some stage hReceive
      apply effect_of_unmoved <;>
        simp [after, outcome, hLook, Call.ends, Call.got,
          Call.moved]
  | nothing =>
      have hLook := Call.look_recv_of_some stage hReceive
      apply effect_of_unmoved <;>
        simp [after, outcome, hLook, Call.ends, Call.got,
          Call.moved]
  | waits =>
      have hLook := Call.look_recv_of_none stage hReceive
      apply effect_of_unmoved <;>
        simp [after, outcome, hLook, Call.ends, Call.got,
          Call.moved]
  | taken hExhausted hTimer hRoom hUnread =>
      have hLook := Call.look_recv_of_some stage hReceive
      refine .taken room hRoom hUnread ?_ ?_ ?_ ?_ ?_ <;>
        simp [after, closes, delivered, accepted, outcome, hLook,
          Call.ends, Call.got, Call.moved, Half.take_fst]

/- What a hold by a send can do. -/
theorem effect_send
    (party : ι)
    (side : Side)
    (src : Bytes)
    (stage : Call.Stage)
    (now : Instant)
    {pipe : Pipe}
    (hSound : pipe.Sound) :
    (Visit.mk party side (.send src) stage now pipe).Effect := by
  have hFound :=
    hSound.sent_send side stage.timer now stage.sending
  generalize hSend :
    pipe.send side stage.timer now stage.sending = sent at hFound
  cases hFound with
  | ended =>
      have hLook := Call.look_send_of_inl stage src hSend
      apply effect_of_unmoved <;>
        simp [after, outcome, hLook, Call.ends, Call.got,
          Call.moved]
  | late =>
      have hLook := Call.look_send_of_inl stage src hSend
      apply effect_of_unmoved <;>
        simp [after, outcome, hLook, Call.ends, Call.got,
          Call.moved]
  | nothing =>
      have hLook := Call.look_send_of_inl stage src hSend
      apply effect_of_unmoved <;>
        simp [after, outcome, hLook, Call.ends, Call.got,
          Call.moved]
  | full =>
      have hLook := Call.look_send_of_inr stage src hSend
      apply effect_of_unmoved <;>
        simp [after, outcome, hLook, Call.ends, Call.got,
          Call.moved]
  | finished hEof hTimer hRest hRoom =>
      have hLook := Call.look_send_of_inl stage src hSend
      refine .added stage.sending.rest hEof ?_ ?_ ?_ ?_ ?_ <;>
        simp [after, closes, delivered, accepted, outcome, hLook,
          Call.ends, Call.got, Call.moved,
          List.take_of_length_le hRoom]
  | partly hEof =>
      have hLook := Call.look_send_of_inr stage src hSend
      refine .added stage.sending.rest hEof ?_ ?_ ?_ ?_ ?_ <;>
        simp [after, closes, delivered, accepted, outcome, hLook,
          Call.ends, Call.got, Call.moved]

/- Every hold of the lock has one of the effects. -/
theorem effect
    (v : Visit ι)
    (hSound : v.before.Sound) :
    v.Effect := by
  rcases v with ⟨party, side, call, stage, now, pipe⟩
  cases call with
  | recv room => exact effect_recv party side room stage now pipe
  | send src => exact effect_send party side src stage now hSound
  | close =>
      refine .closed rfl ?_ ?_ ?_ ?_ <;>
        simp [closes, delivered, accepted, Call.ends, Call.got,
          Call.moved]
  | clear =>
      refine .cleared rfl rfl ?_ ?_ ?_ <;>
        simp [closes, delivered, accepted, Call.ends, Call.got,
          Call.moved]
  | _ =>
      apply effect_of_unmoved <;>
        simp [after, outcome, Call.look, Pipe.setLimits,
          Call.ends, Call.got, Call.moved]

------------------------------------------------------------
-- What every hold keeps
------------------------------------------------------------

/- Every hold of the lock leaves a sound pipe sound. -/
theorem sound_after
    {v : Visit ι}
    (hSound : v.before.Sound) :
    v.after.Sound := by
  cases v.effect hSound with
  | idle hQueues =>
      refine ⟨?_, ?_, ?_⟩ <;> rw [hQueues]
      · exact hSound.queue
      · exact hSound.eof_of_isReleased
      · exact hSound.eof_other
  | closed hAfter =>
      rw [hAfter]
      exact hSound.close v.side
  | cleared hAfter =>
      rw [hAfter]
      exact hSound.clear
  | taken room _ _ hAfter =>
      rcases (hSound.queue v.side).take_spec room with
        ⟨-, hEof, -, hReleased, hQueue⟩
      rw [hAfter]
      exact hSound.store hQueue hEof hReleased
  | added rest _ hAfter =>
      rcases (hSound.queue v.side.other).put_spec rest with
        ⟨-, -, hEof, -, hReleased, hQueue⟩
      rw [hAfter]
      exact hSound.store hQueue hEof hReleased

end Visit

end Parley
