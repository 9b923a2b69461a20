import Parley.Proofs.Pipe.Visits
/-
  This file follows a read and a send through one hold of the
  lock in an open pipe, where no time limit is set for them. A
  read takes some of what is unread, or waits. A send has put
  all its bytes into the pipe, or some of them, and waits.

  Key definitions include:
    * `Visit.Steady`

  Key theorems include:
    * `Call.timer_begin`
    * `Visit.steady_recv`
    * `Visit.steady_send`
-/

namespace Parley

/- Where no time limit is set a call begins without one. -/
theorem Call.timer_begin
    {p : Pipe}
    (hLimits : p.limits = ⟨{}, {}⟩)
    (call : Call)
    (s : Side)
    (began : Instant) :
    (call.begin p s began).timer = {} := by
  have hSide : p.limits.get s = {} := by
    rw [hLimits]
    cases s <;> rfl
  cases call with
  | recv room =>
      simp only [begin, Pipe.readTimer, hSide]
      rfl
  | send src =>
      simp only [begin, Pipe.writeTimer, hSide]
      rfl
  | _ => rfl

namespace Visit

variable {ι : Type}

/-
  What a hold of the lock comes to that ends nothing: its look,
  the bytes that reach its own side, and those that are on their
  way to the other. No time limit is touched by it.
-/
structure Steady
    (v : Visit ι)
    (look : Call.Look v.call.Answer)
    (got moved : Bytes) : Prop where
  outcome_eq : v.outcome.1 = look
  delivered_eq : v.delivered v.side = got
  accepted_eq : v.accepted v.side.other = moved
  call_ne : v.call ≠ .clear
  not_closes : ∀ s, ¬ v.closes s
  limits : v.after.limits = v.before.limits

variable {side : Side} {stage : Call.Stage} {pipe : Pipe}
variable (party : ι) (now : Instant)

/- A read that has room takes what is there, or waits for it. -/
theorem steady_recv
    {room : Nat}
    (hTimer : stage.timer = {})
    (hSound : pipe.Sound)
    (hEof : (pipe.queues.get side).eof = false)
    (hRoom : 0 < room) :
    Steady (Visit.mk party side (.recv room) stage now pipe)
        (.wait stage) [] [] ∨
      ∃ chunk,
        chunk ≠ [] ∧ chunk.length ≤ room ∧
          chunk <+: (pipe.queues.get side).unread ∧
          Steady (Visit.mk party side (.recv room) stage now pipe)
            (.answer (.ok chunk)) chunk [] := by
  have hReleased := hSound.isReleased_eq_false hEof
  have hFound := pipe.received_receive side stage.timer now room
  generalize hReceive :
    pipe.receive side stage.timer now room = received at hFound
  cases hFound with
  | ended hExhausted =>
      rw [Half.isReleased] at hReleased
      simp [Half.isExhausted, hReleased, hEof] at hExhausted
  | late _ hLate => simp [hTimer, Timer.hasExpired] at hLate
  | nothing _ _ hNone => exact absurd hNone (Nat.ne_of_gt hRoom)
  | waits =>
      left
      have hLook := Call.look_recv_of_none stage hReceive
      constructor <;>
        simp [outcome, after, delivered, accepted, closes, hLook,
          Call.ends, Call.got, Call.moved]
  | taken _ _ hRoom hUnread =>
      right
      have hLook := Call.look_recv_of_some stage hReceive
      refine ⟨(pipe.queues.get side).unread.take room, ?_,
        List.length_take_le room _, List.take_prefix room _, ?_⟩
      · rw [ne_eq, List.take_eq_nil_iff, not_or]
        exact ⟨hRoom, hUnread⟩
      · constructor <;>
          simp [outcome, after, delivered, accepted, closes, hLook,
            Call.ends, Call.got, Call.moved, Half.take_fst,
            Pipe.store, Pipe.notify]

variable {src : Bytes} {written : Nat}

/- A send by which nothing is left is answered. -/
theorem steady_of_sent
    {q : Pipe}
    (hLook :
      (Call.send src).look ⟨{}, written, src.drop written⟩
          pipe side now =
        (.answer (.ok src.length), q))
    (hLimits : q.limits = pipe.limits) :
    Steady
      (Visit.mk party side (.send src)
        ⟨{}, written, src.drop written⟩ now pipe)
      (.answer (.ok src.length)) [] (src.drop written) := by
  have hAll :
      (src.drop written).take (src.length - written) =
        src.drop written := by
    apply List.take_of_length_le
    exact Nat.le_of_eq List.length_drop
  constructor <;>
    simp [outcome, after, delivered, accepted, closes, hLook,
      hLimits, hAll, Call.ends, Call.got, Call.moved]

/- A send by which something is left waits with it. -/
theorem steady_of_partly_sent
    {q : Pipe}
    (count : Nat)
    (hLook :
      (Call.send src).look ⟨{}, written, src.drop written⟩
          pipe side now =
        (.wait ⟨{}, written + count,
          (src.drop written).drop count⟩, q))
    (hLimits : q.limits = pipe.limits) :
    Steady
      (Visit.mk party side (.send src)
        ⟨{}, written, src.drop written⟩ now pipe)
      (.wait ⟨{}, written + count, src.drop (written + count)⟩)
      [] ((src.drop written).take count) := by
  rw [List.drop_drop] at hLook
  constructor <;>
    simp [outcome, after, delivered, accepted, closes, hLook,
      hLimits, Call.ends, Call.got, Call.moved]

/- A send has put all its bytes into the pipe, or waits. -/
theorem steady_send
    (hWritten : written ≤ src.length)
    (hSound : pipe.Sound)
    (hEof : (pipe.queues.get side.other).eof = false) :
    Steady
        (Visit.mk party side (.send src)
          ⟨{}, written, src.drop written⟩ now pipe)
        (.answer (.ok src.length)) [] (src.drop written) ∨
      ∃ count,
        written + count < src.length ∧
          Steady
            (Visit.mk party side (.send src)
              ⟨{}, written, src.drop written⟩ now pipe)
            (.wait
              ⟨{}, written + count, src.drop (written + count)⟩)
            [] ((src.drop written).take count) := by
  have hFound := hSound.sent_send side {} now
    ⟨written, src.drop written⟩
  generalize hSend :
    pipe.send side {} now ⟨written, src.drop written⟩ = sent
    at hFound
  cases hFound with
  | ended hEnded => simp [hEof] at hEnded
  | late _ hLate => simp [Timer.hasExpired] at hLate
  | nothing _ _ hNone =>
      have hAll : written = src.length := by
        rw [List.drop_eq_nil_iff] at hNone
        exact Nat.le_antisymm hWritten hNone
      subst hAll
      have hLook := Call.look_send_of_inl
        ⟨{}, src.length, src.drop src.length⟩ src hSend
      exact .inl (steady_of_sent party now hLook rfl)
  | full _ _ hSome =>
      rw [ne_eq, List.drop_eq_nil_iff, Nat.not_le] at hSome
      have hLook := Call.look_send_of_inr
        ⟨{}, written, src.drop written⟩ src hSend
      exact .inr ⟨0, hSome, steady_of_partly_sent party now 0 hLook rfl⟩
  | finished =>
      have hAll :
          written + (src.drop written).length = src.length := by
        rw [List.length_drop]
        omega
      have hLook := Call.look_send_of_inl
        ⟨{}, written, src.drop written⟩ src hSend
      simp only [hAll] at hLook
      exact .inl (steady_of_sent party now hLook rfl)
  | partly _ _ _ hShort =>
      have hLook := Call.look_send_of_inr
        ⟨{}, written, src.drop written⟩ src hSend
      rw [List.length_drop] at hShort
      exact .inr ⟨_, by omega,
        steady_of_partly_sent party now _ hLook rfl⟩

end Visit

end Parley
