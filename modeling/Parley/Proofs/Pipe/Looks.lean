import Parley.Pipe.Basic
import Parley.Proofs.Pipe.Queue
/-
  This file says what one hold of the lock can do to a pipe: a
  close, a clear, and one look by a read or by a send. The two
  looks are given as relations with one rule per outcome, so
  that later proofs split on outcomes and never on the code of
  a look.

  Key definitions include:
    * `Pipe.Sound`
    * `Pipe.store`
    * `Pipe.Received`
    * `Pipe.Sent`

  Key theorems include:
    * `Pipe.Sound.pair`
    * `Pipe.Sound.close`
    * `Pipe.Sound.store`
    * `Pipe.received_receive`
    * `Pipe.sent_send`
-/

namespace Parley

------------------------------------------------------------
-- Sides
------------------------------------------------------------

namespace Side

/- There are no more than the two sides. -/
theorem eq_or_eq_other
    (r s : Side) :
    r = s ∨ r = s.other := by
  cases r <;> cases s <;> simp [other]

theorem other_ne
    (s : Side) :
    s.other ≠ s := by
  cases s <;> simp [other]

end Side

namespace Two

variable {α : Type}

/- What stands on the other side of a change does not move. -/
theorem get_modify_of_ne
    {r s : Side}
    (t : Two α)
    (f : α → α)
    (hSides : r ≠ s) :
    (t.modify s f).get r = t.get r := by
  rcases r.eq_or_eq_other s with hSame | rfl
  · exact absurd hSame hSides
  · exact t.get_modify_other s f

end Two

namespace Pipe

------------------------------------------------------------
-- Sound pipes
------------------------------------------------------------

/-
  Both queues have their shape, a queue that was given back
  has ended, and the two directions end together.
-/
structure Sound (p : Pipe) : Prop where
  queue : ∀ s, (p.queues.get s).Sound
  eof_of_isReleased :
    ∀ s, (p.queues.get s).isReleased = true →
      (p.queues.get s).eof = true
  eof_other :
    ∀ s, (p.queues.get s.other).eof = (p.queues.get s).eof

/- The directions end together, whichever two are compared. -/
theorem Sound.eof_eq
    {p : Pipe}
    (hSound : p.Sound)
    (r s : Side) :
    (p.queues.get r).eof = (p.queues.get s).eof := by
  rcases r.eq_or_eq_other s with rfl | rfl
  · rfl
  · exact hSound.eof_other s

/- In a queue that has not ended the storage is still there. -/
theorem Sound.isReleased_eq_false
    {p : Pipe}
    (hSound : p.Sound)
    {s : Side}
    (hEof : (p.queues.get s).eof = false) :
    (p.queues.get s).isReleased = false := by
  apply Bool.eq_false_iff.mpr
  intro hReleased
  have hEnded := hSound.eof_of_isReleased s hReleased
  rw [hEof] at hEnded
  exact Bool.noConfusion hEnded

/- A new pipe is sound, whatever capacity was asked for. -/
theorem Sound.pair
    (nameA nameB : String)
    (capacity : Nat) :
    (Pipe.pair nameA nameB capacity).Sound := by
  have hCap :
      0 < (if capacity = 0 then defaultCapacity else capacity) := by
    split
    · decide
    · omega
  refine ⟨?_, ?_, ?_⟩ <;> intro s <;> cases s
  · exact Half.Sound.empty hCap
  · exact Half.Sound.empty hCap
  · simp [Pipe.pair, Two.get, Half.empty, Half.isReleased]
  · simp [Pipe.pair, Two.get, Half.empty, Half.isReleased]
  · rfl
  · rfl

------------------------------------------------------------
-- Closing
------------------------------------------------------------

/- Closing an end that is closed already changes nothing. -/
theorem close_of_isReleased
    {p : Pipe}
    {s : Side}
    (hReleased : (p.queues.get s).isReleased = true) :
    p.close s = p := by
  simp only [close, hReleased, if_true]

/- A first close gives back the queue that its end reads. -/
theorem queues_close_self
    {p : Pipe}
    {s : Side}
    (hReleased : (p.queues.get s).isReleased = false) :
    (p.close s).queues.get s =
      (p.queues.get s).release.setEof := by
  simp only [close, hReleased, Bool.false_eq_true, if_false,
    notifyAll, Two.get_map, Two.get_modify_self]

/- A first close only marks the queue that the far end reads. -/
theorem queues_close_other
    {p : Pipe}
    {s : Side}
    (hReleased : (p.queues.get s).isReleased = false) :
    (p.close s).queues.get s.other =
      (p.queues.get s.other).setEof := by
  simp only [close, hReleased, Bool.false_eq_true, if_false,
    notifyAll, Two.get_map, Two.get_modify_other]

/- A first close wakes everyone. -/
theorem signals_close
    {p : Pipe}
    {s : Side}
    (hReleased : (p.queues.get s).isReleased = false)
    (r : Side) :
    (p.close s).signals.get r = p.signals.get r + 1 := by
  simp only [close, hReleased, Bool.false_eq_true, if_false,
    notifyAll, Two.get_map]

/- After a close both directions have ended. -/
theorem Sound.eof_close
    {p : Pipe}
    (hSound : p.Sound)
    (s r : Side) :
    ((p.close s).queues.get r).eof = true := by
  cases hReleased : (p.queues.get s).isReleased with
  | true =>
      rw [close_of_isReleased hReleased, hSound.eof_eq r s]
      exact hSound.eof_of_isReleased s hReleased
  | false =>
      rcases r.eq_or_eq_other s with rfl | rfl
      · rw [queues_close_self hReleased]
        rfl
      · rw [queues_close_other hReleased]
        rfl

/- After a close the closing end has nothing left to read. -/
theorem isReleased_close_self
    (p : Pipe)
    (s : Side) :
    ((p.close s).queues.get s).isReleased = true := by
  cases hReleased : (p.queues.get s).isReleased with
  | true =>
      rw [close_of_isReleased hReleased]
      exact hReleased
  | false =>
      rw [queues_close_self hReleased]
      rfl

/- A close keeps the storage that the far end reads. -/
theorem isReleased_close_other
    (p : Pipe)
    (s : Side) :
    ((p.close s).queues.get s.other).isReleased =
      (p.queues.get s.other).isReleased := by
  cases hReleased : (p.queues.get s).isReleased with
  | true => rw [close_of_isReleased hReleased]
  | false =>
      rw [queues_close_other hReleased]
      rfl

/- A close keeps what the far end has not read yet. -/
theorem unread_close_other
    (p : Pipe)
    (s : Side) :
    ((p.close s).queues.get s.other).unread =
      (p.queues.get s.other).unread := by
  cases hReleased : (p.queues.get s).isReleased with
  | true => rw [close_of_isReleased hReleased]
  | false =>
      rw [queues_close_other hReleased]
      rfl

/- Closing keeps a pipe sound. -/
theorem Sound.close
    {p : Pipe}
    (hSound : p.Sound)
    (s : Side) :
    (p.close s).Sound := by
  cases hReleased : (p.queues.get s).isReleased with
  | true =>
      rw [close_of_isReleased hReleased]
      exact hSound
  | false =>
      refine ⟨fun r => ?_, fun r _ => hSound.eof_close s r,
        fun r => ?_⟩
      · rcases r.eq_or_eq_other s with rfl | rfl
        · rw [queues_close_self hReleased]
          exact (hSound.queue r).release.setEof
        · rw [queues_close_other hReleased]
          exact (hSound.queue s.other).setEof
      · rw [hSound.eof_close s r.other, hSound.eof_close s r]

------------------------------------------------------------
-- Clearing
------------------------------------------------------------

/- Clearing keeps a pipe sound. -/
theorem Sound.clear
    {p : Pipe}
    (hSound : p.Sound) :
    p.clear.Sound := by
  have hQueue : ∀ s,
      p.clear.queues.get s = (p.queues.get s).clear := by
    intro s
    simp only [Pipe.clear, notifyAll, Two.get_map]
  refine ⟨fun s => ?_, fun s => ?_, fun s => ?_⟩
  · rw [hQueue]
    exact (hSound.queue s).clear
  · rw [hQueue, Half.isReleased_clear]
    exact hSound.eof_of_isReleased s
  · rw [hQueue, hQueue]
    exact hSound.eof_other s

------------------------------------------------------------
-- Storing a changed queue
------------------------------------------------------------

/-
  Put a changed queue back in its place and wake those who
  wait for it.
-/
def store
    (p : Pipe)
    (s : Side)
    (queue : Half) : Pipe :=
  notify { p with queues := p.queues.modify s fun _ => queue } s

@[simp] theorem queues_store_self
    (p : Pipe)
    (s : Side)
    (queue : Half) :
    (p.store s queue).queues.get s = queue :=
  p.queues.get_modify_self s _

theorem queues_store_of_ne
    {r s : Side}
    (p : Pipe)
    (queue : Half)
    (hSides : r ≠ s) :
    (p.store s queue).queues.get r = p.queues.get r :=
  p.queues.get_modify_of_ne _ hSides

@[simp] theorem signals_store_self
    (p : Pipe)
    (s : Side)
    (queue : Half) :
    (p.store s queue).signals.get s = p.signals.get s + 1 :=
  p.signals.get_modify_self s _

theorem signals_store_of_ne
    {r s : Side}
    (p : Pipe)
    (queue : Half)
    (hSides : r ≠ s) :
    (p.store s queue).signals.get r = p.signals.get r :=
  p.signals.get_modify_of_ne _ hSides

/-
  Storing a queue that ended and was given back no otherwise
  than the one before it keeps a pipe sound.
-/
theorem Sound.store
    {p : Pipe}
    {s : Side}
    {queue : Half}
    (hSound : p.Sound)
    (hQueue : queue.Sound)
    (hEof : queue.eof = (p.queues.get s).eof)
    (hReleased :
      queue.isReleased = (p.queues.get s).isReleased) :
    (p.store s queue).Sound := by
  have hEofs : ∀ r,
      ((p.store s queue).queues.get r).eof =
        (p.queues.get r).eof := by
    intro r
    by_cases hSides : r = s
    · subst hSides
      rw [queues_store_self, hEof]
    · rw [queues_store_of_ne p queue hSides]
  refine ⟨fun r => ?_, fun r => ?_, fun r => ?_⟩
  · by_cases hSides : r = s
    · subst hSides
      rw [queues_store_self]
      exact hQueue
    · rw [queues_store_of_ne p queue hSides]
      exact hSound.queue r
  · rw [hEofs r]
    by_cases hSides : r = s
    · subst hSides
      rw [queues_store_self, hReleased]
      exact hSound.eof_of_isReleased r
    · rw [queues_store_of_ne p queue hSides]
      exact hSound.eof_of_isReleased r
  · rw [hEofs, hEofs]
    exact hSound.eof_other r

------------------------------------------------------------
-- One look by a read
------------------------------------------------------------

/-
  What one look by a read can come to. Each rule says when it
  applies, what is answered and what the pipe is afterwards.
-/
inductive Received
    (p : Pipe)
    (s : Side)
    (timer : Timer)
    (now : Instant)
    (room : Nat) :
    Option (Except PipeError Bytes) × Pipe → Prop where
  | ended
      (hExhausted : (p.queues.get s).isExhausted = true) :
      Received p s timer now room
        (some (.error .endOfStream), p.close s)
  | late
      (hExhausted : (p.queues.get s).isExhausted = false)
      (hTimer : timer.hasExpired now = true) :
      Received p s timer now room
        (some (.error (.timeout (p.names.get s) .read)), p)
  | nothing
      (hExhausted : (p.queues.get s).isExhausted = false)
      (hTimer : timer.hasExpired now = false)
      (hRoom : room = 0) :
      Received p s timer now room (some (.ok []), p)
  | waits
      (hExhausted : (p.queues.get s).isExhausted = false)
      (hTimer : timer.hasExpired now = false)
      (hRoom : room ≠ 0)
      (hUnread : (p.queues.get s).unread = []) :
      Received p s timer now room (none, p)
  | taken
      (hExhausted : (p.queues.get s).isExhausted = false)
      (hTimer : timer.hasExpired now = false)
      (hRoom : room ≠ 0)
      (hUnread : (p.queues.get s).unread ≠ []) :
      Received p s timer now room
        (some (.ok ((p.queues.get s).take room).1),
          p.store s ((p.queues.get s).take room).2)

/- A look by a read comes to one of these. -/
theorem received_receive
    (p : Pipe)
    (s : Side)
    (timer : Timer)
    (now : Instant)
    (room : Nat) :
    Received p s timer now room
      (p.receive s timer now room) := by
  unfold receive
  simp only [Half.pending_eq_length_unread,
    List.length_eq_zero_iff]
  split
  · next hExhausted => exact .ended hExhausted
  · next hExhausted =>
      replace hExhausted := Bool.eq_false_iff.mpr hExhausted
      split
      · next hTimer => exact .late hExhausted hTimer
      · next hTimer =>
          replace hTimer := Bool.eq_false_iff.mpr hTimer
          split
          · next hRoom => exact .nothing hExhausted hTimer hRoom
          · next hRoom =>
              split
              · next hUnread =>
                  exact .waits hExhausted hTimer hRoom hUnread
              · next hUnread =>
                  exact .taken hExhausted hTimer hRoom hUnread

------------------------------------------------------------
-- One look by a send
------------------------------------------------------------

/-
  What one look by a send can come to. As much is put as there
  is room for; only a send that put its last byte does not wait.
-/
inductive Sent
    (p : Pipe)
    (s : Side)
    (timer : Timer)
    (now : Instant)
    (sending : Sending) :
    (Except ShortWrite Nat ⊕ Sending) × Pipe → Prop where
  | ended
      (hEof : (p.queues.get s.other).eof = true) :
      Sent p s timer now sending
        (.inl (.error ⟨sending.written, .endOfStream⟩), p)
  | late
      (hEof : (p.queues.get s.other).eof = false)
      (hTimer : timer.hasExpired now = true) :
      Sent p s timer now sending
        (.inl (.error ⟨sending.written,
          .timeout (p.names.get s) .write⟩), p)
  | nothing
      (hEof : (p.queues.get s.other).eof = false)
      (hTimer : timer.hasExpired now = false)
      (hRest : sending.rest = []) :
      Sent p s timer now sending
        (.inl (.ok sending.written), p)
  | full
      (hEof : (p.queues.get s.other).eof = false)
      (hTimer : timer.hasExpired now = false)
      (hRest : sending.rest ≠ [])
      (hRoom : (p.queues.get s.other).room = 0) :
      Sent p s timer now sending (.inr sending, p)
  | finished
      (hEof : (p.queues.get s.other).eof = false)
      (hTimer : timer.hasExpired now = false)
      (hRest : sending.rest ≠ [])
      (hRoom :
        sending.rest.length ≤ (p.queues.get s.other).room) :
      Sent p s timer now sending
        (.inl (.ok (sending.written + sending.rest.length)),
          p.store s.other
            ((p.queues.get s.other).put sending.rest).2)
  | partly
      (hEof : (p.queues.get s.other).eof = false)
      (hTimer : timer.hasExpired now = false)
      (hSome : (p.queues.get s.other).room ≠ 0)
      (hRoom :
        (p.queues.get s.other).room < sending.rest.length) :
      Sent p s timer now sending
        (.inr
          ⟨sending.written + (p.queues.get s.other).room,
            sending.rest.drop (p.queues.get s.other).room⟩,
          p.store s.other
            ((p.queues.get s.other).put sending.rest).2)

/- A look by a send comes to one of these. -/
theorem Sound.sent_send
    {p : Pipe}
    (hSound : p.Sound)
    (s : Side)
    (timer : Timer)
    (now : Instant)
    (sending : Sending) :
    Sent p s timer now sending (p.send s timer now sending) := by
  have hCount :=
    ((hSound.queue s.other).put_spec sending.rest).1
  unfold send
  simp only [hCount]
  split
  · next hEof => exact .ended hEof
  · next hEof =>
      replace hEof := Bool.eq_false_iff.mpr hEof
      split
      · next hTimer => exact .late hEof hTimer
      · next hTimer =>
          replace hTimer := Bool.eq_false_iff.mpr hTimer
          split
          · next hRest => exact .nothing hEof hTimer hRest
          · next hRest =>
              have hLength : sending.rest.length ≠ 0 := by
                simpa using hRest
              split
              · next hNone =>
                  exact .full hEof hTimer hRest (by omega)
              · next hSome =>
                  split
                  · next hAll =>
                      simp only [List.drop_eq_nil_iff] at hAll
                      have hRoom :
                          sending.rest.length ≤
                            (p.queues.get s.other).room := by
                        omega
                      rw [Nat.min_eq_right hRoom]
                      exact .finished hEof hTimer hRest hRoom
                  · next hLeft =>
                      simp only [List.drop_eq_nil_iff] at hLeft
                      have hRoom :
                          (p.queues.get s.other).room <
                            sending.rest.length := by
                        omega
                      rw [Nat.min_eq_left (Nat.le_of_lt hRoom)]
                      exact .partly hEof hTimer (by omega) hRoom

end Pipe

end Parley
