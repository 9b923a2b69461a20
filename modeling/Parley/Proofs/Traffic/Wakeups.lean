import Parley.Proofs.Traffic.Closing
/-
  This file shows that no wakeup is lost: a party that waits
  although nobody signalled since it looked waits for good
  reason, be it a read with nothing to read or a send that
  found bytes in its way, in a pipe that has not ended.

  A visit that changes a queue signals those who wait for it,
  so for each waiting party either a signal is pending or its
  queue is still as the party left it.

  Key definitions include:
    * `Call.Blocked`
    * `Party.Heeds`

  Key theorems include:
    * `Visit.blocked_after_of_wait`
    * `Visit.queue_eq_or_signals_lt`
    * `Party.Heeds.visit`
    * `Traffic.Run.heeds`
    * `Traffic.Run.asleep_spec`
-/

namespace Parley

------------------------------------------------------------
-- Reasons to wait
------------------------------------------------------------

/-
  What a call that waits for a queue waits for: bytes to come
  for a read, bytes to go for a send. No other call waits.
-/
def Call.Blocked :
    (call : Call) → (queue : Half) → Prop
  | .recv _, queue => queue.eof = false ∧ queue.unread = []
  | .send _, queue => queue.eof = false ∧ queue.unread ≠ []
  | _, _ => False

namespace Half

/- A queue that is not exhausted but empty has not ended. -/
theorem eof_eq_false_of_unread_eq_nil
    {h : Half}
    (hExhausted : h.isExhausted = false)
    (hUnread : h.unread = []) :
    h.eof = false := by
  have hPending : h.pending = 0 := by
    rw [h.pending_eq_length_unread, hUnread]
    rfl
  simp only [isExhausted, hPending, Bool.or_eq_false_iff]
    at hExhausted
  simpa using hExhausted.2

end Half

namespace Pipe

variable {p q : Pipe} {s : Side} {timer : Timer} {now : Instant}

/- A read that waits has nothing to read. -/
theorem blocked_of_receive
    {room : Nat}
    (hWaits : p.receive s timer now room = (none, q)) :
    (Call.recv room).Blocked (q.queues.get s) := by
  have hLook := p.received_receive s timer now room
  rw [hWaits] at hLook
  cases hLook with
  | waits hExhausted _ _ hUnread =>
      exact ⟨Half.eof_eq_false_of_unread_eq_nil hExhausted
        hUnread, hUnread⟩

/-
  A send that waits has bytes in its way: it found the queue
  full, or has just put some bytes itself.
-/
theorem Sound.blocked_of_send
    {src : Bytes}
    {sending next : Sending}
    (hSound : p.Sound)
    (hWaits : p.send s timer now sending = (.inr next, q)) :
    (Call.send src).Blocked (q.queues.get s.other) := by
  have hLook := hSound.sent_send s timer now sending
  have hQueue := hSound.queue s.other
  rw [hWaits] at hLook
  cases hLook with
  | full hEof _ _ hNone =>
      have hReleased := hSound.isReleased_eq_false hEof
      rw [hQueue.room_eq_zero_iff hReleased] at hNone
      refine ⟨hEof, fun hUnread => ?_⟩
      rw [hUnread] at hNone
      exact absurd hNone (Nat.ne_of_lt hQueue.cap_pos)
  | partly hEof _ hSome hShort =>
      rcases hQueue.put_spec sending.rest with
        ⟨-, hUnread, hSame, -⟩
      refine ⟨by rw [queues_store_self, hSame, hEof], ?_⟩
      rw [queues_store_self, hUnread]
      intro hNil
      have hTaken := (List.append_eq_nil_iff.mp hNil).2
      rw [List.take_eq_nil_iff] at hTaken
      rcases hTaken with hNone | hRest
      · exact hSome hNone
      · rw [hRest] at hShort
        exact Nat.not_lt_zero _ hShort

end Pipe

------------------------------------------------------------
-- What one visit tells the others
------------------------------------------------------------

namespace Visit

variable {ι : Type}

/- A call that waits leaves behind the reason for it. -/
theorem blocked_after_of_wait
    {v : Visit ι}
    {next : Call.Stage}
    (hSound : v.before.Sound)
    (hWaits : v.outcome.1 = .wait next) :
    v.call.Blocked
      (v.after.queues.get (v.call.waitsFor v.side)) := by
  rcases v with ⟨party, side, call, stage, now, pipe⟩
  cases call with
  | recv room =>
      generalize hReceive :
        pipe.receive side stage.timer now room = received
      rcases received with ⟨_ | a, q⟩
      · rw [after, outcome, Call.look_recv_of_none stage hReceive]
        exact Pipe.blocked_of_receive hReceive
      · rw [outcome, Call.look_recv_of_some stage hReceive]
          at hWaits
        cases hWaits
  | send src =>
      generalize hSend :
        pipe.send side stage.timer now stage.sending = sent
      rcases sent with ⟨a | further, q⟩
      · rw [outcome, Call.look_send_of_inl stage src hSend]
          at hWaits
        cases hWaits
      · rw [after, outcome, Call.look_send_of_inr stage src hSend]
        exact hSound.blocked_of_send hSend
  | _ => cases hWaits

/-
  A visit leaves a queue as it was, with no signal for it, or
  signals those who wait for it.
-/
theorem queue_eq_or_signals_lt
    {v : Visit ι}
    (hSound : v.before.Sound)
    (s : Side) :
    (v.after.queues.get s = v.before.queues.get s ∧
      v.after.signals.get s = v.before.signals.get s) ∨
    v.before.signals.get s < v.after.signals.get s := by
  cases v.effect hSound with
  | idle hQueues hSignals =>
      rw [hQueues, hSignals]
      exact .inl ⟨rfl, rfl⟩
  | closed hAfter =>
      rw [hAfter]
      cases hReleased :
          (v.before.queues.get v.side).isReleased with
      | true =>
          rw [Pipe.close_of_isReleased hReleased]
          exact .inl ⟨rfl, rfl⟩
      | false =>
          rw [Pipe.signals_close hReleased]
          exact .inr (Nat.lt_succ_self _)
  | cleared hAfter =>
      rw [hAfter]
      simp only [Pipe.clear, Pipe.notifyAll, Two.get_map]
      exact .inr (Nat.lt_succ_self _)
  | taken room _ _ hAfter =>
      rw [hAfter]
      by_cases hSides : s = v.side
      · subst hSides
        rw [Pipe.signals_store_self]
        exact .inr (Nat.lt_succ_self _)
      · rw [Pipe.queues_store_of_ne _ _ hSides,
          Pipe.signals_store_of_ne _ _ hSides]
        exact .inl ⟨rfl, rfl⟩
  | added rest _ hAfter =>
      rw [hAfter]
      by_cases hSides : s = v.side.other
      · subst hSides
        rw [Pipe.signals_store_self]
        exact .inr (Nat.lt_succ_self _)
      · rw [Pipe.queues_store_of_ne _ _ hSides,
          Pipe.signals_store_of_ne _ _ hSides]
        exact .inl ⟨rfl, rfl⟩

end Visit

------------------------------------------------------------
-- Parties that heed the signals
------------------------------------------------------------

namespace Party

/-
  A waiting party has seen no signals that are yet to come, and
  if it has seen them all it has a reason to wait.
-/
def Heeds
    {α : Type}
    (s : Side)
    (p : Pipe) :
    (party : Party α) → Prop
  | .ready _ => True
  | .held call _ seen _ =>
    seen ≤ p.signals.get (call.waitsFor s) ∧
      (p.signals.get (call.waitsFor s) = seen →
        call.Blocked (p.queues.get (call.waitsFor s)))

variable {ι α : Type}

/- A party heeds the signals while others visit the pipe. -/
theorem Heeds.visit
    {party : Party α}
    {s : Side}
    {v : Visit ι}
    (hSound : v.before.Sound)
    (hHeeds : party.Heeds s v.before) :
    party.Heeds s v.after := by
  cases party with
  | ready => trivial
  | held call stage seen k =>
      rcases hHeeds with ⟨hSeen, hBlocked⟩
      rcases v.queue_eq_or_signals_lt hSound (call.waitsFor s)
        with ⟨hQueue, hSignals⟩ | hSignals
      · rw [Heeds, hQueue, hSignals]
        exact ⟨hSeen, hBlocked⟩
      · refine ⟨by omega, fun hAll => ?_⟩
        omega

end Party

namespace Traffic

variable {ι : Type} {R : ι → Type}

/- Who is asleep in a call has a reason to wait. -/
theorem Asleep.blocked
    {seat : ι → Side}
    {t : Traffic R}
    {i : ι}
    {call : Call}
    (hHeeds : (t.parties i).Heeds (seat i) t.pipe)
    (hAsleep : Asleep seat t i call) :
    call.Blocked
      (t.pipe.queues.get (call.waitsFor (seat i))) := by
  rcases hAsleep with ⟨stage, seen, k, hParty, hSignals⟩
  rw [hParty] at hHeeds
  exact hHeeds.2 hSignals

variable [DecidableEq ι]

/- After a visit every party heeds the signals. -/
theorem heeds_conclude
    {seat : ι → Side}
    {t : Traffic R}
    (v : Visit ι)
    (k : v.call.Answer →
      Routine endpointInterface (R v.party))
    (hBefore : v.before = t.pipe)
    (hSide : v.side = seat v.party)
    (hSound : t.pipe.Sound)
    (hHeeds : ∀ i, (t.parties i).Heeds (seat i) t.pipe)
    (i : ι) :
    ((t.conclude v k).parties i).Heeds (seat i) v.after := by
  rw [← hBefore] at hSound hHeeds
  by_cases hParty : i = v.party
  · subst hParty
    rw [conclude_parties_self, ← hSide]
    cases hOutcome : v.outcome.1 with
    | answer => trivial
    | wait next =>
        exact ⟨Nat.le_refl _, fun _ =>
          v.blocked_after_of_wait hSound hOutcome⟩
  · rw [conclude_parties_of_ne t v k hParty]
    exact (hHeeds i).visit hSound

/- In every reachable state every party heeds the signals. -/
theorem Run.heeds
    {seat : ι → Side}
    {pipe : Pipe}
    {routines : (i : ι) → Routine endpointInterface (R i)}
    {log : List (Visit ι)}
    {t : Traffic R}
    (hRun : Run seat (new pipe routines) log t)
    (hSound : pipe.Sound) :
    ∀ i, (t.parties i).Heeds (seat i) t.pipe := by
  induction hRun with
  | refl => exact fun _ => trivial
  | @advance log t i began now _ _ hRun ih =>
      have hThere := hRun.sound hSound
      have hStep := t.advanced_advance seat i began now
      generalize t.advance seat i began now = step at hStep ⊢
      cases hStep with
      | rests => exact ih
      | around body s k =>
          intro j
          by_cases hParty : j = i
          · subst hParty
            simp only [Function.update_self, Party.Heeds]
          · simp only [Function.update_of_ne hParty]
            exact ih j
      | begins call k =>
          exact heeds_conclude ⟨i, seat i, call, _, now, t.pipe⟩ k
            rfl rfl hThere ih
      | resumes call stage seen k =>
          exact heeds_conclude ⟨i, seat i, call, _, now, t.pipe⟩ k
            rfl rfl hThere ih

------------------------------------------------------------
-- No wakeup is lost
------------------------------------------------------------

/-
  For every capacity, any number of parties with whatever
  routines, and every order of their holds of the lock: who is
  asleep in a read has nothing to read, who is asleep in a send
  has bytes in its way, and neither waits for a direction that
  has ended. So a reader and a writer of one direction are
  never both asleep, and nobody is asleep after a close.
-/
theorem Run.asleep_spec
    {seat : ι → Side}
    {nameA nameB : String}
    {capacity : Nat}
    {routines : (i : ι) → Routine endpointInterface (R i)}
    {log : List (Visit ι)}
    {t : Traffic R}
    (hRun :
      Run seat (new (.pair nameA nameB capacity) routines)
        log t) :
    (∀ i room, Asleep seat t i (.recv room) →
      (t.pipe.queues.get (seat i)).isExhausted = false ∧
        (t.pipe.queues.get (seat i)).eof = false ∧
        (t.pipe.queues.get (seat i)).unread = []) ∧
    (∀ i src, Asleep seat t i (.send src) →
      (t.pipe.queues.get (seat i).other).isExhausted = false ∧
        (t.pipe.queues.get (seat i).other).eof = false ∧
        (t.pipe.queues.get (seat i).other).unread ≠ []) ∧
    (∀ i j room src,
      seat i = (seat j).other →
      Asleep seat t i (.recv room) →
        ¬ Asleep seat t j (.send src)) ∧
    ((∃ v ∈ log, ∃ r, v.closes r) →
      ∀ i call, ¬ Asleep seat t i call) := by
  have hSound := hRun.sound (.pair nameA nameB capacity)
  have hHeeds := hRun.heeds (.pair nameA nameB capacity)
  have hOpen : ∀ s, (t.pipe.queues.get s).eof = false →
      (t.pipe.queues.get s).isExhausted = false := by
    intro s hEof
    have hThere := hSound.isReleased_eq_false hEof
    rw [Half.isReleased] at hThere
    rw [Half.isExhausted, hThere, hEof]
    rfl
  refine ⟨fun i room hAsleep => ?_, fun i src hAsleep => ?_,
    fun i j room src hSeats hReader hWriter => ?_,
    fun hClosed i call hAsleep => ?_⟩
  · rcases hAsleep.blocked (hHeeds i) with ⟨hEof, hUnread⟩
    exact ⟨hOpen _ hEof, hEof, hUnread⟩
  · rcases hAsleep.blocked (hHeeds i) with ⟨hEof, hUnread⟩
    exact ⟨hOpen _ hEof, hEof, hUnread⟩
  · rcases hReader.blocked (hHeeds i) with ⟨-, hNothing⟩
    rcases hWriter.blocked (hHeeds j) with ⟨-, hSomething⟩
    simp only [Call.waitsFor, hSeats] at hNothing hSomething
    exact hSomething hNothing
  · have hEnded := (hRun.eof_iff (call.waitsFor (seat i))).mpr
      hClosed
    have hBlocked := hAsleep.blocked (hHeeds i)
    cases call with
    | recv =>
        rw [hBlocked.1] at hEnded
        exact Bool.noConfusion hEnded
    | send =>
        rw [hBlocked.1] at hEnded
        exact Bool.noConfusion hEnded
    | _ => exact hBlocked

/- A send of three bytes into two places, and a close. -/
def sleepingRoutines :
    Side → Routine endpointInterface Unit
  | .a => (Endpoint.put [1, 2, 3]).bind fun _ => .done ()
  | .b => Endpoint.close

/- Follow an order of these two. -/
def sleepingRun
    (order : List Side) :
    List (Visit Side) × Traffic (fun _ : Side => Unit) :=
  play id order
    (new (.pair "left" "right" 2) sleepingRoutines)

theorem asleep_spec_of_sleeping :
    Asleep id (sleepingRun [.a]).2 .a (.send [1, 2, 3]) ∧
      ((sleepingRun [.a]).2.pipe.queues.get .b).unread ≠ [] ∧
      ¬ Asleep id (sleepingRun [.a, .b]).2 .a
        (.send [1, 2, 3]) := by
  have hAsleep :
      Asleep id (sleepingRun [.a]).2 .a (.send [1, 2, 3]) :=
    ⟨_, _, _, rfl, rfl⟩
  rcases Run.asleep_spec (run_play id [.a]
      (new (.pair "left" "right" 2) sleepingRoutines)) with
    ⟨-, hWriters, -⟩
  rcases Run.asleep_spec (run_play id [.a, .b]
      (new (.pair "left" "right" 2) sleepingRoutines)) with
    ⟨-, -, -, hClosed⟩
  have hMember :
      ∃ v ∈ (sleepingRun [.a, .b]).1, v.closes .b := by
    decide
  rcases hMember with ⟨v, hMember, hCloses⟩
  exact ⟨hAsleep, (hWriters .a _ hAsleep).2.2,
    hClosed ⟨v, hMember, .b, hCloses⟩ .a _⟩

end Traffic

end Parley
