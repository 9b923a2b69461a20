import Parley.Proofs.Traffic.Closing
/-
  This file says when a send waits. The unread bytes of a queue
  may end before its storage does while places that were read
  lie in front of them. A send that reaches past the end of
  such a storage fills it to the end and then waits, although
  all of its bytes have a place; any other send that fits is
  answered at its first look.

  Key definitions include:
    * `Half.Overruns`

  Key theorems include:
    * `Half.Sound.length_le_room`
    * `Pipe.Sound.send_of_length_le_room`
    * `Pipe.Sound.send_of_room_lt_length`
    * `Pipe.Sound.length_unread_add_off_of_send`
    * `Pipe.Sound.look_of_length_le_room`
    * `Pipe.Sound.look_of_room_lt_length`
    * `Traffic.Run.look_send_of_fits`
-/

namespace Parley

------------------------------------------------------------
-- Bytes that reach past the end of a storage
------------------------------------------------------------

namespace Half

/-
  The storage has places left at its end, but fewer than there
  are bytes to be put.
-/
def Overruns
    (h : Half)
    (src : Bytes) : Prop :=
  h.stored < h.cap ∧ h.cap < h.stored + src.length

/- What fits and does not reach past the end has room. -/
theorem Sound.length_le_room
    {h : Half}
    {src : Bytes}
    (hSound : h.Sound)
    (hReleased : h.isReleased = false)
    (hFits : h.unread.length + src.length ≤ h.cap)
    (hWithin : ¬ h.Overruns src) :
    src.length ≤ h.room := by
  have hStored := hSound.stored_le_cap
  rw [hSound.room_eq hReleased]
  rw [Overruns, not_and_or] at hWithin
  split <;> omega

/- What reaches past the end has room only up to there. -/
theorem Sound.room_of_overruns
    {h : Half}
    {src : Bytes}
    (hSound : h.Sound)
    (hReleased : h.isReleased = false)
    (hOverruns : h.Overruns src) :
    h.room = h.cap - h.stored ∧
      h.room ≠ 0 ∧
      h.room < src.length := by
  have hRoom := hSound.room_eq hReleased
  rcases hOverruns with ⟨hPlaces, hPast⟩
  rw [if_neg (Nat.ne_of_lt hPlaces)] at hRoom
  exact ⟨hRoom, by omega, by omega⟩

end Half

------------------------------------------------------------
-- Looks by a send
------------------------------------------------------------

namespace Pipe

section

variable {p : Pipe} {s : Side} {timer : Timer} {now : Instant}
variable {src : Bytes}

/- A send that has room for all its bytes is answered. -/
theorem Sound.send_of_length_le_room
    (hSound : p.Sound)
    (written : Nat)
    (hEof : (p.queues.get s.other).eof = false)
    (hTimer : timer.hasExpired now = false)
    (hRoom : src.length ≤ (p.queues.get s.other).room) :
    ∃ q,
      p.send s timer now ⟨written, src⟩ =
          (.inl (.ok (written + src.length)), q) ∧
        (q.queues.get s.other).unread =
          (p.queues.get s.other).unread ++ src := by
  have hFound := hSound.sent_send s timer now ⟨written, src⟩
  generalize p.send s timer now ⟨written, src⟩ = sent at hFound ⊢
  cases hFound with
  | ended hEnded => simp [hEof] at hEnded
  | late _ hLate => simp [hTimer] at hLate
  | nothing _ _ hRest =>
      have hNil : src = [] := hRest
      subst hNil
      exact ⟨p, rfl, (List.append_nil _).symm⟩
  | full _ _ hRest hNone =>
      rw [hNone, Nat.le_zero, List.length_eq_zero_iff] at hRoom
      exact absurd hRoom hRest
  | finished =>
      rcases (hSound.queue s.other).put_spec src with
        ⟨-, hUnread, -⟩
      refine ⟨_, rfl, ?_⟩
      rw [queues_store_self, hUnread,
        List.take_of_length_le hRoom]
  | partly _ _ _ hShort =>
      exact absurd hRoom (Nat.not_le_of_lt hShort)

/- A send that has room for some of its bytes only waits. -/
theorem Sound.send_of_room_lt_length
    (hSound : p.Sound)
    (written : Nat)
    (hEof : (p.queues.get s.other).eof = false)
    (hTimer : timer.hasExpired now = false)
    (hSome : (p.queues.get s.other).room ≠ 0)
    (hRoom : (p.queues.get s.other).room < src.length) :
    ∃ next q,
      p.send s timer now ⟨written, src⟩ = (.inr next, q) ∧
        (q.queues.get s.other).unread =
          (p.queues.get s.other).unread ++
            src.take (p.queues.get s.other).room := by
  have hFound := hSound.sent_send s timer now ⟨written, src⟩
  generalize p.send s timer now ⟨written, src⟩ = sent at hFound ⊢
  cases hFound with
  | ended hEnded => simp [hEof] at hEnded
  | late _ hLate => simp [hTimer] at hLate
  | nothing _ _ hRest =>
      have hNil : src = [] := hRest
      subst hNil
      exact absurd hRoom (Nat.not_lt_zero _)
  | full _ _ _ hNone => exact absurd hNone hSome
  | finished _ _ _ hAll =>
      exact absurd hAll (Nat.not_le_of_lt hRoom)
  | partly =>
      rcases (hSound.queue s.other).put_spec src with
        ⟨-, hUnread, -⟩
      refine ⟨_, _, rfl, ?_⟩
      rw [queues_store_self, hUnread]

/-
  A send never waits before the storage is full to its end.
  Only places that were read can then be left.
-/
theorem Sound.length_unread_add_off_of_send
    {sending next : Sending}
    {q : Pipe}
    (hSound : p.Sound)
    (hWaits : p.send s timer now sending = (.inr next, q)) :
    (q.queues.get s.other).unread.length +
        (q.queues.get s.other).off =
      (q.queues.get s.other).cap := by
  have hLook := hSound.sent_send s timer now sending
  have hQueue := hSound.queue s.other
  rw [hWaits] at hLook
  cases hLook with
  | full hEof _ _ hNone =>
      have hReleased := hSound.isReleased_eq_false hEof
      rw [hQueue.room_eq_zero_iff hReleased] at hNone
      have hParts := hQueue.length_unread_add_off
      have hStored := hQueue.stored_le_cap
      omega
  | partly hEof _ _ hShort =>
      have hReleased := hSound.isReleased_eq_false hEof
      rcases hQueue.put_spec sending.rest with
        ⟨-, -, -, hCap, -, hPut⟩
      rw [queues_store_self, hPut.length_unread_add_off,
        hQueue.stored_put_eq_cap hReleased hShort, hCap]

variable {stage : Call.Stage}

/- A send that begins is answered if there is room for it all. -/
theorem Sound.look_of_length_le_room
    (hSound : p.Sound)
    (hBegins : stage.sending = ⟨0, src⟩)
    (hEof : (p.queues.get s.other).eof = false)
    (hTimer : stage.timer.hasExpired now = false)
    (hRoom : src.length ≤ (p.queues.get s.other).room) :
    ((Call.send src).look stage p s now).1 =
        .answer (.ok src.length) ∧
      (((Call.send src).look stage p s now).2.queues.get
        s.other).unread =
          (p.queues.get s.other).unread ++ src := by
  rcases hSound.send_of_length_le_room 0 hEof hTimer hRoom
    with ⟨q, hSend, hUnread⟩
  rw [Nat.zero_add, ← hBegins] at hSend
  rw [Call.look_send_of_inl stage src hSend]
  exact ⟨rfl, hUnread⟩

/- It waits, with what there was room for put, if there is not. -/
theorem Sound.look_of_room_lt_length
    (hSound : p.Sound)
    (hBegins : stage.sending = ⟨0, src⟩)
    (hEof : (p.queues.get s.other).eof = false)
    (hTimer : stage.timer.hasExpired now = false)
    (hSome : (p.queues.get s.other).room ≠ 0)
    (hRoom : (p.queues.get s.other).room < src.length) :
    (∃ next,
      ((Call.send src).look stage p s now).1 = .wait next) ∧
      (((Call.send src).look stage p s now).2.queues.get
        s.other).unread =
          (p.queues.get s.other).unread ++
            src.take (p.queues.get s.other).room := by
  rcases hSound.send_of_room_lt_length 0 hEof hTimer hSome hRoom
    with ⟨next, q, hSend, hUnread⟩
  rw [← hBegins] at hSend
  rw [Call.look_send_of_inr stage src hSend]
  exact ⟨⟨_, rfl⟩, hUnread⟩

/- The storage is full to its end whenever a send's call waits. -/
theorem Sound.length_unread_add_off_of_look
    {next : Call.Stage}
    {q : Pipe}
    (hSound : p.Sound)
    (hWaits :
      (Call.send src).look stage p s now = (.wait next, q)) :
    (q.queues.get s.other).unread.length +
        (q.queues.get s.other).off =
      (q.queues.get s.other).cap := by
  generalize hSend :
    p.send s stage.timer now stage.sending = sent
  rcases sent with ⟨a | further, q⟩
  · rw [Call.look_send_of_inl stage src hSend] at hWaits
    cases hWaits
  · rw [Call.look_send_of_inr stage src hSend] at hWaits
    cases hWaits
    exact hSound.length_unread_add_off_of_send hSend

end

end Pipe

------------------------------------------------------------
-- Sends in reachable pipes
------------------------------------------------------------

namespace Traffic

section

variable {ι : Type} {R : ι → Type} [DecidableEq ι]
variable {seat : ι → Side}
variable {nameA nameB : String} {capacity : Nat}
variable {routines : (i : ι) → Routine endpointInterface (R i)}
variable {log : List (Visit ι)} {t : Traffic R}

/-
  In every reachable open pipe, a send whose bytes fit beside
  the unread ones is answered at its first look if they do not
  reach past the end of the storage. If they do, it fills the
  storage to its end and waits with fewer unread bytes than the
  capacity. Whenever a send waits, the storage is full to its
  end: the unread bytes and those already read in front of them
  make up the capacity.
-/
theorem Run.look_send_of_fits
    (hRun :
      Run seat (new (.pair nameA nameB capacity) routines) log t)
    (hOpen : ∀ v ∈ log, ∀ r, ¬ v.closes r)
    (s : Side)
    (src : Bytes)
    (now : Instant) :
    (∀ began,
      let stage := (Call.send src).begin t.pipe s began
      let queue := t.pipe.queues.get s.other
      let after := ((Call.send src).look stage t.pipe s now).2
      stage.timer.hasExpired now = false →
      queue.unread.length + src.length ≤ queue.cap →
      (¬ queue.Overruns src →
        ((Call.send src).look stage t.pipe s now).1 =
            .answer (.ok src.length) ∧
          (after.queues.get s.other).unread =
            queue.unread ++ src) ∧
      (queue.Overruns src →
        (∃ next,
          ((Call.send src).look stage t.pipe s now).1 =
            .wait next) ∧
          (after.queues.get s.other).unread =
            queue.unread ++ src.take (queue.cap - queue.stored) ∧
          (after.queues.get s.other).unread.length <
            queue.cap)) ∧
    ∀ stage next after,
      (Call.send src).look stage t.pipe s now =
          (.wait next, after) →
        (after.queues.get s.other).unread.length +
            (after.queues.get s.other).off =
          (after.queues.get s.other).cap := by
  have hSound := hRun.sound (.pair nameA nameB capacity)
  have hEof := hRun.eof_eq_false hOpen s.other
  have hReleased := hSound.isReleased_eq_false hEof
  have hQueue := hSound.queue s.other
  constructor
  · intro began stage queue after hTimer hFits
    constructor
    · intro hWithin
      apply hSound.look_of_length_le_room rfl hEof hTimer
      exact hQueue.length_le_room hReleased hFits hWithin
    · intro hOverruns
      rcases hQueue.room_of_overruns hReleased hOverruns with
        ⟨hPlaces, hSome, hRoom⟩
      rcases hSound.look_of_room_lt_length rfl hEof hTimer hSome
        hRoom with ⟨hWaits, hUnread⟩
      have hShort : queue.cap - queue.stored < src.length :=
        hPlaces ▸ hRoom
      have hAfter :
          (after.queues.get s.other).unread =
            queue.unread ++
              src.take (queue.cap - queue.stored) := by
        rw [← hPlaces]
        exact hUnread
      refine ⟨hWaits, hAfter, ?_⟩
      rw [hAfter, List.length_append, List.length_take,
        Nat.min_eq_left (Nat.le_of_lt hShort)]
      omega
  · intro stage next after hLook
    exact hSound.length_unread_add_off_of_look hLook

end

/-
  Three bytes of four places are taken, two are read again, and
  then three more come, for which there are three places.
-/
def overrunningRoutines :
    Side → Routine endpointInterface Unit
  | .a =>
    (Endpoint.put [97, 98, 99]).bind fun _ =>
      (Endpoint.put [120, 121, 122]).bind fun _ => .done ()
  | .b => (Endpoint.recv 2).bind fun _ => .done ()

/- The run up to the moment when the last three come. -/
def overrunningRun :
    List (Visit Side) × Traffic (fun _ : Side => Unit) :=
  play id [.a, .b]
    (new (.pair "left" "right" 4) overrunningRoutines)

theorem not_closes_of_mem_overrunningRun
    {v : Visit Side}
    (hMember : v ∈ overrunningRun.1)
    (r : Side) :
    ¬ v.closes r := by
  revert v
  cases r <;> decide

/- They fit, but the send waits with two bytes unread of four. -/
theorem exists_wait_below_capacity :
    ∃ (log : List (Visit Side))
      (t : Traffic fun _ : Side => Unit)
      (src : Bytes),
      Run id (new (.pair "left" "right" 4) overrunningRoutines)
          log t ∧
        (∀ v ∈ log, ∀ r, ¬ v.closes r) ∧
        (t.pipe.queues.get .b).unread.length + src.length ≤
          (t.pipe.queues.get .b).cap ∧
        ((Call.send src).begin t.pipe .a 0).timer.hasExpired 0 =
          false ∧
        ∃ next after,
          (Call.send src).look
              ((Call.send src).begin t.pipe .a 0) t.pipe .a 0 =
            (.wait next, after) ∧
          (after.queues.get .b).unread = [99, 120] ∧
          (after.queues.get .b).cap = 4 :=
  ⟨overrunningRun.1, overrunningRun.2, [120, 121, 122],
    run_play id _ _,
    fun _ hMember => not_closes_of_mem_overrunningRun hMember,
    by decide, by decide, _, _, rfl, by decide, by decide⟩

theorem look_send_of_fits_of_overrunning :
    (overrunningRun.2.pipe.queues.get .b).Overruns
        [120, 121, 122] ∧
      ∃ next,
        ((Call.send [120, 121, 122]).look
            ((Call.send [120, 121, 122]).begin
              overrunningRun.2.pipe .a 0)
            overrunningRun.2.pipe .a 0).1 = .wait next := by
  have hOverruns :
      (overrunningRun.2.pipe.queues.get .b).Overruns
        [120, 121, 122] := by
    unfold Half.Overruns
    decide
  refine ⟨hOverruns, ?_⟩
  have hRun :
      Run id (new (.pair "left" "right" 4) overrunningRoutines)
        overrunningRun.1 overrunningRun.2 :=
    run_play id _ _
  have hLooks :=
    (hRun.look_send_of_fits
      (fun _ hMember => not_closes_of_mem_overrunningRun hMember)
      .a [120, 121, 122] 0).1 0 (by decide) (by decide)
  exact (hLooks.2 hOverruns).1

end Traffic

end Parley
