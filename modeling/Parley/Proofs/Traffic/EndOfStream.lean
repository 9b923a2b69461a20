import Parley.Proofs.Traffic.Conservation
/-
  This file shows that the end of the stream is exact and
  final. A read is told of it only after a close, and only when
  nothing is left that could still be read; nothing is added
  any more once an end has closed; and a close takes nothing
  from the far end.

  An end is closed just when its direction has ended and it has
  nothing unread. Both stay so, whatever comes.

  Key theorems include:
    * `Pipe.Sound.isClosed_iff`
    * `Call.look_recv_of_isClosed`
    * `Call.look_send_of_eof`
    * `Visit.isClosed_after`
    * `Traffic.Run.delivered_append_unread_of_eof`
    * `Traffic.Run.accepted_eq_nil_of_closes`
    * `Traffic.Run.unread_of_closes`
    * `Traffic.Run.endOfStream_spec`
-/

namespace Parley

------------------------------------------------------------
-- Closed ends
------------------------------------------------------------

/- An exhausted queue has nothing unread. -/
theorem Half.unread_eq_nil_of_isExhausted
    {h : Half}
    (hExhausted : h.isExhausted = true) :
    h.unread = [] := by
  rw [isExhausted, Bool.or_eq_true, Bool.and_eq_true,
    h.pending_eq_length_unread, beq_iff_eq,
    List.length_eq_zero_iff] at hExhausted
  rcases hExhausted with hReleased | ⟨-, hNothing⟩
  · exact unread_eq_nil_of_isReleased hReleased
  · exact hNothing

namespace Pipe

variable {p : Pipe} {s : Side} {timer : Timer} {now : Instant}

/-
  An end is closed where its direction has ended and nothing is
  unread, and nowhere else.
-/
theorem Sound.isClosed_iff
    (hSound : p.Sound)
    (s : Side) :
    p.isClosed s = true ↔
      (p.queues.get s).eof = true ∧
        (p.queues.get s).unread = [] := by
  constructor
  · intro hClosed
    refine ⟨?_, Half.unread_eq_nil_of_isExhausted hClosed⟩
    rw [isClosed, Half.isExhausted, Bool.or_eq_true,
      Bool.and_eq_true] at hClosed
    rcases hClosed with hReleased | ⟨hEof, -⟩
    · exact hSound.eof_of_isReleased s hReleased
    · exact hEof
  · rintro ⟨hEof, hUnread⟩
    rw [isClosed, Half.isExhausted, hEof,
      Half.pending_eq_length_unread, hUnread]
    exact Bool.or_true _

/- Only at a closed end is a read told of the end of the stream. -/
theorem isClosed_of_receive
    {room : Nat}
    (hEnded :
      (p.receive s timer now room).1 =
        some (.error .endOfStream)) :
    p.isClosed s = true := by
  have hFound := p.received_receive s timer now room
  generalize p.receive s timer now room = received
    at hFound hEnded
  cases hFound with
  | ended hExhausted => exact hExhausted
  | late => simp at hEnded
  | nothing => simp at hEnded
  | waits => simp at hEnded
  | taken => simp at hEnded

end Pipe

------------------------------------------------------------
-- Looks by reads and by sends
------------------------------------------------------------

namespace Call

variable {p : Pipe} {s : Side} {stage : Stage} {now : Instant}

/- At a closed end a read is told so, whatever else there is. -/
theorem look_recv_of_isClosed
    (hClosed : p.isClosed s = true)
    (room : Nat) :
    (recv room).look stage p s now =
      (.answer (.error .endOfStream), p.close s) := by
  apply look_recv_of_some
  rw [Pipe.isClosed] at hClosed
  simp only [Pipe.receive, hClosed, if_true]

/- It is told so at a closed end only. -/
theorem isClosed_of_look_recv
    {room : Nat}
    (hEnded :
      ((recv room).look stage p s now).1 =
        .answer (.error .endOfStream)) :
    p.isClosed s = true := by
  generalize hReceive :
    p.receive s stage.timer now room = received
  rcases received with ⟨_ | a, q⟩
  · rw [look_recv_of_none stage hReceive] at hEnded
    cases hEnded
  · rw [look_recv_of_some stage hReceive] at hEnded
    cases hEnded
    apply Pipe.isClosed_of_receive
    rw [hReceive]

/-
  What is unread can be read, as much as there is room for,
  unless the time is up.
-/
theorem look_recv_of_unread
    {room : Nat}
    (hUnread : (p.queues.get s).unread ≠ [])
    (hTimer : stage.timer.hasExpired now = false)
    (hRoom : room ≠ 0) :
    ((recv room).look stage p s now).1 =
      .answer (.ok ((p.queues.get s).unread.take room)) := by
  have hFound := p.received_receive s stage.timer now room
  generalize hReceive :
    p.receive s stage.timer now room = received at hFound
  cases hFound with
  | ended hExhausted =>
      have hNothing := Half.unread_eq_nil_of_isExhausted hExhausted
      exact absurd hNothing hUnread
  | late _ hLate => simp [hTimer] at hLate
  | nothing _ _ hNone => exact absurd hNone hRoom
  | waits _ _ _ hNothing => exact absurd hNothing hUnread
  | taken => rw [look_recv_of_some stage hReceive, Half.take_fst]

/- A send into an ended stream fails and leaves the pipe alone. -/
theorem look_send_of_eof
    (src : Bytes)
    (stage : Stage)
    (now : Instant)
    (hEof : (p.queues.get s.other).eof = true) :
    (send src).look stage p s now =
      (.answer
        (.error ⟨stage.sending.written, .endOfStream⟩), p) := by
  apply look_send_of_inl
  simp only [Pipe.send, hEof, if_true]

end Call

------------------------------------------------------------
-- What one visit does to an ended stream
------------------------------------------------------------

namespace Visit

variable {ι : Type} {v : Visit ι}

/- Nothing is accepted in a direction that has ended. -/
theorem accepted_of_eof
    (hSound : v.before.Sound)
    {s : Side}
    (hEof : (v.before.queues.get s).eof = true) :
    v.accepted s = [] := by
  cases v.effect hSound with
  | idle _ _ _ _ _ hAccepted => exact hAccepted s
  | closed _ _ _ _ hAccepted => exact hAccepted s
  | cleared _ _ _ _ hAccepted => exact hAccepted s
  | taken _ _ _ _ _ _ _ hAccepted => exact hAccepted s
  | added rest hOpen _ _ _ _ hAccepted =>
      rw [hAccepted]
      apply if_neg
      rintro rfl
      rw [hEof] at hOpen
      exact Bool.noConfusion hOpen

/- Whatever closes an end does just what a close there does. -/
theorem after_of_closes
    (hSound : v.before.Sound)
    {s : Side}
    (hCloses : v.closes s) :
    v.after = v.before.close s := by
  cases v.effect hSound with
  | closed hAfter _ hSides =>
      rw [hAfter, (hSides s).mp hCloses]
  | idle _ _ _ hNot => exact absurd hCloses (hNot s)
  | cleared _ _ hNot => exact absurd hCloses (hNot s)
  | taken _ _ _ _ _ hNot => exact absurd hCloses (hNot s)
  | added _ _ _ _ hNot => exact absurd hCloses (hNot s)

/- An end that is closed stays so through every visit. -/
theorem isClosed_after
    (hSound : v.before.Sound)
    {s : Side}
    (hClosed : v.before.isClosed s = true) :
    v.after.isClosed s = true := by
  rcases (hSound.isClosed_iff s).mp hClosed with ⟨hEof, hUnread⟩
  apply (v.sound_after hSound).isClosed_iff s |>.mpr
  refine ⟨(v.eof_after_iff hSound s).mpr (.inl hEof), ?_⟩
  by_cases hCall : v.call = .clear
  · exact (v.unread_of_clear hSound s hCall).1
  · by_cases hCloses : v.closes s
    · apply Half.unread_eq_nil_of_isReleased
      exact (v.isReleased_after_iff hSound s).mpr (.inr hCloses)
    · have hMoved :=
        v.unread_append_accepted hSound s hCall hCloses
      rw [hUnread, v.accepted_of_eof hSound hEof,
        List.append_nil] at hMoved
      exact (List.append_eq_nil_iff.mp hMoved.symm).2

end Visit

------------------------------------------------------------
-- Runs after a close
------------------------------------------------------------

namespace Traffic

section

variable {ι : Type} {R : ι → Type} [DecidableEq ι]
variable {seat : ι → Side} {t u : Traffic R}
variable {more : List (Visit ι)}

/- An end that is closed stays so in every run from there. -/
theorem Run.isClosed_mono
    (hMore : Run seat t more u)
    (hSound : t.pipe.Sound)
    {s : Side}
    (hClosed : t.pipe.isClosed s = true) :
    u.pipe.isClosed s = true := by
  apply And.right
  apply hMore.pipe_induction_from (motive := fun _ p =>
    p.Sound ∧ p.isClosed s = true)
  · exact ⟨hSound, hClosed⟩
  · rintro _ v ⟨hSound, hClosed⟩
    exact ⟨v.sound_after hSound, v.isClosed_after hSound hClosed⟩

/-
  What is unread when a direction has ended stays to be read:
  all of it is delivered or still unread, unless the reading
  end closes or a clear comes.
-/
theorem Run.delivered_append_unread_of_eof
    (hMore : Run seat t more u)
    (hSound : t.pipe.Sound)
    {s : Side}
    (hEof : (t.pipe.queues.get s).eof = true)
    (hOpen : ∀ v ∈ more, v.call ≠ .clear ∧ ¬ v.closes s) :
    delivered s more ++ (u.pipe.queues.get s).unread =
      (t.pipe.queues.get s).unread := by
  have hKept :
      u.pipe.Sound ∧ (u.pipe.queues.get s).eof = true ∧
        ((∀ v ∈ more, v.call ≠ .clear ∧ ¬ v.closes s) →
          delivered s more ++ (u.pipe.queues.get s).unread =
            (t.pipe.queues.get s).unread) := by
    apply hMore.pipe_induction_from (motive := fun log p =>
      p.Sound ∧ (p.queues.get s).eof = true ∧
        ((∀ v ∈ log, v.call ≠ .clear ∧ ¬ v.closes s) →
          delivered s log ++ (p.queues.get s).unread =
            (t.pipe.queues.get s).unread))
    · exact ⟨hSound, hEof, fun _ => rfl⟩
    · rintro log v ⟨hSound, hEof, hUnread⟩
      refine ⟨v.sound_after hSound,
        (v.eof_after_iff hSound s).mpr (.inl hEof), ?_⟩
      intro hOpen
      rw [List.forall_mem_append, List.forall_mem_singleton]
        at hOpen
      rcases hOpen with ⟨hLog, hCall, hCloses⟩
      have hMoved :=
        v.unread_append_accepted hSound s hCall hCloses
      rw [v.accepted_of_eof hSound hEof, List.append_nil]
        at hMoved
      rw [delivered_concat, List.append_assoc, ← hMoved]
      exact hUnread hLog
  exact hKept.2.2 hOpen

/-
  The next step of a party, whenever it comes, only has it go on
  with `p`; the pipe stays as it is.
-/
def StepsTo
    (seat : ι → Side)
    (t : Traffic R)
    (i : ι)
    (p : Routine endpointInterface (R i)) : Prop :=
  ∀ began now,
    (t.advance seat i began now).2.pipe = t.pipe ∧
      (t.advance seat i began now).2.parties i = .ready p

/- A send that begins in an ended stream fails at once. -/
theorem stepsTo_of_begins_send
    {i : ι}
    {src : Bytes}
    {k : Except ShortWrite Nat → Routine endpointInterface (R i)}
    (hEof : (t.pipe.queues.get (seat i).other).eof = true)
    (hParty : t.parties i = .ready (.ask (.send src) k)) :
    StepsTo seat t i (k (.error ⟨0, .endOfStream⟩)) := by
  intro began now
  have hLook := Call.look_send_of_eof src
    ((Call.send src).begin t.pipe (seat i) began) now hEof
  simp only [advance, hParty, conclude, Visit.after,
    Visit.outcome, hLook, Function.update_self, true_and]
  rfl

/- A send that waits in a stream that has ended fails as well. -/
theorem stepsTo_of_resumes_send
    {i : ι}
    {src : Bytes}
    {stage : Call.Stage}
    {seen : Nat}
    {k : Except ShortWrite Nat → Routine endpointInterface (R i)}
    (hEof : (t.pipe.queues.get (seat i).other).eof = true)
    (hParty : t.parties i = .held (.send src) stage seen k) :
    StepsTo seat t i
      (k (.error ⟨stage.sending.written, .endOfStream⟩)) := by
  intro began now
  have hLook := Call.look_send_of_eof src stage now hEof
  simp only [advance, hParty, conclude, Visit.after,
    Visit.outcome, hLook, Function.update_self, true_and]

end

------------------------------------------------------------
-- The end of the stream
------------------------------------------------------------

section

variable {ι : Type} {R : ι → Type} [DecidableEq ι]
variable {seat : ι → Side}
variable {nameA nameB : String} {capacity : Nat}
variable {routines : (i : ι) → Routine endpointInterface (R i)}
variable {log : List (Visit ι)} {t : Traffic R}

/-
  A closed end has closed itself, or has got all that was
  accepted for it and not cleared away; either way some end has
  closed.
-/
theorem Run.delivered_eq_kept_of_isClosed
    (hRun :
      Run seat (new (.pair nameA nameB capacity) routines) log t)
    {s : Side}
    (hClosed : t.pipe.isClosed s = true) :
    (∃ v ∈ log, ∃ r, v.closes r) ∧
      ((∃ v ∈ log, v.closes s) ∨
        delivered s log = kept s log) := by
  have hSound := hRun.sound (.pair nameA nameB capacity)
  rcases (hSound.isClosed_iff s).mp hClosed with ⟨hEof, hUnread⟩
  refine ⟨(hRun.eof_iff s).mp hEof, ?_⟩
  by_cases hCloses : ∃ v ∈ log, v.closes s
  · exact .inl hCloses
  · right
    push Not at hCloses
    rcases (hRun.balanced s).balance with ⟨rest, hKept, hRest⟩
    rw [hRest (hRun.isReleased_eq_false hCloses), hUnread,
      List.append_nil] at hKept
    exact hKept.symm

/- The pipe is sound at every visit. -/
theorem Run.sound_before
    (hRun :
      Run seat (new (.pair nameA nameB capacity) routines) log t)
    {earlier later : List (Visit ι)}
    {v : Visit ι}
    (hLog : log = earlier ++ v :: later) :
    v.before.Sound := by
  rcases hRun.parted _ _ _ hLog with ⟨t₁, _, hFirst, hThere, -⟩
  rw [← hThere]
  exact hFirst.sound (.pair nameA nameB capacity)

/- After a close no visit adds a byte. -/
theorem Run.accepted_eq_nil_of_closes
    {more : List (Visit ι)}
    {u : Traffic R}
    (hRun :
      Run seat (new (.pair nameA nameB capacity) routines) log t)
    (hClosed : ∃ v ∈ log, ∃ r, v.closes r)
    (hMore : Run seat t more u)
    {v : Visit ι}
    (hMember : v ∈ more)
    (s : Side) :
    v.accepted s = [] := by
  rcases List.append_of_mem hMember with ⟨earlier, later, hLog⟩
  rcases hMore.parted _ _ _ hLog with ⟨t₁, _, hFirst, hThere, -⟩
  have hSofar := hRun.append hFirst
  apply v.accepted_of_eof
  · rw [← hThere]
    exact hSofar.sound (.pair nameA nameB capacity)
  · rw [← hThere]
    apply (hSofar.eof_iff s).mpr
    rcases hClosed with ⟨w, hEarlier, hCloses⟩
    exact ⟨w, List.mem_append_left _ hEarlier, hCloses⟩

/-
  A close of an end takes nothing from the other, where what is
  unread can be received until that end closes or it is cleared.
-/
theorem Run.unread_of_closes
    (hRun :
      Run seat (new (.pair nameA nameB capacity) routines) log t)
    {earlier later : List (Visit ι)}
    {v : Visit ι}
    {s : Side}
    (hLog : log = earlier ++ v :: later)
    (hCloses : v.closes s) :
    (v.after.queues.get s.other).unread =
        (v.before.queues.get s.other).unread ∧
      ((∀ w ∈ later, w.call ≠ .clear ∧ ¬ w.closes s.other) →
        delivered s.other later ++
            (t.pipe.queues.get s.other).unread =
          (v.before.queues.get s.other).unread) := by
  have hBefore := hRun.sound_before hLog
  rcases hRun.parted _ _ _ hLog with ⟨_, t₂, -, -, hRest, hLeft⟩
  have hUnread :
      (v.after.queues.get s.other).unread =
        (v.before.queues.get s.other).unread := by
    rw [v.after_of_closes hBefore hCloses]
    exact v.before.unread_close_other s
  refine ⟨hUnread, ?_⟩
  intro hOpen
  rw [← hUnread, ← hLeft]
  apply hRest.delivered_append_unread_of_eof ?_ ?_ hOpen
  · rw [hLeft]
    exact v.sound_after hBefore
  · rw [hLeft]
    exact (v.eof_after_iff hBefore _).mpr (.inr ⟨s, hCloses⟩)

/- A second close of an end changes nothing. -/
theorem Run.after_eq_before_of_closes
    (hRun :
      Run seat (new (.pair nameA nameB capacity) routines) log t)
    {earlier later : List (Visit ι)}
    {v : Visit ι}
    {s : Side}
    (hLog : log = earlier ++ v :: later)
    (hClosed : ∃ w ∈ earlier, w.closes s)
    (hCloses : v.closes s) :
    v.after = v.before := by
  rcases hRun.parted _ _ _ hLog with ⟨t₁, _, hFirst, hThere, -⟩
  have hReleased := (hFirst.isReleased_iff s).mpr hClosed
  rw [hThere] at hReleased
  rw [v.after_of_closes (hRun.sound_before hLog) hCloses,
    Pipe.close_of_isReleased hReleased]

/-
  For every capacity, any number of parties with whatever
  routines, and every order of their holds of the lock:
  a read is told of the end of the stream only after a close,
  and only if its own end has closed or has got all there is;
  an end counts as closed just when every read there is told so,
  and then for ever; after a close no visit adds a byte, a send
  or a write that begins fails and so does one that waits;
  a close leaves what is unread at the far end, where all of it
  can be received until that end closes or a clear comes;
  and a second close of an end changes nothing.
-/
theorem Run.endOfStream_spec
    (hRun :
      Run seat (new (.pair nameA nameB capacity) routines)
        log t) :
    (∀ earlier later party s room stage now before,
      log =
        earlier ++
          ⟨party, s, .recv room, stage, now, before⟩ :: later →
      ((Call.recv room).look stage before s now).1 =
        .answer (.error .endOfStream) →
      (∃ v ∈ earlier, ∃ r, v.closes r) ∧
        ((∃ v ∈ earlier, v.closes s) ∨
          delivered s earlier = kept s earlier)) ∧
    (∀ s,
      (t.pipe.isClosed s = true ↔
        ∀ room stage now,
          ((Call.recv room).look stage t.pipe s now).1 =
            .answer (.error .endOfStream)) ∧
      (t.pipe.isClosed s = true →
        ∀ more u, Run seat t more u →
          u.pipe.isClosed s = true)) ∧
    ((∃ v ∈ log, ∃ r, v.closes r) →
      (∀ more u, Run seat t more u →
        ∀ v ∈ more, ∀ s, v.accepted s = []) ∧
      ∀ i src,
        (∀ k, t.parties i = .ready ((Endpoint.send src).bind k) →
          StepsTo seat t i (k (.error .endOfStream))) ∧
        (∀ k, t.parties i = .ready ((Endpoint.write src).bind k) →
          StepsTo seat t i (k (.error (.pipe .endOfStream)))) ∧
        ∀ stage seen k,
          t.parties i = .held (.send src) stage seen k →
          StepsTo seat t i
            (k (.error ⟨stage.sending.written, .endOfStream⟩))) ∧
    (∀ earlier v later s,
      log = earlier ++ v :: later → v.closes s →
      (v.after.queues.get s.other).unread =
          (v.before.queues.get s.other).unread ∧
        ((∀ w ∈ later, w.call ≠ .clear ∧ ¬ w.closes s.other) →
          delivered s.other later ++
              (t.pipe.queues.get s.other).unread =
            (v.before.queues.get s.other).unread) ∧
        ((t.pipe.queues.get s.other).unread ≠ [] →
          ∀ room stage now,
            room ≠ 0 → stage.timer.hasExpired now = false →
            ((Call.recv room).look stage t.pipe s.other now).1 =
              .answer (.ok
                ((t.pipe.queues.get s.other).unread.take
                  room)))) ∧
    ∀ earlier v later s,
      log = earlier ++ v :: later →
      (∃ w ∈ earlier, w.closes s) → v.closes s →
      v.after = v.before := by
  have hSound := hRun.sound (.pair nameA nameB capacity)
  refine ⟨?_, fun s => ⟨⟨?_, ?_⟩, ?_⟩, ?_, ?_, ?_⟩
  · intro earlier later party s room stage now before hLog hLook
    rcases hRun.parted _ _ _ hLog with ⟨t₁, _, hFirst, hThere, -⟩
    apply hFirst.delivered_eq_kept_of_isClosed
    rw [hThere]
    exact Call.isClosed_of_look_recv hLook
  · intro hClosed room stage now
    rw [Call.look_recv_of_isClosed hClosed]
  · intro hLooks
    exact Call.isClosed_of_look_recv (hLooks 0 {} 0)
  · intro hClosed more u hMore
    exact hMore.isClosed_mono hSound hClosed
  · intro hClosed
    have hEof := fun s => (hRun.eof_iff s).mpr hClosed
    refine ⟨?_, fun i src => ⟨?_, ?_, ?_⟩⟩
    · intro more u hMore v hMember s
      exact hRun.accepted_eq_nil_of_closes hClosed hMore hMember s
    · intro k hParty
      exact stepsTo_of_begins_send (hEof _) hParty
    · intro k hParty
      exact stepsTo_of_begins_send (hEof _) hParty
    · intro stage seen k hParty
      exact stepsTo_of_resumes_send (hEof _) hParty
  · intro earlier v later s hLog hCloses
    rcases hRun.unread_of_closes hLog hCloses with
      ⟨hUnread, hReceived⟩
    refine ⟨hUnread, hReceived, ?_⟩
    intro hSome room stage now hRoom hTimer
    exact Call.look_recv_of_unread hSome hTimer hRoom
  · intro earlier v later s hLog hClosed hCloses
    exact hRun.after_eq_before_of_closes hLog hClosed hCloses

end

/-
  Two bytes are on their way when their sender closes. The far
  end reads them one by one, is told of the end of the stream,
  and then sends a byte itself.
-/
def closingRoutines :
    Side → Routine endpointInterface Unit
  | .a => (Endpoint.put [1, 2]).bind fun _ => Endpoint.close
  | .b =>
    (Endpoint.recv 1).bind fun _ =>
      (Endpoint.recv 5).bind fun _ =>
        (Endpoint.recv 5).bind fun _ =>
          (Endpoint.send [3]).bind fun _ => .done ()

/- Follow an order of these two. -/
def closingRun
    (order : List Side) :
    List (Visit Side) × Traffic (fun _ : Side => Unit) :=
  play id order
    (new (.pair "left" "right" 2) closingRoutines)

theorem endOfStream_spec_of_closing :
    (closingRun [.a, .a, .b, .b]).2.pipe.isClosed .b = true ∧
      (∃ v ∈ (closingRun [.a, .a, .b, .b]).1, ∃ r, v.closes r) ∧
      ((∃ v ∈ (closingRun [.a, .a, .b, .b]).1, v.closes .b) ∨
        delivered .b (closingRun [.a, .a, .b, .b]).1 =
          kept .b (closingRun [.a, .a, .b, .b]).1) ∧
      StepsTo id (closingRun [.a, .a, .b, .b, .b]).2 .b
        (.done ()) := by
  rcases Run.endOfStream_spec
      (run_play id [.a, .a, .b, .b]
        (new (.pair "left" "right" 2) closingRoutines)) with
    ⟨-, hClosed, -⟩
  rcases Run.endOfStream_spec
      (run_play id [.a, .a, .b, .b, .b]
        (new (.pair "left" "right" 2) closingRoutines)) with
    ⟨hTold, -, hFails, -⟩
  have hMember :
      ∃ v ∈ (closingRun [.a, .a, .b, .b, .b]).1,
        v.closes .a := by
    decide
  rcases hMember with ⟨v, hMember, hCloses⟩
  refine ⟨?_, ?_⟩
  · apply (hClosed .b).1.mpr
    intro room stage now
    rfl
  · have hEnd := hTold (closingRun [.a, .a, .b, .b]).1 [] .b .b 5
      {} 0 (closingRun [.a, .a, .b, .b]).2.pipe rfl rfl
    refine ⟨hEnd.1, hEnd.2, ?_⟩
    exact ((hFails ⟨v, hMember, .a, hCloses⟩).2 .b [3]).1 _ rfl

end Traffic

end Parley
