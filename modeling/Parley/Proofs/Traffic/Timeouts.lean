import Parley.Proofs.Traffic.Parts
import Parley.Proofs.Traffic.EndOfStream
/-
  This file shows that time limits are exact and leave data
  alone. When a call may give up is settled when it starts, by
  the limits that its own endpoint has set until then; it gives
  up at the first look that finds this moment reached, unless
  the stream has ended.

  Key definitions include:
    * `Limits.Due`
    * `Limits.Expiry`
    * `Call.sets`
    * `Traffic.limitsSet`
    * `Verdict`
    * `Visit.Checks`
    * `Operation.TimedOut`

  Key theorems include:
    * `Limits.expiry_startingAt`
    * `Limits.Expiry.unique`
    * `Traffic.Run.limits_eq`
    * `Visit.checks`
    * `Traffic.Run.timeout_spec`
-/

namespace Parley

------------------------------------------------------------
-- When a call is due
------------------------------------------------------------

namespace Limits

/- The deadline for one direction. -/
def deadline
    (l : Limits) : Direction → Option Instant
  | .read => l.read
  | .write => l.write

/-
  The moments at which a call that starts at `began` is due: its
  deadline, and the end of its timeout where instants reach that
  far.
-/
inductive Due
    (l : Limits)
    (direction : Direction)
    (began : Instant) : Instant → Prop where
  | deadline
      {due : Instant}
      (hDeadline : l.deadline direction = some due) :
      Due l direction began due
  | timeout
      {d : Duration}
      (hTimeout : l.timeout = some d)
      (hReach :
        began + d.nanos <
          Instant.secondsLimit * Duration.nanosPerSecond) :
      Due l direction began (began + d.nanos)

/- The earliest moment at which a call is due, if there is any. -/
def Expiry
    (l : Limits)
    (direction : Direction)
    (began : Instant) : Option Instant → Prop
  | some expiry =>
    l.Due direction began expiry ∧
      ∀ due, l.Due direction began due → expiry ≤ due
  | none => ∀ due, ¬ l.Due direction began due

variable {l : Limits} {direction : Direction} {began : Instant}

/- There is one earliest moment only. -/
theorem Expiry.unique
    {E E' : Option Instant}
    (hExpiry : l.Expiry direction began E)
    (hExpiry' : l.Expiry direction began E') :
    E = E' := by
  cases E with
  | none =>
      cases E' with
      | none => rfl
      | some e' => exact absurd hExpiry'.1 (hExpiry e')
  | some e =>
      cases E' with
      | none => exact absurd hExpiry.1 (hExpiry' e)
      | some e' =>
          congr 1
          exact Int.le_antisymm (hExpiry.2 e' hExpiry'.1)
            (hExpiry'.2 e hExpiry.1)

/- A call is due at the end of its timeout if that is reached. -/
theorem due_iff
    {due : Instant} :
    l.Due direction began due ↔
      l.deadline direction = some due ∨
        l.timeout.bind (began.after? ·) = some due := by
  constructor
  · rintro (hDeadline | ⟨hTimeout, hReach⟩)
    · exact .inl hDeadline
    · right
      simp only [hTimeout, Option.bind_some, Instant.after?,
        if_pos hReach]
  · rintro (hDeadline | hBoth)
    · exact .deadline hDeadline
    · rcases Option.bind_eq_some_iff.mp hBoth with
        ⟨d, hTimeout, hAfter⟩
      simp only [Instant.after?, Option.ite_none_right_eq_some,
        Option.some.injEq] at hAfter
      rcases hAfter with ⟨hReach, rfl⟩
      exact .timeout hTimeout hReach

/- A timer expires at the earliest moment at which a call is due. -/
theorem expiry_startingAt
    (l : Limits)
    (direction : Direction)
    (began : Instant) :
    l.Expiry direction began
      (Timer.startingAt began (l.deadline direction)
        l.timeout).expiry := by
  unfold Timer.startingAt
  cases hDeadline : l.deadline direction with
  | none =>
      cases hTimeout : l.timeout.bind (began.after? ·) with
      | none => simp [Expiry, due_iff, hDeadline, hTimeout]
      | some r => simp [Expiry, due_iff, hDeadline, hTimeout]
  | some d =>
      cases hTimeout : l.timeout.bind (began.after? ·) with
      | none => simp [Expiry, due_iff, hDeadline, hTimeout]
      | some r =>
          simp only [Expiry, due_iff, hDeadline, hTimeout,
            Option.some.injEq]
          constructor
          · rcases Int.le_total d r with hLe | hLe
            · exact .inl (Int.min_eq_left hLe).symm
            · exact .inr (Int.min_eq_right hLe).symm
          · rintro due (rfl | rfl)
            · exact Int.min_le_left ..
            · exact Int.min_le_right ..

end Limits

/- The expiry of a call is reached. -/
def Reached
    (E : Option Instant)
    (now : Instant) : Prop :=
  ∃ e ∈ E, e ≤ now

/- A timer has expired just when its expiry is reached. -/
theorem Timer.hasExpired_iff
    (timer : Timer)
    (now : Instant) :
    timer.hasExpired now = true ↔ Reached timer.expiry now := by
  unfold Timer.hasExpired Reached
  cases timer.expiry <;> simp

------------------------------------------------------------
-- The limits that an endpoint has set
------------------------------------------------------------

namespace Call

/- How a call changes the limits of its own endpoint. -/
def sets
    (call : Call)
    (l : Limits) : Limits :=
  match call with
  | setTimeout t => { l with timeout := t }
  | setDeadline d => { l with read := d, write := d }
  | setReadDeadline d => { l with read := d }
  | setWriteDeadline d => { l with write := d }
  | _ => l

end Call

namespace Pipe

/- Closing an end changes no limits. -/
@[simp] theorem limits_close
    (p : Pipe)
    (s : Side) :
    (p.close s).limits = p.limits := by
  unfold close
  split <;> rfl

/- A look by a read changes no limits. -/
@[simp] theorem limits_receive
    (p : Pipe)
    (s : Side)
    (timer : Timer)
    (now : Instant)
    (room : Nat) :
    (p.receive s timer now room).2.limits = p.limits := by
  have hFound := p.received_receive s timer now room
  generalize p.receive s timer now room = received at hFound ⊢
  cases hFound with
  | ended => exact p.limits_close s
  | late => rfl
  | nothing => rfl
  | waits => rfl
  | taken => rfl

/- A look by a send changes no limits. -/
@[simp] theorem limits_send
    (p : Pipe)
    (s : Side)
    (timer : Timer)
    (now : Instant)
    (sending : Sending) :
    (p.send s timer now sending).2.limits = p.limits := by
  unfold send
  dsimp only
  repeat' split
  all_goals rfl

/- Limits are changed at their own endpoint only. -/
theorem limits_setLimits
    (p : Pipe)
    (r s : Side)
    (f : Limits → Limits) :
    (p.setLimits r f).limits.get s =
      if r = s then f (p.limits.get s) else p.limits.get s := by
  by_cases hSides : r = s
  · subst hSides
    rw [if_pos rfl]
    exact p.limits.get_modify_self r f
  · rw [if_neg hSides]
    exact p.limits.get_modify_of_ne f (Ne.symm hSides)

end Pipe

/-
  The limits of an endpoint after a hold of the lock: only its
  own calls change them.
-/
theorem Visit.limits_after
    {ι : Type}
    (v : Visit ι)
    (s : Side) :
    v.after.limits.get s =
      if v.side = s then v.call.sets (v.before.limits.get s)
      else v.before.limits.get s := by
  rcases v with ⟨party, side, call, stage, now, p⟩
  cases call with
  | recv room =>
      have hLimits := p.limits_receive side stage.timer now room
      simp only [Visit.after, Visit.outcome, Call.look, Call.sets,
        ite_self]
      split <;> simp_all
  | send src =>
      have hLimits :=
        p.limits_send side stage.timer now stage.sending
      simp only [Visit.after, Visit.outcome, Call.look, Call.sets,
        ite_self]
      split <;> simp_all
  | close =>
      simp [Visit.after, Visit.outcome, Call.look, Call.sets]
  | setTimeout t => exact p.limits_setLimits side s _
  | setDeadline d => exact p.limits_setLimits side s _
  | setReadDeadline d => exact p.limits_setLimits side s _
  | setWriteDeadline d => exact p.limits_setLimits side s _
  | _ => exact (ite_self _).symm

namespace Traffic

variable {ι : Type} {R : ι → Type} [DecidableEq ι]

/-
  The limits of side `s` as its own endpoint has set them, call
  after call.
-/
def limitsSet
    (s : Side)
    (log : List (Visit ι)) : Limits :=
  log.foldl
    (fun l v => if v.side = s then v.call.sets l else l) {}

/- The limits in force are those that the endpoint has set. -/
theorem Run.limits_eq
    {seat : ι → Side}
    {nameA nameB : String}
    {capacity : Nat}
    {routines : (i : ι) → Routine endpointInterface (R i)}
    {log : List (Visit ι)}
    {t : Traffic R}
    (hRun :
      Run seat (new (.pair nameA nameB capacity) routines) log t)
    (s : Side) :
    t.pipe.limits.get s = limitsSet s log := by
  apply hRun.pipe_induction
    (motive := fun log p => p.limits.get s = limitsSet s log)
  · cases s <;> rfl
  · intro log v hLimits
    rw [v.limits_after, limitsSet, List.foldl_append, ← limitsSet,
      ← hLimits]
    rfl

/- Calls that set no limits change none. -/
omit [DecidableEq ι] in
theorem limitsSet_append_of_kept
    {s : Side}
    {log : List (Visit ι)}
    (past : List (Visit ι))
    (hKept : ∀ v ∈ log, v.side = s → ∀ l, v.call.sets l = l) :
    limitsSet s (past ++ log) = limitsSet s past := by
  rw [limitsSet, List.foldl_append, ← limitsSet]
  generalize limitsSet s past = l
  induction log with
  | nil => rfl
  | cons v log ih =>
      have hStep :
          (if v.side = s then v.call.sets l else l) = l := by
        split
        · next hSide => exact hKept v List.mem_cons_self hSide l
        · rfl
      rw [List.foldl_cons, hStep]
      exact ih fun w hMember =>
        hKept w (List.mem_cons_of_mem v hMember)

end Traffic

------------------------------------------------------------
-- Checks
------------------------------------------------------------

/- What a look by a call that may wait comes to. -/
inductive Verdict where
  | ended
  | timedOut
  | granted
  | waits
deriving DecidableEq, Repr

/- What a pipe error says. -/
def PipeError.verdict : PipeError → Verdict
  | endOfStream => .ended
  | timeout _ _ => .timedOut

/- What a look comes to. -/
def Call.verdict :
    (call : Call) → Look call.Answer → Verdict
  | .recv _, .answer (.error e) => e.verdict
  | .send _, .answer (.error short) => short.error.verdict
  | _, .answer _ => .granted
  | _, .wait _ => .waits

namespace Visit

variable {ι : Type}

/- What a hold of the lock comes to. -/
def verdict
    (v : Visit ι) : Verdict :=
  v.call.verdict v.outcome.1

/-
  The stream is over for a call: nothing will be read any more
  at its end, or nothing can be added to what it writes to.
-/
def isOver
    (v : Visit ι) : Bool :=
  match v.call with
  | .recv _ => v.before.isClosed v.side
  | .send _ => (v.before.queues.get v.side.other).eof
  | _ => false

/-
  How a call whose expiry is `E` checks. The end of the stream
  comes first, then the time, and then only the bytes; a check
  that finds the time up changes nothing in the pipe.
-/
structure Checks
    (E : Option Instant)
    (v : Visit ι) : Prop where
  ended_iff : v.verdict = .ended ↔ v.isOver = true
  timedOut_iff :
    v.verdict = .timedOut ↔ v.isOver = false ∧ Reached E v.now
  not_waits : Reached E v.now → v.verdict ≠ .waits
  adds_nothing : Reached E v.now → ∀ s, v.accepted s = []
  unchanged : v.verdict = .timedOut → v.after = v.before

/- A read checks like this. -/
theorem checks_recv
    (party : ι)
    (side : Side)
    (room : Nat)
    (stage : Call.Stage)
    (now : Instant)
    (p : Pipe) :
    (Visit.mk party side (.recv room) stage now p).Checks
      stage.timer.expiry := by
  have hFound := p.received_receive side stage.timer now room
  generalize hReceive :
    p.receive side stage.timer now room = received at hFound
  cases hFound with
  | ended hExhausted =>
      have hLook := Call.look_recv_of_some stage hReceive
      constructor <;>
        simp [verdict, outcome, after, accepted, isOver, hLook,
          Call.verdict, Call.moved,
          PipeError.verdict, Pipe.isClosed, hExhausted]
  | late hExhausted hTimer =>
      have hLook := Call.look_recv_of_some stage hReceive
      rw [Timer.hasExpired_iff] at hTimer
      constructor <;>
        simp [verdict, outcome, after, accepted, isOver, hLook,
          Call.verdict, Call.moved,
          PipeError.verdict, Pipe.isClosed, hExhausted, hTimer]
  | nothing hExhausted hTimer hRoom =>
      have hLook := Call.look_recv_of_some stage hReceive
      rw [← Bool.not_eq_true, Timer.hasExpired_iff] at hTimer
      constructor <;>
        simp [verdict, outcome, after, accepted, isOver, hLook,
          Call.verdict, Call.moved,
          Pipe.isClosed, hExhausted, hTimer]
  | waits hExhausted hTimer hRoom hUnread =>
      have hLook := Call.look_recv_of_none stage hReceive
      rw [← Bool.not_eq_true, Timer.hasExpired_iff] at hTimer
      constructor <;>
        simp [verdict, outcome, after, accepted, isOver, hLook,
          Call.verdict, Call.moved,
          Pipe.isClosed, hExhausted, hTimer]
  | taken hExhausted hTimer hRoom hUnread =>
      have hLook := Call.look_recv_of_some stage hReceive
      rw [← Bool.not_eq_true, Timer.hasExpired_iff] at hTimer
      constructor <;>
        simp [verdict, outcome, after, accepted, isOver, hLook,
          Call.verdict, Call.moved,
          Pipe.isClosed, hExhausted, hTimer]

/- A send checks like this. -/
theorem checks_send
    (party : ι)
    (side : Side)
    (src : Bytes)
    (stage : Call.Stage)
    (now : Instant)
    {p : Pipe}
    (hSound : p.Sound) :
    (Visit.mk party side (.send src) stage now p).Checks
      stage.timer.expiry := by
  have hFound :=
    hSound.sent_send side stage.timer now stage.sending
  generalize hSend :
    p.send side stage.timer now stage.sending = sent at hFound
  cases hFound with
  | ended hEof =>
      have hLook := Call.look_send_of_inl stage src hSend
      constructor <;>
        simp [verdict, outcome, after, accepted, isOver, hLook,
          Call.verdict, Call.moved,
          PipeError.verdict, hEof]
  | late hEof hTimer =>
      have hLook := Call.look_send_of_inl stage src hSend
      rw [Timer.hasExpired_iff] at hTimer
      constructor <;>
        simp [verdict, outcome, after, accepted, isOver, hLook,
          Call.verdict, Call.moved,
          PipeError.verdict, hEof, hTimer]
  | nothing hEof hTimer =>
      have hLook := Call.look_send_of_inl stage src hSend
      rw [← Bool.not_eq_true, Timer.hasExpired_iff] at hTimer
      constructor <;>
        simp [verdict, outcome, after, accepted, isOver, hLook,
          Call.verdict, Call.moved,
          hEof, hTimer]
  | full hEof hTimer =>
      have hLook := Call.look_send_of_inr stage src hSend
      rw [← Bool.not_eq_true, Timer.hasExpired_iff] at hTimer
      constructor <;>
        simp [verdict, outcome, after, accepted, isOver, hLook,
          Call.verdict, Call.moved,
          hEof, hTimer]
  | finished hEof hTimer =>
      have hLook := Call.look_send_of_inl stage src hSend
      rw [← Bool.not_eq_true, Timer.hasExpired_iff] at hTimer
      constructor <;>
        simp [verdict, outcome, after, accepted, isOver, hLook,
          Call.verdict, Call.moved,
          hEof, hTimer]
  | partly hEof hTimer =>
      have hLook := Call.look_send_of_inr stage src hSend
      rw [← Bool.not_eq_true, Timer.hasExpired_iff] at hTimer
      constructor <;>
        simp [verdict, outcome, after, accepted, isOver, hLook,
          Call.verdict, Call.moved,
          hEof, hTimer]

/-
  A read that waits leaves the pipe as it was found.
-/
theorem after_of_waits_recv
    {v : Visit ι}
    {room : Nat}
    (hCall : v.call = .recv room)
    (hWaits : v.Waits) :
    v.after = v.before := by
  rcases v with ⟨party, side, call, stage, now, p⟩
  subst hCall
  rcases hWaits with ⟨next, hLook⟩
  have hFound := p.received_receive side stage.timer now room
  generalize hReceive :
    p.receive side stage.timer now room = received at hFound
  simp only [outcome, Call.look, hReceive] at hLook
  cases hFound with
  | waits => simp only [after, outcome, Call.look, hReceive]
  | ended => cases hLook
  | late => cases hLook
  | nothing => cases hLook
  | taken => cases hLook

/- A hold of the lock after which a call waits is a wait. -/
theorem verdict_of_waits
    {v : Visit ι}
    (hWaits : v.Waits) :
    v.verdict = .waits := by
  rcases hWaits with ⟨stage, hLook⟩
  rw [verdict, hLook]
  cases v.call <;> rfl

end Visit

------------------------------------------------------------
-- Operations
------------------------------------------------------------

namespace Operation

/- The direction whose deadline counts. -/
def direction : Operation → Direction
  | recv _ => .read
  | send _ => .write
  | write _ => .write

/- The result says that the time was up. -/
def TimedOut : (o : Operation) → o.Result → Prop
  | recv _, r => ∃ name direction, r = .error (.timeout name direction)
  | send _, r => ∃ name direction, r = .error (.timeout name direction)
  | write _, r =>
    ∃ name direction, r = .error (.pipe (.timeout name direction))

/- The result is the count of a write that moved some bytes. -/
def Moved : (o : Operation) → o.Result → Prop
  | write _, r => ∃ n, 0 < n ∧ r = .ok n
  | _, _ => False

/- The timer of an operation has the expiry of its limits. -/
theorem expiry_begin
    (o : Operation)
    (p : Pipe)
    (s : Side)
    (began : Instant) :
    (p.limits.get s).Expiry o.direction began
      (o.call.begin p s began).timer.expiry := by
  cases o with
  | recv room => exact Limits.expiry_startingAt _ .read began
  | send src => exact Limits.expiry_startingAt _ .write began
  | write src => exact Limits.expiry_startingAt _ .write began

/- A sound pipe is checked as a call that may wait should. -/
theorem checks
    {ι : Type}
    (o : Operation)
    {v : Visit ι}
    (hCall : v.call = o.call)
    (hSound : v.before.Sound) :
    v.Checks v.stage.timer.expiry := by
  rcases v with ⟨party, side, call, stage, now, p⟩
  subst hCall
  cases o with
  | recv room => exact Visit.checks_recv party side room stage now p
  | send src =>
      exact Visit.checks_send party side src stage now hSound
  | write src =>
      exact Visit.checks_send party side src stage now hSound

/-
  The result says that the time was up just when the answer does,
  unless a write has moved some bytes.
-/
theorem timedOut_conclude
    {o : Operation}
    {a : o.call.Answer}
    (hTimedOut : o.TimedOut (o.conclude a)) :
    o.call.verdict (.answer a) = .timedOut := by
  cases o with
  | recv room =>
      rcases hTimedOut with ⟨name, direction, hError⟩
      cases (show a = _ from hError)
      rfl
  | send src =>
      rcases hTimedOut with ⟨name, direction, hError⟩
      cases a with
      | ok n => cases hError
      | error short =>
          simp only [conclude, Except.error.injEq] at hError
          simp only [call, Call.verdict, hError, PipeError.verdict]
  | write src =>
      rcases hTimedOut with ⟨name, direction, hError⟩
      cases a with
      | ok n => cases hError
      | error short =>
          simp only [conclude] at hError
          split at hError
          · cases hError
          · simp only [Except.error.injEq, IoError.pipe.injEq]
              at hError
            simp only [call, Call.verdict, hError,
              PipeError.verdict]

/- Where the answer says so, the result does as well. -/
theorem timedOut_or_moved
    {o : Operation}
    {a : o.call.Answer}
    (hVerdict : o.call.verdict (.answer a) = .timedOut) :
    o.TimedOut (o.conclude a) ∨ o.Moved (o.conclude a) := by
  cases o with
  | recv room =>
      rcases a with (⟨name, direction⟩ | -) | got
      · exact .inl ⟨name, direction, rfl⟩
      · cases hVerdict
      · cases hVerdict
  | send src =>
      rcases a with ⟨n, ⟨name, direction⟩ | -⟩ | n
      · exact .inl ⟨name, direction, rfl⟩
      · cases hVerdict
      · cases hVerdict
  | write src =>
      rcases a with ⟨n, ⟨name, direction⟩ | -⟩ | n
      · simp only [conclude]
        split
        · next hSome => exact .inr ⟨n, hSome, rfl⟩
        · exact .inl ⟨name, direction, rfl⟩
      · cases hVerdict
      · cases hVerdict

end Operation

------------------------------------------------------------
-- Timeouts are exact
------------------------------------------------------------

namespace Traffic

variable {ι : Type}

section

variable {i : ι} {s : Side} {o : Operation} {timer : Timer}
variable {looks : List (Visit ι)} {part : Party o.Result}

/-
  An operation that says that the time was up had a look that
  found it so.
-/
theorem Asks.exists_timedOut
    (hAsks : Asks i s o.call timer o.conclude looks part)
    {r : o.Result}
    (hDone : part = .ready (.done r))
    (hTimedOut : o.TimedOut r) :
    ∃ v ∈ looks, v.verdict = .timedOut := by
  cases hAsks with
  | waiting => cases hDone
  | answered stage now pipe a _ _ hLook =>
      cases hDone
      refine ⟨_, List.mem_append_right _ List.mem_cons_self, ?_⟩
      rw [Visit.verdict, Visit.outcome, hLook]
      exact Operation.timedOut_conclude hTimedOut

/-
  A look that finds the time up ends the operation, which says
  so unless it is a write that moved some bytes.
-/
theorem Asks.result_of_timedOut
    (hAsks : Asks i s o.call timer o.conclude looks part)
    {v : Visit ι}
    (hMember : v ∈ looks)
    (hVerdict : v.verdict = .timedOut) :
    ∃ r, part = .ready (.done r) ∧ (o.TimedOut r ∨ o.Moved r) := by
  have hNot : ∀ {w : Visit ι},
      Watches s o.call timer w → w.verdict ≠ .timedOut := by
    intro w hWatches hTimedOut
    rw [Visit.verdict_of_waits hWatches.waits] at hTimedOut
    cases hTimedOut
  cases hAsks with
  | waiting stage seen _ hWatches =>
      exact absurd hVerdict (hNot (hWatches v hMember))
  | answered stage now pipe a _ hWatches hLook =>
      rcases List.mem_append.mp hMember with hEarlier | hLast
      · exact absurd hVerdict (hNot (hWatches v hEarlier))
      · rw [List.mem_singleton] at hLast
        subst hLast
        rw [Visit.verdict, Visit.outcome, hLook] at hVerdict
        exact ⟨_, rfl, Operation.timedOut_or_moved hVerdict⟩

/-
  A read that says that the time was up has left the pipe as it
  was found at each of its looks.
-/
theorem Asks.unchanged_of_timedOut
    {room : Nat}
    {part : Party (Except PipeError Bytes)}
    (hAsks :
      Asks i s (.recv room) timer (Operation.recv room).conclude
        looks part)
    (hChecks : ∀ v ∈ looks, v.Checks timer.expiry)
    {r : Except PipeError Bytes}
    (hDone : part = .ready (.done r))
    (hTimedOut : (Operation.recv room).TimedOut r)
    {v : Visit ι}
    (hMember : v ∈ looks) :
    v.after = v.before := by
  cases hAsks with
  | waiting => cases hDone
  | answered stage now pipe a _ hWatches hLook =>
      cases hDone
      rcases List.mem_append.mp hMember with hEarlier | hLast
      · have hWatch := hWatches v hEarlier
        exact Visit.after_of_waits_recv hWatch.call hWatch.waits
      · apply (hChecks v hMember).unchanged
        rw [List.mem_singleton] at hLast
        subst hLast
        rw [Visit.verdict, Visit.outcome, hLook]
        exact Operation.timedOut_conclude hTimedOut

/-
  An operation whose first look finds its expiry reached has no
  other look, and adds nothing.
-/
theorem Asks.of_reached
    (hAsks : Asks i s o.call timer o.conclude looks part)
    (hChecks : ∀ v ∈ looks, v.Checks timer.expiry)
    {v : Visit ι}
    (hFirst : v ∈ looks.head?)
    (hReached : Reached timer.expiry v.now) :
    looks = [v] ∧ ∀ s, v.accepted s = [] := by
  have hMember := List.mem_of_mem_head? hFirst
  have hCheck := hChecks v hMember
  have hNot : ¬ Watches s o.call timer v := fun hWatches =>
    hCheck.not_waits hReached
      (Visit.verdict_of_waits hWatches.waits)
  refine ⟨?_, hCheck.adds_nothing hReached⟩
  cases hAsks with
  | waiting stage seen _ hWatches =>
      exact absurd (hWatches v hMember) hNot
  | @answered earlier stage now pipe a _ hWatches =>
      cases earlier with
      | nil =>
          cases hFirst
          rfl
      | cons w earlier =>
          cases hFirst
          exact absurd (hWatches v List.mem_cons_self) hNot

end

/-
  For every operation that may wait, in every run of any number
  of parties, let `E` be the earliest moment at which it is due
  by the limits that its endpoint had set when it began.

  Each of its looks checks for `E`, with the end of the stream
  before and everything else after it. It says that the time
  was up only when a look found it so, and when a look does it
  is over: it says so unless it is a write that moved some
  bytes. A read that says so has changed nothing in the pipe,
  and what finds `E` reached at its first look adds nothing.
  The limits of an endpoint, by which its later operations go,
  are changed by its own calls only.
-/
theorem Run.timeout_spec
    [DecidableEq ι]
    {R : ι → Type}
    {seat : ι → Side}
    {nameA nameB : String}
    {capacity : Nat}
    {routines : (i : ι) → Routine endpointInterface (R i)}
    {past log : List (Visit ι)}
    {t₀ t : Traffic R}
    {i : ι}
    {o : Operation}
    {f : o.Result → Routine endpointInterface (R i)}
    {began : Instant}
    {part : Party o.Result}
    (hRun :
      Run seat (new (.pair nameA nameB capacity) routines)
        past t₀)
    (hCarries : Carries seat t₀ i o.routine f began log part t) :
    (∃ E, (limitsSet (seat i) past).Expiry o.direction began E ∧
      (∀ v ∈ own i log,
        v.side = seat i ∧ v.call = o.call ∧ v.Checks E) ∧
      (∀ r, part = .ready (.done r) → o.TimedOut r →
        ∃ v ∈ own i log, v.verdict = .timedOut) ∧
      (∀ v ∈ own i log, v.verdict = .timedOut →
        ∃ r, part = .ready (.done r) ∧
          (o.TimedOut r ∨ o.Moved r)) ∧
      (∀ room, o = .recv room →
        ∀ r, part = .ready (.done r) → o.TimedOut r →
          ∀ v ∈ own i log, v.after = v.before) ∧
      (∀ v ∈ (own i log).head?, Reached E v.now →
        own i log = [v] ∧ given i log = [])) ∧
    ∀ s, (∀ v ∈ log, v.side = s → ∀ l, v.call.sets l = l) →
      t.pipe.limits.get s = t₀.pipe.limits.get s := by
  have hWhole := hRun.append hCarries.run
  rw [o.routine_eq] at hCarries
  have hAsks := hCarries.asks
  have hExpiry := o.expiry_begin t₀.pipe (seat i) began
  rw [hRun.limits_eq] at hExpiry
  have hChecks : ∀ v ∈ own i log,
      v.Checks
        (o.call.begin t₀.pipe (seat i) began).timer.expiry := by
    intro v hMember
    rcases hAsks.same hMember with ⟨-, hCall, hTimer⟩
    rcases List.append_of_mem (List.mem_filter.mp hMember).1 with
      ⟨earlier, later, hLog⟩
    have hWholeLog :
        past ++ log = (past ++ earlier) ++ v :: later := by
      rw [hLog, List.append_assoc]
    rw [← hTimer]
    exact o.checks hCall (hWhole.sound_before hWholeLog)
  refine ⟨⟨_, hExpiry, ?_, ?_, ?_, ?_, ?_⟩, ?_⟩
  · intro v hMember
    rcases hAsks.same hMember with ⟨hSide, hCall, -⟩
    exact ⟨hSide, hCall, hChecks v hMember⟩
  · intro r hDone hTimedOut
    exact hAsks.exists_timedOut hDone hTimedOut
  · intro v hMember hVerdict
    exact hAsks.result_of_timedOut hMember hVerdict
  · rintro room rfl r hDone hTimedOut v hMember
    exact hAsks.unchanged_of_timedOut hChecks hDone hTimedOut
      hMember
  · intro v hFirst hReached
    rcases hAsks.of_reached hChecks hFirst hReached with
      ⟨hOnly, hNothing⟩
    refine ⟨hOnly, ?_⟩
    rw [given, hOnly, List.flatMap_singleton]
    exact hNothing _
  · intro s hKept
    rw [hWhole.limits_eq, hRun.limits_eq]
    exact limitsSet_append_of_kept past hKept

/-
  A byte is there for `b`, which allows its calls no time at
  all. Its read gives up and leaves the byte where it is.
-/
def hurriedRoutines :
    Side → Routine endpointInterface Unit
  | .a => (Endpoint.put [1]).bind fun _ => .done ()
  | .b =>
    (Endpoint.call (.setTimeout (some .zero))).bind fun _ =>
      (Endpoint.recv 5).bind fun _ => .done ()

/- The run up to the moment when the read begins. -/
def hurriedRun :
    List (Visit Side) × Traffic (fun _ : Side => Unit) :=
  play id [.a, .b]
    (new (.pair "left" "right" 4) hurriedRoutines)

/- The read from there. -/
def hurriedRead :
    List (Visit Side) × Party (Except PipeError Bytes) :=
  (Party.ready (Operation.recv 5).routine).advance .b .b
    hurriedRun.2.pipe 0 0

theorem timeout_spec_of_hurried :
    (hurriedRun.2.pipe.queues.get .b).unread = [1] ∧
      hurriedRead.2.result? =
        some (.error (.timeout "right" .read)) ∧
      ∀ v ∈ own .b hurriedRead.1,
        v.Checks (some 0) ∧ v.after = v.before := by
  have hRun :
      Run id (new (.pair "left" "right" 4) hurriedRoutines)
        hurriedRun.1 hurriedRun.2 :=
    run_play id _ _
  have hCarries :
      Carries id hurriedRun.2 .b (Operation.recv 5).routine
        (fun _ => .done ()) 0 hurriedRead.1 hurriedRead.2
        (hurriedRun.2.advance id .b 0 0).2 :=
    .begins 0 rfl rfl (Int.le_refl _) (Int.le_refl _)
  rcases Run.timeout_spec hRun hCarries with
    ⟨⟨E, hExpiry, hChecks, -, -, hUnchanged, -⟩, -⟩
  have hLimits :
      limitsSet Side.b hurriedRun.1 = { timeout := some .zero } :=
    rfl
  have hTimer :
      (Timer.startingAt 0 none (some .zero)).expiry = some 0 := by
    decide +kernel
  have hNow : E = some 0 := by
    change (limitsSet Side.b hurriedRun.1).Expiry .read 0 E
      at hExpiry
    rw [hLimits] at hExpiry
    rw [← hTimer]
    exact hExpiry.unique
      (Limits.expiry_startingAt { timeout := some .zero } .read 0)
  subst hNow
  refine ⟨by decide, rfl, ?_⟩
  intro v hMember
  exact ⟨(hChecks v hMember).2.2,
    hUnchanged 5 rfl _ rfl ⟨_, _, rfl⟩ v hMember⟩

end Traffic

end Parley
