import Parley.Proofs.Outflow.Offering
import Parley.Proofs.Traffic.EndOfStream
/-
  This file shows that a send which is cut short says exactly
  how far it came. While a send waits, what entered the pipe is
  the first part of its bytes that it counts as written; it is
  told so when it ends, and its two callers make of it an error
  or a count. Writing everything on top of that leaves no byte
  out and puts none in twice.

  Key definitions include:
    * `Visit.cutShort?`
    * `Outflow.Sends`
    * `Outflow.Appends`

  Key theorems include:
    * `Outflow.sends_of_carries`
    * `Outflow.Sends.write_spec`
    * `Outflow.Sends.send_spec`
    * `Outflow.shortWrite_spec`
-/

namespace Parley

------------------------------------------------------------
-- Sends that are cut short
------------------------------------------------------------

/- What a send is told that is cut short by a look. -/
def Call.cutShort? :
    (call : Call) → Look call.Answer → Option ShortWrite
  | .send _, .answer (.error short) => some short
  | _, _ => none

/- What a send is told that is cut short by this hold. -/
def Visit.cutShort?
    {ι : Type}
    (v : Visit ι) : Option ShortWrite :=
  v.call.cutShort? v.outcome.1

/-
  A hold of the lock by a send puts what is accepted of it
  behind what is unread at the far end.
-/
theorem Visit.unread_after_send
    {ι : Type}
    {v : Visit ι}
    {src : Bytes}
    (hCall : v.call = .send src)
    (hSound : v.before.Sound) :
    (v.after.queues.get v.side.other).unread =
      (v.before.queues.get v.side.other).unread ++
        v.accepted v.side.other := by
  have hDelivered : v.delivered v.side.other = [] :=
    if_neg (Ne.symm v.side.other_ne)
  rw [v.unread_append_accepted hSound, hDelivered,
    List.nil_append]
  · rw [hCall]
    simp
  · rintro ⟨hSide, -⟩
    exact v.side.other_ne hSide.symm

namespace Outflow

open Traffic

variable {ι : Type} {α : Type}

/-
  How far a send has come whose answer is turned into a result:
  what it gave is what it counts as written, while it waits as
  well as when it ends; and when it is cut short, a hold of the
  lock told it so.
-/
inductive Sends
    (src : Bytes)
    (result : Except ShortWrite Nat → α)
    (looks : List (Visit ι))
    (gave : Bytes) : Party α → Prop where
  | waiting
      (stage : Call.Stage)
      (seen : Nat)
      (hFits : stage.sending.written ≤ src.length)
      (hRest :
        stage.sending.rest = src.drop stage.sending.written)
      (hGave : gave = src.take stage.sending.written) :
      Sends src result looks gave
        (.held (.send src) stage seen fun a => .done (result a))
  | sent
      (hGave : gave = src) :
      Sends src result looks gave
        (.ready (.done (result (.ok src.length))))
  | cut
      (short : ShortWrite)
      (hTold : ∃ v ∈ looks, v.cutShort? = some short)
      (hFits : short.written ≤ src.length)
      (hGave : gave = src.take short.written) :
      Sends src result looks gave
        (.ready (.done (result (.error short))))

section

variable {src : Bytes} {result : Except ShortWrite Nat → α}

/- The next hold of the lock by a send that has come so far. -/
theorem sends_conclude
    (looks : List (Visit ι))
    {stage : Call.Stage}
    {p : Pipe}
    (i : ι)
    (s : Side)
    (now : Instant)
    (hFits : stage.sending.written ≤ src.length)
    (hRest :
      stage.sending.rest = src.drop stage.sending.written)
    (hSound : p.Sound) :
    Sends src result
      (looks ++ [⟨i, s, .send src, stage, now, p⟩])
      (src.take stage.sending.written ++
        (Visit.mk i s (.send src) stage now p).accepted s.other)
      (Party.conclude ⟨i, s, .send src, stage, now, p⟩
        fun a => .done (result a)) := by
  have hLast :
      (⟨i, s, .send src, stage, now, p⟩ : Visit ι) ∈
        looks ++ [⟨i, s, .send src, stage, now, p⟩] :=
    List.mem_append_right _ List.mem_cons_self
  simp only [Visit.accepted, if_true, Party.conclude]
  generalize hLook :
    (Visit.mk i s (.send src) stage now p).outcome.1 = look
  rcases look_send_cases hLook hSound hFits hRest with
    ⟨count, hCount, hMoved, hOutcome⟩
  have hGiven :
      src.take stage.sending.written ++
          (Call.send src).moved stage look =
        src.take (stage.sending.written + count) := by
    rw [hMoved, ← List.take_add]
  rw [hGiven]
  rcases hOutcome with ⟨e, rfl, rfl⟩ | ⟨rfl, hAll⟩ | rfl
  · refine .cut _ ⟨_, hLast, ?_⟩ hFits rfl
    rw [Visit.cutShort?, hLook]
    rfl
  · refine .sent ?_
    rw [hAll, List.take_length]
  · exact .waiting _ _ hCount rfl rfl

end

/- In every run a send counts what it gave. -/
theorem sends_of_carries
    [DecidableEq ι]
    {R : ι → Type}
    {seat : ι → Side}
    {t₀ t : Traffic R}
    {i : ι}
    {src : Bytes}
    {result : Except ShortWrite Nat → α}
    {f : α → Routine endpointInterface (R i)}
    {began : Instant}
    {log : List (Visit ι)}
    {part : Party α}
    (hCarries :
      Carries seat t₀ i (.ask (.send src) fun a => .done (result a))
        f began log part t)
    (hSound : t₀.pipe.Sound) :
    Sends src result (own i log) (given i log) part := by
  induction hCarries with
  | begins now =>
      simp only [Party.advance]
      rw [given_singleton
          (v := ⟨i, seat i, .send src, _, now, t₀.pipe⟩) rfl,
        own_singleton
          (v := ⟨i, seat i, .send src, _, now, t₀.pipe⟩) rfl]
      exact sends_conclude [] i (seat i) now
        (Nat.zero_le _) rfl hSound
  | goesOn next now hUndone _ _ hCarries ih =>
      have hSound := hCarries.run.sound_from hSound
      rw [own_append, given_append]
      generalize own i _ = looks at ih
      generalize given i _ = gave at ih
      cases ih with
      | waiting stage seen hFits hRest hGave =>
          simp only [Party.advance]
          rw [given_singleton
              (v := ⟨i, seat i, .send src, stage, now, _⟩) rfl,
            own_singleton
              (v := ⟨i, seat i, .send src, stage, now, _⟩) rfl]
          rw [hGave]
          exact sends_conclude looks i (seat i) now hFits hRest
            hSound
      | sent => cases hUndone
      | cut => cases hUndone
  | beside j next now hOther _ _ _ ih =>
      rw [own_append, given_append, own_advance_of_ne hOther,
        given_advance_of_ne hOther, List.append_nil,
        List.append_nil]
      exact ih

/-
  A write reports what it gave, and at least a byte of any; it
  fails when it gave none, for the reason that cut it short.
-/
theorem Sends.write_spec
    {src gave : Bytes}
    {looks : List (Visit ι)}
    {part : Party (Except IoError Nat)}
    (hSends :
      Sends src (Operation.write src).conclude looks gave part) :
    (∀ n, part = .ready (.done (.ok n)) →
      n ≤ src.length ∧ gave = src.take n ∧ (src ≠ [] → 0 < n)) ∧
    ∀ e, part = .ready (.done (.error e)) →
      gave = [] ∧
        ∃ v ∈ looks, ∃ e',
          v.cutShort? = some ⟨0, e'⟩ ∧ e = .pipe e' := by
  cases hSends with
  | waiting => exact ⟨by simp, by simp⟩
  | sent hGave =>
      refine ⟨?_, by simp [Operation.conclude]⟩
      rintro n hDone
      cases hDone
      exact ⟨Nat.le_refl _, by rw [hGave, List.take_length],
        List.length_pos_iff.mpr⟩
  | cut short hTold hFits hGave =>
      simp only [Operation.conclude, Party.ready.injEq,
        Routine.done.injEq]
      split
      · next hSome =>
          refine ⟨?_, by simp⟩
          rintro n hDone
          cases hDone
          exact ⟨hFits, hGave, fun _ => hSome⟩
      · next hNone =>
          refine ⟨by simp, ?_⟩
          rintro e hDone
          cases hDone
          rcases short with ⟨n, e'⟩
          have hZero : n = 0 := Nat.eq_zero_of_not_pos hNone
          subst hZero
          rcases hTold with ⟨v, hMember, hCut⟩
          exact ⟨hGave, v, hMember, e', hCut, rfl⟩

/-
  A send succeeds when it gave everything, and fails for the
  reason that cut it short.
-/
theorem Sends.send_spec
    {src gave : Bytes}
    {looks : List (Visit ι)}
    {part : Party (Except PipeError Nat)}
    (hSends :
      Sends src (Operation.send src).conclude looks gave part) :
    (∀ n, part = .ready (.done (.ok n)) →
      n = src.length ∧ gave = src) ∧
    ∀ e, part = .ready (.done (.error e)) →
      ∃ n ≤ src.length, gave = src.take n ∧
        ∃ v ∈ looks, v.cutShort? = some ⟨n, e⟩ := by
  cases hSends with
  | waiting => exact ⟨by simp, by simp⟩
  | sent hGave =>
      refine ⟨?_, by simp [Operation.conclude]⟩
      rintro n hDone
      cases hDone
      exact ⟨rfl, hGave⟩
  | cut short hTold hFits hGave =>
      refine ⟨by simp [Operation.conclude], ?_⟩
      rintro e hDone
      cases hDone
      exact ⟨short.written, hFits, hGave, hTold⟩

------------------------------------------------------------
-- Only sends
------------------------------------------------------------

/- The call is a send. -/
def IsSend
    (call : Call) : Prop :=
  ∃ src, call = .send src

/- A send, or a write, makes no other call. -/
theorem only_sends
    (o : Operation)
    (hCall : IsSend o.call) :
    o.routine.Only IsSend := by
  rw [o.routine_eq]
  exact ⟨hCall, fun _ => trivial⟩

/- Writing everything makes no other call either. -/
theorem only_sends_writeAll
    (src : Bytes) :
    (ByteStream.writeAll Endpoint.held src).Only IsSend := by
  refine ⟨?_, fun _ => trivial⟩
  rintro ⟨e, rest⟩
  simp only
  split
  · trivial
  · refine Routine.Only.bind ?_ ?_
    · exact (only_sends (.write rest) ⟨rest, rfl⟩).bind
        fun _ => trivial
    · rintro ⟨e | n, e⟩
      · trivial
      · cases n <;> trivial

/-
  All that party `i` did are sends at its side, and each put
  what is counted as given behind what was unread at the far
  end.
-/
def Appends
    [DecidableEq ι]
    (s : Side)
    (i : ι)
    (log : List (Visit ι)) : Prop :=
  ∀ v ∈ own i log,
    v.side = s ∧ IsSend v.call ∧
      (v.after.queues.get s.other).unread =
        (v.before.queues.get s.other).unread ++
          v.accepted s.other

------------------------------------------------------------
-- Short writes are reported exactly
------------------------------------------------------------

/-
  In every run of any number of parties, a write that succeeds
  gave as many of its first bytes as it says, and one at least
  unless it has none; a write that fails gave none. A send that
  succeeds gave everything, and both fail for the reason that
  the pipe told them. Writing everything never finds that
  nothing is taken, what it gives is a first part of its bytes,
  and everything just when it succeeds.
-/
theorem shortWrite_spec
    [DecidableEq ι]
    {R : ι → Type}
    {seat : ι → Side}
    {nameA nameB : String}
    {capacity : Nat}
    {routines : (i : ι) → Routine endpointInterface (R i)}
    {past log : List (Visit ι)}
    {t₀ t : Traffic R}
    (hRun :
      Run seat (new (.pair nameA nameB capacity) routines)
        past t₀)
    (i : ι)
    (src : Bytes)
    (began : Instant) :
    (∀ f part,
      Carries seat t₀ i (Endpoint.write src) f began log part t →
      Appends (seat i) i log ∧
      (∀ n, part = .ready (.done (.ok n)) →
        n ≤ src.length ∧ given i log = src.take n ∧
          (src ≠ [] → 0 < n)) ∧
      ∀ e, part = .ready (.done (.error e)) →
        given i log = [] ∧
          ∃ v ∈ own i log, ∃ e',
            v.cutShort? = some ⟨0, e'⟩ ∧ e = .pipe e') ∧
    (∀ f part,
      Carries seat t₀ i (Endpoint.send src) f began log part t →
      Appends (seat i) i log ∧
      (∀ n, part = .ready (.done (.ok n)) →
        n = src.length ∧ given i log = src) ∧
      ∀ e, part = .ready (.done (.error e)) →
        ∃ n ≤ src.length, given i log = src.take n ∧
          ∃ v ∈ own i log, v.cutShort? = some ⟨n, e⟩) ∧
    ∀ f part,
      Carries seat t₀ i (ByteStream.writeAll Endpoint.held src) f
        began log part t →
      Appends (seat i) i log ∧
      given i log <+: src ∧
      ∀ r e, part = .ready (.done (r, e)) →
        r ≠ .error .shortOutput ∧
          (r = .ok () ↔ given i log = src) := by
  have hSound := hRun.sound (.pair nameA nameB capacity)
  have hAppends : ∀ {α : Type} {p : Routine endpointInterface α}
      {f : α → Routine endpointInterface (R i)} {part : Party α},
      p.Only IsSend →
      Carries seat t₀ i p f began log part t →
      Appends (seat i) i log := by
    intro α p f part hOnly hCarries v hMember
    rcases (hCarries.only hOnly).1 v hMember with
      ⟨hSide, src', hCall⟩
    rcases List.append_of_mem (List.mem_filter.mp hMember).1 with
      ⟨earlier, later, hLog⟩
    have hWholeLog :
        past ++ log = (past ++ earlier) ++ v :: later := by
      rw [hLog, List.append_assoc]
    have hBefore :=
      (hRun.append hCarries.run).sound_before hWholeLog
    refine ⟨hSide, ⟨src', hCall⟩, ?_⟩
    rw [← hSide]
    exact v.unread_after_send hCall hBefore
  refine ⟨?_, ?_, ?_⟩
  · intro f part hCarries
    refine ⟨hAppends (only_sends (.write src) ⟨src, rfl⟩) hCarries,
      ?_⟩
    have hOne := (Operation.write src).routine_eq
    rw [show Endpoint.write src = _ from hOne] at hCarries
    exact (sends_of_carries hCarries hSound).write_spec
  · intro f part hCarries
    refine ⟨hAppends (only_sends (.send src) ⟨src, rfl⟩) hCarries,
      ?_⟩
    have hOne := (Operation.send src).routine_eq
    rw [show Endpoint.send src = _ from hOne] at hCarries
    exact (sends_of_carries hCarries hSound).send_spec
  · intro f part hCarries
    refine ⟨hAppends (only_sends_writeAll src) hCarries, ?_⟩
    let always : Bytes → Prop := fun gave => gave <+: src
    have hAlways : always [] := List.nil_prefix
    have hOffers :
        Offers always (ByteStream.writeAll Endpoint.held src) _
          [] :=
      offers_writeAll (fun _ => rfl) fun n _ =>
        List.take_prefix n src
    rcases offers_of_carries hCarries hSound hAlways hOffers with
      ⟨hPrefix, hParty⟩
    refine ⟨hPrefix, ?_⟩
    rintro r e rfl
    rcases hParty with ⟨-, hNot, n, hFits, hGave, hAll⟩
    refine ⟨hNot, hAll.trans ?_⟩
    rw [hGave, List.nil_append]
    constructor
    · intro hCount
      rw [hCount, List.take_length]
    · intro hWhole
      have hLength := congrArg List.length hWhole
      rw [List.length_take] at hLength
      omega

/-
  A write of three bytes into a pipe for two, whose endpoint
  allows it five nanoseconds.
-/
def tightRoutines :
    Side → Routine endpointInterface Unit
  | .a =>
    (Endpoint.call (.setTimeout (some ⟨5⟩))).bind fun _ =>
      (Endpoint.write [1, 2, 3]).bind fun _ => .done ()
  | .b => .done ()

/- The run up to the moment when the write begins. -/
def tightRun :
    List (Visit Side) × Traffic (fun _ : Side => Unit) :=
  play id [.a] (new (.pair "left" "right" 2) tightRoutines)

/- The write puts two bytes and waits. -/
def tightPut :
    List (Visit Side) × Party (Except IoError Nat) :=
  (Party.ready (Endpoint.write [1, 2, 3])).advance .a .a
    tightRun.2.pipe 0 0

/- Ten nanoseconds later it looks again. -/
def tightEnd :
    List (Visit Side) × Party (Except IoError Nat) :=
  tightPut.2.advance .a .a (tightRun.2.advance id .a 0 0).2.pipe
    10 10

theorem shortWrite_spec_of_tight :
    tightEnd.2.result? = some (.ok 2) ∧
      given .a (tightPut.1 ++ tightEnd.1) = [1, 2] ∧
      Appends .a .a (tightPut.1 ++ tightEnd.1) := by
  have hRun :
      Run id (new (.pair "left" "right" 2) tightRoutines)
        tightRun.1 tightRun.2 :=
    run_play id _ _
  have hBegins :
      Carries id tightRun.2 .a (Endpoint.write [1, 2, 3])
        (fun _ => .done ()) 0 tightPut.1 tightPut.2
        (tightRun.2.advance id .a 0 0).2 :=
    .begins 0 rfl rfl (Int.le_refl _) (Int.le_refl _)
  have hCarries :
      Carries id tightRun.2 .a (Endpoint.write [1, 2, 3])
        (fun _ => .done ()) 0 (tightPut.1 ++ tightEnd.1)
        tightEnd.2
        ((tightRun.2.advance id .a 0 0).2.advance id .a 10 10).2 :=
    hBegins.goesOn 10 10 rfl (by decide) (Int.le_refl _)
  have hResult : tightEnd.2.result? = some (.ok 2) := by
    decide +kernel
  rcases (shortWrite_spec hRun .a [1, 2, 3] 0).1 _ _ hCarries with
    ⟨hAppends, hOk, -⟩
  exact ⟨hResult,
    (hOk 2 (Party.eq_ready_of_result? hResult)).2.1, hAppends⟩

end Outflow

end Parley
