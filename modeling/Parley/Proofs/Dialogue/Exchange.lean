import Parley.Proofs.Dialogue.Calls
import Parley.Proofs.Traffic.Conservation
import Parley.Proofs.Traffic.Wakeups
/-
  This file lets two parties that keep to one plan talk over
  the two ends of a pipe, and shows that they are never stuck:
  as long as they have not both come to their end, one of them
  can go on. When they have, each got what the plan has the
  other say, and the pipe is empty.

  Key definitions include:
    * `Dialogue.Role.seat`
    * `Dialogue.PartyKeeps`
    * `Dialogue.InKeeping`

  Key theorems include:
    * `Dialogue.InKeeping.visit`
    * `Dialogue.inKeeping_of_run`
    * `Dialogue.InKeeping.halted`
    * `Dialogue.InKeeping.settled`
    * `Dialogue.runnable_or_over`
-/

namespace Parley

namespace Dialogue

open Traffic

------------------------------------------------------------
-- Two parties at one pipe
------------------------------------------------------------

/- The side of each party, when the surrogate sits at `home`. -/
def Role.seat
    (home : Side) : Role → Side
  | .surrogate => home
  | .client => home.other

@[simp] theorem Role.seat_other
    (home : Side)
    (r : Role) :
    r.other.seat home = (r.seat home).other := by
  cases r <;> simp [seat, other]

/-
  A party keeps to the plan from where it is: in what is left
  of its routine, or in the call that it waits in.
-/
def PartyKeeps
    {α : Type}
    (plan : List Turn)
    (r : Role)
    (post : α → Bytes → Bytes → Prop)
    (got gave : Bytes) :
    (party : Party α) → Prop
  | .ready p => Keeps plan r p post got gave
  | .held call stage _ k =>
    UnderWay plan r call stage
      (fun a => Keeps plan r (k a) post) got gave ∧
    BytesLeft call stage

section

variable {R : Role → Type} {plan : List Turn} {home : Side}
variable {post : (r : Role) → R r → Bytes → Bytes → Prop}
variable {log : List (Visit Role)} {t : Traffic R}

/-
  What every step keeps: nothing was closed or cleared, no time
  limit is set, and each party, by what it got and gave so far,
  has said what the plan has it say and keeps to the plan.
-/
structure InKeeping
    (plan : List Turn)
    (home : Side)
    (post : (r : Role) → R r → Bytes → Bytes → Prop)
    (log : List (Visit Role))
    (t : Traffic R) : Prop where
  call_ne : ∀ v ∈ log, v.call ≠ .clear
  not_closes : ∀ v ∈ log, ∀ s, ¬ v.closes s
  limits : t.pipe.limits = ⟨{}, {}⟩
  gave_isPrefix : ∀ r,
    accepted (r.seat home).other log <+: said plan r
  keeps : ∀ r,
    PartyKeeps plan r (post r)
      (delivered (r.seat home) log)
      (accepted (r.seat home).other log) (t.parties r)

------------------------------------------------------------
-- Steps
------------------------------------------------------------

/-
  A hold of the lock by a call that is under way keeps all of
  this. The books of the other party are not touched by it.
-/
theorem InKeeping.visit
    {v : Visit Role}
    {k : v.call.Answer → Routine endpointInterface (R v.party)}
    (hKeeping : InKeeping plan home post log t)
    (hSound : t.pipe.Sound)
    (hEof : ∀ s, (t.pipe.queues.get s).eof = false)
    (hBooks : ∀ s,
      delivered s log ++ (t.pipe.queues.get s).unread =
        accepted s log)
    (hBefore : v.before = t.pipe)
    (hSide : v.side = v.party.seat home)
    (hUnderWay :
      UnderWay plan v.party v.call v.stage
        (fun a => Keeps plan v.party (k a) (post v.party))
        (delivered v.side log) (accepted v.side.other log)) :
    InKeeping plan home post (log ++ [v]) (t.conclude v k) := by
  have hGave := hKeeping.gave_isPrefix v.party
  have hHeard := hKeeping.gave_isPrefix v.party.other
  rw [Role.seat_other, Side.other_other, ← hBooks] at hHeard
  rw [← hSide] at hGave hHeard
  rw [← hBefore] at hSound hEof hHeard
  have hGoesOn := hUnderWay.goesOn hSound hEof hGave hHeard
  refine ⟨?_, ?_, ?_, ?_, ?_⟩
  · rw [List.forall_mem_append, List.forall_mem_singleton]
    exact ⟨hKeeping.call_ne, hGoesOn.call_ne⟩
  · rw [List.forall_mem_append, List.forall_mem_singleton]
    exact ⟨hKeeping.not_closes, hGoesOn.not_closes⟩
  · have hLimits := hGoesOn.limits
    rw [hBefore, hKeeping.limits] at hLimits
    exact hLimits
  · intro r
    rcases r.eq_or_eq_other v.party with rfl | rfl
    · rw [← hSide, accepted_concat]
      exact hGoesOn.gave_isPrefix
    · have hOther := hKeeping.gave_isPrefix v.party.other
      rw [Role.seat_other, ← hSide, Side.other_other] at hOther ⊢
      rw [accepted_concat_side]
      exact hOther
  · intro r
    rcases r.eq_or_eq_other v.party with rfl | rfl
    · have hOutcome := hGoesOn.outcome
      rw [conclude_parties_self, ← hSide, accepted_concat,
        delivered_concat]
      cases hLook : v.outcome.1 with
      | answer a =>
          rw [hLook] at hOutcome
          exact hOutcome
      | wait stage =>
          rw [hLook] at hOutcome
          exact hOutcome
    · have hOther := hKeeping.keeps v.party.other
      rw [conclude_parties_of_ne t v k v.party.other_ne]
      rw [Role.seat_other, ← hSide, Side.other_other] at hOther ⊢
      rw [accepted_concat_side, delivered_concat_other]
      exact hOther

/- A party that begins the next round of a loop keeps to it. -/
theorem InKeeping.around
    {r : Role}
    {σ β : Type}
    {body : σ → Routine endpointInterface (σ ⊕ β)}
    {s : σ}
    {k : β → Routine endpointInterface (R r)}
    (hKeeping : InKeeping plan home post log t)
    (hParty : t.parties r = .ready (.loop body s k)) :
    InKeeping plan home post log
      { t with
        parties := Function.update t.parties r
          (.ready (Routine.unroll body s k)) } := by
  refine ⟨hKeeping.call_ne, hKeeping.not_closes,
    hKeeping.limits, hKeeping.gave_isPrefix, ?_⟩
  intro q
  by_cases hSame : q = r
  · subst hSame
    have hLoop := hKeeping.keeps q
    rw [hParty] at hLoop
    simp only [Function.update_self]
    exact Keeps.unroll hLoop
  · simp only [Function.update_of_ne hSame]
    exact hKeeping.keeps q

------------------------------------------------------------
-- Runs
------------------------------------------------------------

variable {nameA nameB : String} {capacity : Nat}
variable {routines : (r : Role) → Routine endpointInterface (R r)}

/- In keeping, what is delivered and unread was accepted. -/
theorem InKeeping.books
    (hKeeping : InKeeping plan home post log t)
    (hRun :
      Run (Role.seat home)
        (new (.pair nameA nameB capacity) routines) log t)
    (s : Side) :
    delivered s log ++ (t.pipe.queues.get s).unread =
      accepted s log :=
  hRun.delivered_append_unread hKeeping.call_ne hKeeping.not_closes s

/- Two routines that keep to a plan do so in every run. -/
theorem inKeeping_of_run
    (hRun :
      Run (Role.seat home)
        (new (.pair nameA nameB capacity) routines) log t)
    (hKeeps : ∀ r, Keeps plan r (routines r) (post r) [] []) :
    InKeeping plan home post log t := by
  induction hRun with
  | refl =>
      refine ⟨?_, ?_, rfl, fun r => List.nil_prefix, hKeeps⟩
      · simp
      · simp
  | @advance log t r began now _ _ hRun ih =>
      have hSound := hRun.sound (.pair nameA nameB capacity)
      have hEof := hRun.eof_eq_false ih.not_closes
      have hBooks := ih.books hRun
      have hParty := ih.keeps r
      have hStep := t.advanced_advance (Role.seat home) r began now
      generalize t.advance (Role.seat home) r began now = step
        at hStep ⊢
      cases hStep with
      | rests =>
          rw [List.append_nil]
          exact ih
      | around body s k hThere =>
          rw [List.append_nil]
          exact ih.around hThere
      | begins call k hThere =>
          rw [hThere] at hParty
          apply ih.visit hSound hEof hBooks rfl rfl
          exact UnderWay.begins ih.limits hParty
      | resumes call stage seen k hThere =>
          rw [hThere] at hParty
          apply ih.visit hSound hEof hBooks rfl rfl
          exact hParty.1

------------------------------------------------------------
-- Nobody is stuck
------------------------------------------------------------

/-
  A party that cannot go on is halted at a turn of the plan. A
  sleeping reader needs bytes of a turn and none are there; a
  sleeping writer has bytes of its turn left while others are
  in their way.
-/
theorem InKeeping.halted
    {r : Role}
    (hKeeping : InKeeping plan home post log t)
    (hHeeds : (t.parties r).Heeds (r.seat home) t.pipe)
    (hPost : ∀ a got gave,
      post r a got gave → Past plan r got gave)
    (hStuck : ¬ Runnable (Role.seat home) t r) :
    ∃ past,
      Halted plan r
        (delivered (r.seat home) log)
        (accepted (r.seat home).other log)
        (t.pipe.queues.get (r.seat home)).unread
        (t.pipe.queues.get (r.seat home).other).unread past ∧
      (past = plan → ∃ a, t.parties r = .ready (.done a)) := by
  have hKeeps := hKeeping.keeps r
  rw [Runnable, not_and_or] at hStuck
  push Not at hStuck
  rcases hStuck with ⟨a, hDone⟩ | ⟨call, hAsleep⟩
  · rw [hDone] at hKeeps
    exact ⟨plan, .atEnd (hPost a _ _ hKeeps), fun _ => ⟨a, hDone⟩⟩
  · have hBlocked := hAsleep.blocked hHeeds
    rcases hAsleep with ⟨stage, seen, k, hHeld, -⟩
    rw [hHeld] at hKeeps
    rcases hKeeps with ⟨hUnderWay, hLeft⟩
    cases call with
    | recv room =>
        rcases hUnderWay.listening with
          ⟨past, turn, hPlan, hSpeaker, hPast, hShort⟩
        refine ⟨past, .listening turn hPlan hSpeaker hPast hShort
          hBlocked.2, ?_⟩
        rintro rfl
        exact (not_concat_isPrefix _ _ hPlan).elim
    | send src =>
        rcases hUnderWay.speaking hLeft with
          ⟨past, turn, hPlan, hSpeaker, hPast, hShort⟩
        refine ⟨past, .speaking turn hPlan hSpeaker hPast hShort
          hBlocked.2, ?_⟩
        rintro rfl
        exact (not_concat_isPrefix _ _ hPlan).elim
    | _ => exact hBlocked.elim

/-
  Two parties that are past the whole plan have exchanged just
  what the plan foresees: no more was given than it has them
  say, and not less was heard than was given.
-/
theorem InKeeping.settled
    (hKeeping : InKeeping plan home post log t)
    (hBooks : ∀ s,
      delivered s log ++ (t.pipe.queues.get s).unread =
        accepted s log)
    (hPast : ∀ r : Role, Past plan r
      (delivered (r.seat home) log)
      (accepted (r.seat home).other log))
    (r : Role) :
    delivered (r.seat home) log = said plan r.other ∧
      accepted (r.seat home).other log = said plan r ∧
      (t.pipe.queues.get (r.seat home)).unread = [] := by
  have hGave : ∀ r : Role,
      accepted (r.seat home).other log = said plan r := by
    intro r
    exact (hKeeping.gave_isPrefix r).eq_of_length_le
      (hPast r).said_le
  have hBook := hBooks (r.seat home)
  have hOther := hGave r.other
  rw [Role.seat_other, Side.other_other] at hOther
  rw [hOther] at hBook
  have hUnread :
      (t.pipe.queues.get (r.seat home)).unread = [] := by
    have hHeard := (hPast r).heard_le
    rw [← hBook, List.length_append] at hHeard
    apply List.eq_nil_of_length_eq_zero
    omega
  rw [hUnread, List.append_nil] at hBook
  exact ⟨hBook, hGave r, hUnread⟩

/-
  Two parties that keep to one plan are never stuck: in every
  state of every run one of them can go on, or both are done,
  each got and gave all that the plan foresees, and nothing is
  left in the pipe.
-/
theorem runnable_or_over
    (hRun :
      Run (Role.seat home)
        (new (.pair nameA nameB capacity) routines) log t)
    (hKeeps : ∀ r, Keeps plan r (routines r) (post r) [] [])
    (hPost : ∀ r a got gave,
      post r a got gave → Past plan r got gave) :
    (∃ r, Runnable (Role.seat home) t r) ∨
    ((∀ r, ∃ a, t.parties r = .ready (.done a) ∧
      post r a (said plan r.other) (said plan r)) ∧
    ∀ s, (t.pipe.queues.get s).unread = []) := by
  have hKeeping := inKeeping_of_run hRun hKeeps
  have hBooks := hKeeping.books hRun
  have hHeeds := hRun.heeds (.pair nameA nameB capacity)
  by_cases hRunnable : ∃ r, Runnable (Role.seat home) t r
  · exact .inl hRunnable
  · right
    push Not at hRunnable
    have hDone : ∀ r, ∃ a,
        t.parties r = .ready (.done a) ∧
          post r a (delivered (r.seat home) log)
            (accepted (r.seat home).other log) := by
      intro r
      rcases hKeeping.halted (hHeeds r) (hPost r) (hRunnable r)
        with ⟨past, hHalted, hOver⟩
      rcases hKeeping.halted (hHeeds r.other) (hPost r.other)
        (hRunnable r.other) with ⟨past', hHalted', -⟩
      rw [Role.seat_other, Side.other_other] at hHalted'
      rcases hOver (hHalted.eq_plan hHalted' (hBooks _)
        (hBooks _)) with ⟨a, hParty⟩
      have hEnd := hKeeping.keeps r
      rw [hParty] at hEnd
      exact ⟨a, hParty, hEnd⟩
    have hSettled := hKeeping.settled hBooks fun r => by
      rcases hDone r with ⟨a, -, hEnd⟩
      exact hPost r a _ _ hEnd
    refine ⟨fun r => ?_, fun s => ?_⟩
    · rcases hDone r with ⟨a, hParty, hEnd⟩
      rcases hSettled r with ⟨hGot, hGave, -⟩
      rw [hGot, hGave] at hEnd
      exact ⟨a, hParty, hEnd⟩
    · rcases s.eq_or_eq_other home with rfl | rfl
      · exact (hSettled .surrogate).2.2
      · exact (hSettled .client).2.2

end

end Dialogue

end Parley
