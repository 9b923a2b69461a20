import Parley.Proofs.Traffic.Conservation
/-
  This file follows one part of what a party does, such as a
  single call, from its first step on, while any others use the
  pipe as well. What the party does before and after is left
  open: the part may be begun in any state, and what comes
  after it may be any routine that depends on its result.

  Key definitions include:
    * `Party.bind`
    * `Party.advance`
    * `Traffic.Carries`
    * `Traffic.own`
    * `Traffic.given`
    * `Routine.Only`
    * `Traffic.Asks`
    * `Operation`

  Key theorems include:
    * `Traffic.advance_of_bind`
    * `Traffic.Carries.here`
    * `Traffic.Carries.run`
    * `Traffic.Carries.exists_of_undone`
    * `Traffic.Carries.advance`
    * `Traffic.Carries.only`
    * `Traffic.Carries.asks`
    * `Operation.routine_eq`
    * `Operation.undone`
-/

namespace Parley

------------------------------------------------------------
-- A party by itself
------------------------------------------------------------

namespace Party

variable {ι : Type} {α β : Type}

/- Go on with `f` once a party is done. -/
def bind
    (party : Party α)
    (f : α → Routine endpointInterface β) : Party β :=
  match party with
  | .ready p => .ready (p.bind f)
  | .held call stage seen k =>
    .held call stage seen fun a => (k a).bind f

/- How a party goes on after a hold of the lock. -/
def conclude
    (v : Visit ι)
    (k : v.call.Answer → Routine endpointInterface α) :
    Party α :=
  match v.outcome.1 with
  | .answer a => .ready (k a)
  | .wait stage =>
    .held v.call stage
      (v.after.signals.get (v.call.waitsFor v.side)) k

/-
  One step of party `i`, at side `s` of a pipe as it is found.
-/
def advance
    (i : ι)
    (s : Side)
    (p : Pipe)
    (began now : Instant)
    (party : Party α) : List (Visit ι) × Party α :=
  match party with
  | .ready (.done a) => ([], .ready (.done a))
  | .ready (.loop body x k) =>
    ([], .ready (Routine.unroll body x k))
  | .ready (.ask call k) =>
    let v : Visit ι :=
      ⟨i, s, call, call.begin p s began, now, p⟩
    ([v], conclude v k)
  | .held call stage _ k =>
    let v : Visit ι := ⟨i, s, call, stage, now, p⟩
    ([v], conclude v k)

/- What comes after a party does not change its next step. -/
theorem bind_conclude
    (v : Visit ι)
    (k : v.call.Answer → Routine endpointInterface α)
    (f : α → Routine endpointInterface β) :
    (conclude v k).bind f =
      conclude v fun a => (k a).bind f := by
  unfold conclude
  split <;> rfl

/-
  What comes after a party changes no step of it until it is
  done.
-/
theorem advance_bind
    {party : Party α}
    (f : α → Routine endpointInterface β)
    (hUndone : party.result? = none)
    (i : ι)
    (s : Side)
    (p : Pipe)
    (began now : Instant) :
    (party.bind f).advance i s p began now =
      ((party.advance i s p began now).1,
        (party.advance i s p began now).2.bind f) := by
  cases party with
  | ready q =>
      cases q with
      | done a => cases hUndone
      | ask call k =>
          exact congrArg _ (bind_conclude ⟨i, s, call, _, now, p⟩
            k f).symm
      | loop body x k =>
          simp only [bind, Routine.bind, advance,
            Routine.unroll_bind]
  | held call stage seen k =>
      exact congrArg _ (bind_conclude ⟨i, s, call, stage, now, p⟩
        k f).symm

end Party

namespace Traffic

variable {ι : Type} {R : ι → Type} [DecidableEq ι] {α : Type}
variable {seat : ι → Side} {i : ι} {t₀ t : Traffic R}
variable {log : List (Visit ι)}

/- A step of party `i` is the one that it takes by itself. -/
theorem advance_self
    (seat : ι → Side)
    (t : Traffic R)
    (i : ι)
    (began now : Instant) :
    (t.advance seat i began now).1 =
        ((t.parties i).advance i (seat i) t.pipe began now).1 ∧
      (t.advance seat i began now).2.parties i =
        ((t.parties i).advance i (seat i) t.pipe began now).2 := by
  have hStep := t.advanced_advance seat i began now
  generalize t.advance seat i began now = step at hStep ⊢
  cases hStep with
  | rests a hParty =>
      rw [hParty]
      exact ⟨rfl, rfl⟩
  | around body s k hParty =>
      rw [hParty]
      exact ⟨rfl, Function.update_self ..⟩
  | begins call k hParty =>
      rw [hParty]
      exact ⟨rfl, conclude_parties_self ..⟩
  | resumes call stage seen k hParty =>
      rw [hParty]
      exact ⟨rfl, conclude_parties_self ..⟩

/-
  As long as a party is at a part of its routine, the step that
  it takes is the step that the part takes.
-/
theorem advance_of_bind
    (seat : ι → Side)
    {part : Party α}
    {f : α → Routine endpointInterface (R i)}
    (hHere : t.parties i = part.bind f)
    (hUndone : part.result? = none)
    (began now : Instant) :
    (t.advance seat i began now).1 =
        (part.advance i (seat i) t.pipe began now).1 ∧
      (t.advance seat i began now).2.parties i =
        ((part.advance i (seat i) t.pipe began now).2).bind f := by
  have hStep := t.advance_self seat i began now
  rw [hHere, Party.advance_bind f hUndone] at hStep
  exact hStep

/- A step of one party is none of another. -/
theorem advance_parties_of_ne
    {j : ι}
    (hOther : i ≠ j)
    (began now : Instant) :
    (t.advance seat j began now).2.parties i = t.parties i := by
  have hStep := t.advanced_advance seat j began now
  generalize t.advance seat j began now = step at hStep ⊢
  cases hStep with
  | rests => rfl
  | around => exact Function.update_of_ne hOther ..
  | begins call k => exact conclude_parties_of_ne _ _ _ hOther
  | resumes call stage seen k =>
      exact conclude_parties_of_ne _ _ _ hOther

/- All that a step logs is by the party that goes on. -/
theorem party_of_mem_advance
    {j : ι}
    {began now : Instant}
    {v : Visit ι}
    (hMember : v ∈ (t.advance seat j began now).1) :
    v.party = j := by
  rcases t.advance_cases seat j began now with
    ⟨hLog, -⟩ | ⟨w, hLog, hParty, -⟩
  · rw [hLog] at hMember
    cases hMember
  · rw [hLog, List.mem_singleton] at hMember
    rw [hMember]
    exact hParty

------------------------------------------------------------
-- A part of what a party does
------------------------------------------------------------

/-
  Party `i` has begun with `p` at `began`, in the state `t₀`,
  and is to go on with `f`: what was logged since, how far it
  has come with `p`, and the state by now. The others may do
  anything in between. Only a part that has a step to take is
  begun.
-/
inductive Carries
    (seat : ι → Side)
    (t₀ : Traffic R)
    (i : ι)
    (p : Routine endpointInterface α)
    (f : α → Routine endpointInterface (R i))
    (began : Instant) :
    List (Visit ι) → Party α → Traffic R → Prop where
  | begins
      (now : Instant)
      (hHere : t₀.parties i = .ready (p.bind f))
      (hUndone : (Party.ready p).result? = none)
      (hBegan : t₀.clock ≤ began)
      (hNow : began ≤ now) :
      Carries seat t₀ i p f began
        ((Party.ready p).advance i (seat i) t₀.pipe began now).1
        ((Party.ready p).advance i (seat i) t₀.pipe began now).2
        (t₀.advance seat i began now).2
  | goesOn
      {log : List (Visit ι)}
      {part : Party α}
      {t : Traffic R}
      (next now : Instant)
      (hUndone : part.result? = none)
      (hNext : t.clock ≤ next)
      (hNow : next ≤ now)
      (hCarries : Carries seat t₀ i p f began log part t) :
      Carries seat t₀ i p f began
        (log ++ (part.advance i (seat i) t.pipe next now).1)
        (part.advance i (seat i) t.pipe next now).2
        (t.advance seat i next now).2
  | beside
      {log : List (Visit ι)}
      {part : Party α}
      {t : Traffic R}
      (j : ι)
      (next now : Instant)
      (hOther : j ≠ i)
      (hNext : t.clock ≤ next)
      (hNow : next ≤ now)
      (hCarries : Carries seat t₀ i p f began log part t) :
      Carries seat t₀ i p f began
        (log ++ (t.advance seat j next now).1)
        part
        (t.advance seat j next now).2

namespace Carries

variable {p : Routine endpointInterface α}
variable {f : α → Routine endpointInterface (R i)}
variable {began : Instant} {log : List (Visit ι)}
variable {part : Party α}

/- The party is at its part, with what comes after it. -/
theorem here
    (hCarries : Carries seat t₀ i p f began log part t) :
    t.parties i = part.bind f := by
  induction hCarries with
  | begins now hHere hUndone =>
      have hReady : t₀.parties i = (Party.ready p).bind f := hHere
      exact (advance_of_bind seat hReady hUndone began now).2
  | goesOn next now hUndone _ _ _ ih =>
      exact (advance_of_bind seat ih hUndone next now).2
  | beside j next now hOther _ _ _ ih =>
      rw [advance_parties_of_ne (Ne.symm hOther)]
      exact ih

/- All this is part of a run. -/
theorem run
    (hCarries : Carries seat t₀ i p f began log part t) :
    Run seat t₀ log t := by
  induction hCarries with
  | begins now hHere hUndone hBegan hNow =>
      have hReady : t₀.parties i = (Party.ready p).bind f := hHere
      rw [← (advance_of_bind seat hReady hUndone began now).1, ← List.nil_append (t₀.advance seat i _ _).1]
      exact Run.refl.advance i began now hBegan hNow
  | goesOn next now hUndone hNext hNow hCarries ih =>
      rw [← (advance_of_bind seat hCarries.here hUndone next now).1]
      exact ih.advance i next now hNext hNow
  | beside j next now _ hNext hNow _ ih =>
      exact ih.advance j next now hNext hNow

/-
  A part that is not done from the start is begun by the next
  step of its party.
-/
theorem exists_of_undone
    (hHere : t₀.parties i = .ready (p.bind f))
    (hUndone : (Party.ready p).result? = none)
    {now : Instant}
    (hBegan : t₀.clock ≤ began)
    (hNow : began ≤ now) :
    ∃ part,
      Carries seat t₀ i p f began (t₀.advance seat i began now).1
        part (t₀.advance seat i began now).2 := by
  have hReady : t₀.parties i = (Party.ready p).bind f := hHere
  rw [(advance_of_bind seat hReady hUndone began now).1]
  exact ⟨_, .begins now hHere hUndone hBegan hNow⟩

/-
  Until the part is done, every step that is taken goes on with
  it or is one by another party: nothing else can happen.
-/
theorem advance
    (hCarries : Carries seat t₀ i p f began log part t)
    (hUndone : part.result? = none)
    (j : ι)
    {next now : Instant}
    (hNext : t.clock ≤ next)
    (hNow : next ≤ now) :
    ∃ part',
      Carries seat t₀ i p f began
        (log ++ (t.advance seat j next now).1) part'
        (t.advance seat j next now).2 := by
  by_cases hSame : j = i
  · subst hSame
    rw [(advance_of_bind seat hCarries.here hUndone next now).1]
    exact ⟨_, hCarries.goesOn next now hUndone hNext hNow⟩
  · exact ⟨part, hCarries.beside j next now hSame hNext hNow⟩

end Carries

------------------------------------------------------------
-- What one party does
------------------------------------------------------------

/- The holds of the lock by party `i`, in order. -/
def own
    (i : ι)
    (log : List (Visit ι)) : List (Visit ι) :=
  log.filter fun v => v.party = i

@[simp] theorem own_append
    (i : ι)
    (earlier later : List (Visit ι)) :
    own i (earlier ++ later) = own i earlier ++ own i later :=
  List.filter_append ..

theorem own_singleton
    {v : Visit ι}
    (hParty : v.party = i) :
    own i [v] = [v] :=
  List.filter_cons_of_pos (decide_eq_true hParty)

/- A step of another party is none of its own. -/
theorem own_advance_of_ne
    {j : ι}
    (hOther : j ≠ i)
    (next now : Instant) :
    own i (t.advance seat j next now).1 = [] := by
  rw [own, List.filter_eq_nil_iff]
  intro v hMember
  rw [party_of_mem_advance hMember]
  simpa using hOther

/- All that was accepted from party `i`, in order. -/
def given
    (i : ι)
    (log : List (Visit ι)) : Bytes :=
  (own i log).flatMap fun v => v.accepted v.side.other

@[simp] theorem given_nil
    (i : ι) :
    given i ([] : List (Visit ι)) = [] :=
  rfl

@[simp] theorem given_append
    (i : ι)
    (earlier later : List (Visit ι)) :
    given i (earlier ++ later) =
      given i earlier ++ given i later := by
  simp only [given, own_append, List.flatMap_append]

theorem given_singleton
    {v : Visit ι}
    (hParty : v.party = i) :
    given i [v] = v.accepted v.side.other := by
  rw [given, own_singleton hParty, List.flatMap_singleton]

/- What is accepted from others is none of this. -/
theorem given_advance_of_ne
    {j : ι}
    (hOther : j ≠ i)
    (next now : Instant) :
    given i (t.advance seat j next now).1 = [] := by
  rw [given, own_advance_of_ne hOther, List.flatMap_nil]

end Traffic

------------------------------------------------------------
-- A part that makes some calls only
------------------------------------------------------------

namespace Routine

variable {α β : Type} {P : Call → Prop}

/- Whatever it is answered, a routine makes only such calls. -/
def Only
    (P : Call → Prop) :
    {α : Type} → Routine endpointInterface α → Prop
  | _, .done _ => True
  | _, .ask call k => P call ∧ ∀ a, Only P (k a)
  | _, .loop body _ k =>
    (∀ s, Only P (body s)) ∧ ∀ b, Only P (k b)

/- A sequence makes the calls of its two parts. -/
theorem Only.bind
    {p : Routine endpointInterface α}
    {f : α → Routine endpointInterface β}
    (hFirst : p.Only P)
    (hSecond : ∀ a, (f a).Only P) :
    (p.bind f).Only P := by
  induction p with
  | done a => exact hSecond a
  | ask call k ih =>
      exact ⟨hFirst.1, fun a => ih a (hFirst.2 a) hSecond⟩
  | loop body s k _ ih =>
      exact ⟨hFirst.1, fun b => ih b (hFirst.2 b) hSecond⟩

/- A loop makes the calls of its rounds and of what follows. -/
theorem Only.unroll
    {σ : Type}
    {body : σ → Routine endpointInterface (σ ⊕ β)}
    {s : σ}
    {k : β → Routine endpointInterface α}
    (hOnly : (Routine.loop body s k).Only P) :
    (Routine.unroll body s k).Only P := by
  apply (hOnly.1 s).bind
  rintro (_ | b)
  · exact hOnly
  · exact hOnly.2 b

end Routine

namespace Party

variable {ι : Type} {α : Type} {P : Call → Prop}

/- From where it is a party makes only such calls. -/
def Only
    (P : Call → Prop) : Party α → Prop
  | .ready p => p.Only P
  | .held call _ _ k => P call ∧ ∀ a, (k a).Only P

theorem only_conclude
    {v : Visit ι}
    {k : v.call.Answer → Routine endpointInterface α}
    (hCall : P v.call)
    (hOnly : ∀ a, (k a).Only P) :
    (conclude v k).Only P := by
  unfold conclude
  split
  · next a _ => exact hOnly a
  · exact ⟨hCall, hOnly⟩

/- A step is such a call, and leaves such calls to be made. -/
theorem Only.advance
    {party : Party α}
    (hOnly : party.Only P)
    (i : ι)
    (s : Side)
    (p : Pipe)
    (began now : Instant) :
    (∀ v ∈ (party.advance i s p began now).1,
        v.side = s ∧ P v.call) ∧
      (party.advance i s p began now).2.Only P := by
  cases party with
  | ready q =>
      cases q with
      | done a => exact ⟨by simp [Party.advance], trivial⟩
      | ask call k =>
          refine ⟨?_, only_conclude hOnly.1 hOnly.2⟩
          intro v hMember
          rw [List.mem_singleton.mp hMember]
          exact ⟨rfl, hOnly.1⟩
      | loop body x k =>
          exact ⟨by simp [Party.advance], hOnly.unroll⟩
  | held call stage seen k =>
      refine ⟨?_, only_conclude hOnly.1 hOnly.2⟩
      intro v hMember
      rw [List.mem_singleton.mp hMember]
      exact ⟨rfl, hOnly.1⟩

end Party

namespace Traffic

/- In every run a part makes only the calls that it may. -/
theorem Carries.only
    {ι : Type}
    [DecidableEq ι]
    {R : ι → Type}
    {α : Type}
    {seat : ι → Side}
    {t₀ t : Traffic R}
    {i : ι}
    {p : Routine endpointInterface α}
    {f : α → Routine endpointInterface (R i)}
    {began : Instant}
    {log : List (Visit ι)}
    {part : Party α}
    {P : Call → Prop}
    (hCarries : Carries seat t₀ i p f began log part t)
    (hOnly : p.Only P) :
    (∀ v ∈ own i log, v.side = seat i ∧ P v.call) ∧
      part.Only P := by
  induction hCarries with
  | begins now =>
      have hReady : (Party.ready p).Only P := hOnly
      have hStep := hReady.advance i (seat i) t₀.pipe began now
      exact ⟨fun v hMember =>
        hStep.1 v (List.mem_filter.mp hMember).1, hStep.2⟩
  | @goesOn log part t next now _ _ _ _ ih =>
      have hStep := ih.2.advance i (seat i) t.pipe next now
      refine ⟨?_, hStep.2⟩
      intro v hMember
      rw [own_append] at hMember
      rcases List.mem_append.mp hMember with hEarlier | hLast
      · exact ih.1 v hEarlier
      · exact hStep.1 v (List.mem_filter.mp hLast).1
  | beside j next now hOther _ _ _ ih =>
      rw [own_append, own_advance_of_ne hOther, List.append_nil]
      exact ih

end Traffic

------------------------------------------------------------
-- A part that is one call
------------------------------------------------------------

/- The call waits after this hold of the lock. -/
def Visit.Waits
    {ι : Type}
    (v : Visit ι) : Prop :=
  ∃ stage, v.outcome.1 = .wait stage

namespace Traffic

variable {ι : Type} {α : Type}

/-
  A hold of the lock by a call of side `s` with this timer, in
  which the call finds no answer.
-/
structure Watches
    (s : Side)
    (call : Call)
    (timer : Timer)
    (v : Visit ι) : Prop where
  side : v.side = s
  call : v.call = call
  timer : v.stage.timer = timer
  waits : v.Waits

/-
  How far party `i` has come with one call whose answer it turns
  into a result, by its holds of the lock: it has found none and
  waits, or the last of them answered it. The timer is the same
  all along.
-/
inductive Asks
    (i : ι)
    (s : Side)
    (call : Call)
    (timer : Timer)
    (result : call.Answer → α) :
    List (Visit ι) → Party α → Prop where
  | waiting
      {looks : List (Visit ι)}
      (stage : Call.Stage)
      (seen : Nat)
      (hTimer : stage.timer = timer)
      (hWatches : ∀ v ∈ looks, Watches s call timer v) :
      Asks i s call timer result looks
        (.held call stage seen fun a => .done (result a))
  | answered
      {looks : List (Visit ι)}
      (stage : Call.Stage)
      (now : Instant)
      (pipe : Pipe)
      (a : call.Answer)
      (hTimer : stage.timer = timer)
      (hWatches : ∀ v ∈ looks, Watches s call timer v)
      (hLook : (call.look stage pipe s now).1 = .answer a) :
      Asks i s call timer result
        (looks ++ [⟨i, s, call, stage, now, pipe⟩])
        (.ready (.done (result a)))

section

variable {i : ι} {s : Side} {call : Call} {timer : Timer}
variable {result : call.Answer → α} {looks : List (Visit ι)}
variable {part : Party α}

/- The next hold of the lock by a call that has only waited. -/
theorem asks_conclude
    (looks : List (Visit ι))
    {stage : Call.Stage}
    (now : Instant)
    (pipe : Pipe)
    (hTimer : stage.timer = timer)
    (hWatches : ∀ v ∈ looks, Watches s call timer v) :
    Asks i s call timer result
      (looks ++ [⟨i, s, call, stage, now, pipe⟩])
      (Party.conclude ⟨i, s, call, stage, now, pipe⟩
        fun a => .done (result a)) := by
  unfold Party.conclude
  cases hLook : (Visit.mk i s call stage now pipe).outcome.1 with
  | answer a =>
      exact .answered stage now pipe a hTimer hWatches hLook
  | wait next =>
      refine .waiting next _ ?_ ?_
      · rw [← hTimer]
        exact Call.timer_of_look_wait (Prod.ext hLook rfl)
      · intro v hMember
        rcases List.mem_append.mp hMember with hMember | hLast
        · exact hWatches v hMember
        · rw [List.mem_singleton] at hLast
          subst hLast
          exact ⟨rfl, rfl, hTimer, next, hLook⟩

/- All the holds are by the one call, with the one timer. -/
theorem Asks.same
    (hAsks : Asks i s call timer result looks part)
    {v : Visit ι}
    (hMember : v ∈ looks) :
    v.side = s ∧ v.call = call ∧ v.stage.timer = timer := by
  cases hAsks with
  | waiting stage seen hTimer hWatches =>
      have hWatch := hWatches v hMember
      exact ⟨hWatch.side, hWatch.call, hWatch.timer⟩
  | answered stage now pipe a hTimer hWatches =>
      rcases List.mem_append.mp hMember with hMember | hLast
      · have hWatch := hWatches v hMember
        exact ⟨hWatch.side, hWatch.call, hWatch.timer⟩
      · rw [List.mem_singleton] at hLast
        subst hLast
        exact ⟨rfl, rfl, hTimer⟩

end

/-
  In every run a call keeps the timer that it began with, and
  ends with the hold of the lock that answers it.
-/
theorem Carries.asks
    [DecidableEq ι]
    {R : ι → Type}
    {seat : ι → Side}
    {t₀ t : Traffic R}
    {i : ι}
    {call : Call}
    {result : call.Answer → α}
    {f : α → Routine endpointInterface (R i)}
    {began : Instant}
    {log : List (Visit ι)}
    {part : Party α}
    (hCarries :
      Carries seat t₀ i (.ask call fun a => .done (result a)) f
        began log part t) :
    Asks i (seat i) call
      (call.begin t₀.pipe (seat i) began).timer result
      (own i log) part := by
  induction hCarries with
  | begins now =>
      simp only [Party.advance]
      rw [own_singleton
        (v := ⟨i, seat i, call, _, now, t₀.pipe⟩) rfl]
      exact asks_conclude [] now t₀.pipe rfl (by simp)
  | goesOn next now hUndone _ _ _ ih =>
      generalize hLooks : own i _ = looks at ih
      cases ih with
      | waiting stage seen hTimer hWatches =>
          simp only [Party.advance, own_append, hLooks]
          rw [own_singleton
            (v := ⟨i, seat i, call, stage, now, _⟩) rfl]
          exact asks_conclude looks now _ hTimer hWatches
      | answered => cases hUndone
  | beside j next now hOther _ _ _ ih =>
      rw [own_append, own_advance_of_ne hOther, List.append_nil]
      exact ih

end Traffic

------------------------------------------------------------
-- The calls that may wait
------------------------------------------------------------

/-
  The calls of an endpoint that may wait: receiving and sending
  with pipe errors, and writing as to a byte stream.
-/
inductive Operation where
  | recv (room : Nat)
  | send (src : Bytes)
  | write (src : Bytes)

namespace Operation

/- The result that the holder of the endpoint is given. -/
abbrev Result : Operation → Type
  | recv _ => Except PipeError Bytes
  | send _ => Except PipeError Nat
  | write _ => Except IoError Nat

/- What the endpoint does for it. -/
def routine :
    (o : Operation) → Routine endpointInterface o.Result
  | recv room => Endpoint.recv room
  | send src => Endpoint.send src
  | write src => Endpoint.write src

/- The call on the pipe that it makes. -/
def call : Operation → Call
  | recv room => .recv room
  | send src => .send src
  | write src => .send src

/-
  What it makes of the answer. A send that was cut short fails;
  a write fails only if it moved nothing.
-/
def conclude : (o : Operation) → o.call.Answer → o.Result
  | recv _, a => a
  | send _, .ok n => .ok n
  | send _, .error short => .error short.error
  | write _, .ok n => .ok n
  | write _, .error short =>
    if 0 < short.written then .ok short.written
    else .error (.pipe short.error)

/- It makes one call and passes on what that comes to. -/
theorem routine_eq
    (o : Operation) :
    o.routine =
      .ask (I := endpointInterface) o.call
        fun a => .done (o.conclude a) := by
  cases o with
  | recv room => rfl
  | send src =>
      show Routine.ask _ _ = _
      congr 1
      funext a
      cases a <;> rfl
  | write src =>
      show Routine.ask _ _ = _
      congr 1
      funext a
      cases a with
      | ok n => rfl
      | error short =>
          show (if _ then _ else _) = _
          simp only [conclude]
          split <;> rfl

/- It is not done before it has made its call. -/
theorem undone
    (o : Operation) :
    (Party.ready o.routine).result? = none := by
  rw [o.routine_eq]
  rfl

end Operation

/- Writing everything takes a step, even without a byte. -/
theorem ByteStream.undone_writeAll
    (src : Bytes) :
    (Party.ready (writeAll Endpoint.held src)).result? = none :=
  rfl

end Parley
