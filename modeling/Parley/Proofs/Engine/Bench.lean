import Parley.Proofs.Engine.Results
/-
  This file puts an engine into the hands of its owner, beside
  the runner that may be at work for it, and lets them go on in
  any order. The owner makes calls and goes on with them one
  move at a time; a runner goes on by one operation at a time;
  in between others use the pipe and time passes.

  A call is over with its last move. The log notes when a thread
  is started, when a run is resolved, and each call that is over
  with the engine before and after it.

  Key definitions include:
    * `EngineCall`
    * `EngineCall.routine`
    * `World.stepThread`
    * `Bench`
    * `Bench.Event`
    * `Bench.step`
    * `Bench.Run`
    * `Bench.play`
    * `Bench.reports`

  Key theorems include:
    * `World.stepped_stepThread`
    * `Bench.run_play`
-/

namespace Parley

------------------------------------------------------------
-- Calls on an engine
------------------------------------------------------------

/- What an engine is to carry out: a script, or a written one. -/
inductive Order (κ : Codec) (θ : Tls.Provider) where
  | script (script : Script κ θ)
  | literals (literals : List (Literal κ θ))

/- The script that is meant, or what is wrong with it. -/
def Order.parse
    {κ : Codec}
    {θ : Tls.Provider} : Order κ θ → Except ScriptError (Script κ θ)
  | .script made => .ok made
  | .literals entries => Script.parse entries

/-
  A call that the owner of an engine can make: starting a run,
  meeting the client, or looking at the surrogate.
-/
inductive EngineCall (κ : Codec) (θ : Tls.Provider) (ε α : Type) where
  | start (order : Order κ θ)
  | join (client : Except ε α)
  | surrogate

namespace EngineCall

variable {κ : Codec} {θ : Tls.Provider} {ε α : Type}

/- What each call results in. -/
abbrev Result : EngineCall κ θ ε α → Type
  | start _ => Except (EngineError ε) Unit
  | join _ => Except (EngineError ε) α
  | surrogate => Option (Surrogate κ θ)

/- What the owner's thread does in a call. -/
def routine
    (e : Engine κ θ) :
    (call : EngineCall κ θ ε α) →
      MainRoutine (Report κ θ) (call.Result × Engine κ θ)
  | .start (.script script) => e.run script
  | .start (.literals literals) => e.runLiterals literals
  | .join client => e.join client
  | .surrogate => .done (e.surrogate?, e)

end EngineCall

------------------------------------------------------------
-- Threads that go on one operation at a time
------------------------------------------------------------

/- The results with which a thread can still end. -/
def Status.Gives
    {V : Type}
    (status : Status V)
    (answer : Option V) : Prop :=
  match status with
  | .ready p => p.Gives answer
  | .held a _ k => ∃ r : a.Answer, (k r).Gives answer

namespace World

variable {V : Type}

/- Put a thread in its place. -/
def setThread
    (w : World V)
    (i : Nat)
    (t : Thread V) : World V :=
  { w with threads := w.threads.set i t }

/- Take a thread away. -/
def removeThread
    (w : World V)
    (i : Nat) : World V :=
  { w with threads := w.threads.eraseIdx i }

/-
  Go on with an act that has been begun or looked at again: the
  thread has its answer, or waits.
-/
def concludeAct
    (i : Nat)
    (ticket : Ticket)
    (a : Act)
    (k : a.Answer → Routine threadInterface (Option V))
    (outcome : (a.Answer ⊕ Hold) × World V) : World V :=
  match outcome with
  | (.inl r, w) => w.setThread i ⟨ticket, .ready (k r)⟩
  | (.inr hold, w) => w.setThread i ⟨ticket, .held a hold k⟩

/-
  Let a thread go on by one operation and put it into its place.
  If it has ended it resolves its one-shot, or drops the
  resolver.
-/
def stepOf
    (w : World V)
    (i : Nat)
    (t : Thread V) : Option (Ticket × V) × World V :=
  match t.status with
  | .ready (.done (some v)) =>
    (some (t.ticket, v), (w.resolve t.ticket v).removeThread i)
  | .ready (.done none) =>
    (none,
      (w.modifySlot t.ticket Oneshot.dropResolver).removeThread i)
  | .ready (.loop body s k) =>
    (none,
      w.setThread i
        ⟨t.ticket, .ready (Routine.unroll body s k)⟩)
  | .ready (.ask a k) =>
    (none, concludeAct i t.ticket a k (w.start a))
  | .held a hold k =>
    (none, concludeAct i t.ticket a k (w.resume a hold))

/- Let the thread at a place go on, if there is one. -/
def stepThread
    (w : World V)
    (i : Nat) : Option (Ticket × V) × World V :=
  match w.threads[i]? with
  | none => (none, w)
  | some t => w.stepOf i t

/-
  What a step of a thread can come to. A thread that goes on
  touches nothing but the pipe, and can end only as it could
  before.
-/
inductive Stepped
    (w : World V)
    (i : Nat) : Option (Ticket × V) × World V → Prop where
  | rests
      (hThread : w.threads[i]? = none) :
      Stepped w i (none, w)
  | reports
      (t : Thread V)
      (v : V)
      (hThread : w.threads[i]? = some t)
      (hGives : t.status.Gives (some v)) :
      Stepped w i
        (some (t.ticket, v),
          (w.resolve t.ticket v).removeThread i)
  | vanishes
      (t : Thread V)
      (hThread : w.threads[i]? = some t)
      (hGives : t.status.Gives none) :
      Stepped w i
        (none,
          (w.modifySlot t.ticket
            Oneshot.dropResolver).removeThread i)
  | goesOn
      (t : Thread V)
      (pipe : Pipe)
      (status : Status V)
      (hThread : w.threads[i]? = some t)
      (hGives : ∀ answer,
        status.Gives answer →
          t.status.Gives answer) :
      Stepped w i
        (none,
          { w with pipe := pipe }.setThread i
            ⟨t.ticket, status⟩)

/- A look at the pipe changes nothing but the pipe. -/
theorem look_world
    (w : World V)
    (side : Side)
    (call : Call)
    (stage : Call.Stage) :
    ∃ pipe, (w.look side call stage).2 = { w with pipe := pipe } := by
  unfold look
  split
  · next r pipe _ => exact ⟨pipe, rfl⟩
  · next stage pipe _ => exact ⟨pipe, rfl⟩

/- Beginning an act changes nothing but the pipe. -/
theorem start_world
    (w : World V)
    (a : Act) :
    ∃ pipe, (w.start a).2 = { w with pipe := pipe } := by
  cases a with
  | on side call => exact w.look_world side call _
  | sleep d => exact ⟨w.pipe, rfl⟩

/- Nor does going on with one. -/
theorem resume_world
    (w : World V)
    (a : Act)
    (hold : Hold) :
    ∃ pipe, (w.resume a hold).2 = { w with pipe := pipe } := by
  cases a with
  | on side call =>
      rcases hold with ⟨stage, seen⟩ | moment
      · exact w.look_world side call stage
      · exact w.look_world side call _
  | sleep d => exact ⟨w.pipe, rfl⟩

/- A thread in an act goes on with it. -/
theorem stepped_concludeAct
    {w : World V}
    {i : Nat}
    {t : Thread V}
    {a : Act}
    {k : a.Answer → Routine threadInterface (Option V)}
    {outcome : (a.Answer ⊕ Hold) × World V}
    (hThread : w.threads[i]? = some t)
    (hGives : ∀ answer,
      (∃ r : a.Answer, (k r).Gives answer) →
        t.status.Gives answer)
    (hWorld : ∃ pipe, outcome.2 = { w with pipe := pipe }) :
    Stepped w i (none, concludeAct i t.ticket a k outcome) := by
  rcases outcome with ⟨r | hold, w'⟩
  · rcases hWorld with ⟨pipe, rfl⟩
    apply Stepped.goesOn t pipe _ hThread
    intro answer hAnswer
    exact hGives answer ⟨r, hAnswer⟩
  · rcases hWorld with ⟨pipe, rfl⟩
    exact .goesOn t pipe _ hThread hGives

/- A step of a thread comes to one of these. -/
theorem stepped_stepThread
    (w : World V)
    (i : Nat) :
    Stepped w i (w.stepThread i) := by
  unfold stepThread
  split
  · next hThread => exact .rests hThread
  · next t hThread =>
      rcases t with ⟨ticket, status⟩
      unfold stepOf
      dsimp only
      split
      · next v => exact .reports _ v hThread (.done _)
      · exact .vanishes _ hThread (.done _)
      · next body s k =>
          apply Stepped.goesOn _ w.pipe _ hThread
          intro answer hAnswer
          exact .loop hAnswer
      · next a k =>
          apply stepped_concludeAct hThread ?_ (w.start_world a)
          rintro answer ⟨r, hAnswer⟩
          exact .ask r hAnswer
      · next a hold k =>
          exact stepped_concludeAct hThread (fun _ => id)
            (w.resume_world a hold)

end World

------------------------------------------------------------
-- The bench
------------------------------------------------------------

/-
  Where the owner is: between two calls, or in a call that was
  made on the engine as it was `before`.
-/
inductive Desk (κ : Codec) (θ : Tls.Provider) (ε α : Type) where
  | free (engine : Engine κ θ)
  | busy
      (before : Engine κ θ)
      (call : EngineCall κ θ ε α)
      (status :
        World.MainStatus (Report κ θ) (call.Result × Engine κ θ))

/- An engine with its owner, in a world with runners. -/
structure Bench (κ : Codec) (θ : Tls.Provider) (ε α : Type) where
  world : World (Report κ θ)
  desk : Desk κ θ ε α

namespace Bench

variable {κ : Codec} {θ : Tls.Provider} {ε α : Type}

/- What is noted of a run of the bench. -/
inductive Event (κ : Codec) (θ : Tls.Provider) (ε α : Type) where
  | spawned
      (t : Ticket)
      (p : Routine threadInterface (Option (Report κ θ)))
  | resolved (t : Ticket) (report : Report κ θ)
  | called
      (call : EngineCall κ θ ε α)
      (before : Engine κ θ)
      (result : call.Result)
      (after : Engine κ θ)

/- What can happen next. -/
inductive Choice (κ : Codec) (θ : Tls.Provider) (ε α : Type) where
  | call (call : EngineCall κ θ ε α)
  | goOn
  | refuse (error : IoError)
  | runner (i : Nat)
  | outside (pipe : Pipe) (clock : Instant)

/- A new engine, and nobody at work yet. -/
def new
    (pipe : Pipe)
    (surrogate : Surrogate κ θ)
    (joinTimeout : Duration) : Bench κ θ ε α where
  world := .new pipe
  desk := .free (.new surrogate joinTimeout)

/- The engine, as it was before the call that is under way. -/
def engine
    (b : Bench κ θ ε α) : Engine κ θ :=
  match b.desk with
  | .free e => e
  | .busy before _ _ => before

/- A call goes on from here, or is over. -/
def conclude
    (w : World (Report κ θ))
    (before : Engine κ θ)
    (call : EngineCall κ θ ε α) :
    World.MainStatus (Report κ θ) (call.Result × Engine κ θ) →
      List (Event κ θ ε α) × Bench κ θ ε α
  | .ready (.done (result, after)) =>
    ([.called call before result after], ⟨w, .free after⟩)
  | status => ([], ⟨w, .busy before call status⟩)

/- What is noted of a move of the owner's thread. -/
def noted : Move (Report κ θ) → List (Event κ θ ε α)
  | .spawn t p => [.spawned t p]
  | .resolve t report => [.resolved t report]
  | _ => []

/- What is noted of a step of a thread. -/
def resolutions :
    Option (Ticket × Report κ θ) → List (Event κ θ ε α)
  | some (t, report) => [.resolved t report]
  | none => []

/- The owner goes on with the call that is under way. -/
def goOn
    (b : Bench κ θ ε α) : List (Event κ θ ε α) × Bench κ θ ε α :=
  match b.desk with
  | .free _ => ([], b)
  | .busy before call (.ready (.done a)) =>
    conclude b.world before call (.ready (.done a))
  | .busy before call (.ready (.loop body s k)) =>
    conclude b.world before call
      (.ready (Routine.unroll body s k))
  | .busy before call (.ready (.ask m k)) =>
    match b.world.startMove m with
    | (.inl r, w) =>
      let (events, b) := conclude w before call (.ready (k r))
      (noted m ++ events, b)
    | (.inr hold, w) => conclude w before call (.held m hold k)
  | .busy before call (.held m hold k) =>
    match b.world.resumeMove m hold with
    | (.inl r, w) => conclude w before call (.ready (k r))
    | (.inr hold, w) => conclude w before call (.held m hold k)

section

variable {w w' : World (Report κ θ)} {before : Engine κ θ}
variable {call : EngineCall κ θ ε α} {m : Move (Report κ θ)}
variable {hold hold' : World.MainHold} {r : m.Answer}
variable {k : m.Answer →
  MainRoutine (Report κ θ) (call.Result × Engine κ θ)}

/- A move that is answered at once. -/
theorem goOn_of_answered
    (hMove : w.startMove m = (.inl r, w')) :
    goOn ⟨w, .busy before call (.ready (.ask m k))⟩ =
      (noted m ++ (conclude w' before call (.ready (k r))).1,
        (conclude w' before call (.ready (k r))).2) := by
  unfold goOn
  dsimp only
  rw [hMove]

/- A move that has to wait. -/
theorem goOn_of_held
    (hMove : w.startMove m = (.inr hold, w')) :
    goOn ⟨w, .busy before call (.ready (.ask m k))⟩ =
      conclude w' before call (.held m hold k) := by
  unfold goOn
  dsimp only
  rw [hMove]

/- A move that need not wait any longer. -/
theorem goOn_of_resumed
    (hMove : w.resumeMove m hold = (.inl r, w')) :
    goOn ⟨w, .busy before call (.held m hold k)⟩ =
      conclude w' before call (.ready (k r)) := by
  unfold goOn
  dsimp only
  rw [hMove]

/- A move that has to wait on. -/
theorem goOn_of_waiting
    (hMove : w.resumeMove m hold = (.inr hold', w')) :
    goOn ⟨w, .busy before call (.held m hold k)⟩ =
      conclude w' before call (.held m hold' k) := by
  unfold goOn
  dsimp only
  rw [hMove]

end

/-
  No thread can be started for the owner, who is about to start
  one. What the thread should have taken over goes away with it:
  the resolver, and the surrogate with its endpoint.
-/
def refuse
    (b : Bench κ θ ε α)
    (error : IoError) : List (Event κ θ ε α) × Bench κ θ ε α :=
  match b.desk with
  | .busy before call (.ready (.ask (.spawn t _) k)) =>
    let w := b.world.modifySlot t Oneshot.dropResolver
    conclude (w.abandon (some Engine.seat)) before call
      (.ready (k (.error error)))
  | _ => ([], b)

/- One step of somebody. What is not possible changes nothing. -/
def step
    (b : Bench κ θ ε α) :
    Choice κ θ ε α → List (Event κ θ ε α) × Bench κ θ ε α
  | .call call =>
    match b.desk with
    | .free e => conclude b.world e call (.ready (call.routine e))
    | .busy _ _ _ => ([], b)
  | .goOn => b.goOn
  | .refuse error => b.refuse error
  | .runner i =>
    let (report, w) := b.world.stepThread i
    (resolutions report, { b with world := w })
  | .outside pipe clock =>
    ([],
      { b with
        world := { b.world with pipe := pipe, clock := clock } })

/-
  A run of the bench: what was noted, in order, and where it
  leads. What happens next is free at every step.
-/
inductive Run
    (b₀ : Bench κ θ ε α) :
    List (Event κ θ ε α) → Bench κ θ ε α → Prop where
  | refl : Run b₀ [] b₀
  | step
      {log : List (Event κ θ ε α)}
      {b : Bench κ θ ε α}
      (choice : Choice κ θ ε α)
      (hRun : Run b₀ log b) :
      Run b₀ (log ++ (b.step choice).1) (b.step choice).2

/- Follow a list of choices. -/
def play :
    List (Choice κ θ ε α) → Bench κ θ ε α →
      List (Event κ θ ε α) × Bench κ θ ε α
  | [], b => ([], b)
  | choice :: choices, b =>
    let (first, b) := b.step choice
    let (rest, b) := play choices b
    (first ++ rest, b)

/- Choices that are followed are a run. -/
theorem run_play
    (choices : List (Choice κ θ ε α))
    (b : Bench κ θ ε α) :
    Run b (b.play choices).1 (b.play choices).2 := by
  have hFrom : ∀ log c, Run b log c →
      Run b (log ++ (c.play choices).1) (c.play choices).2 := by
    induction choices with
    | nil =>
        intro log c hRun
        rw [play, List.append_nil]
        exact hRun
    | cons choice choices ih =>
        intro log c hRun
        simp only [play, ← List.append_assoc]
        exact ih _ _ (hRun.step choice)
  exact hFrom [] b .refl

------------------------------------------------------------
-- What the log tells
------------------------------------------------------------

/- What a run has reported, by the log. -/
def reports
    (t : Ticket)
    (log : List (Event κ θ ε α)) : List (Report κ θ) :=
  log.filterMap fun
    | .resolved u report => if u = t then some report else none
    | _ => none

/-
  Whether an event is the end of a run for the engine: a call
  that finds the run under way and leaves the engine without it.
-/
def Event.settles
    (t : Ticket) : Event κ θ ε α → Prop
  | .called _ before _ after =>
    before.state = .running t ∧ after.state ≠ .running t
  | _ => False

/- Whether an event has to do with a run. -/
def Event.mentions
    (t : Ticket) : Event κ θ ε α → Prop
  | .spawned u _ => u = t
  | .resolved u _ => u = t
  | .called _ before _ after =>
    before.state = .running t ∨ after.state = .running t

end Bench

end Parley
