import Parley.Proofs.Engine.Custody
/-
  This file says what each call on an engine comes to, as seen
  from the log, and takes the calls apart into the moves that
  they make.

  A surrogate comes from an engine that has it, or from the
  report of the run that the engine waits for. A call that needs
  neither, or does not get it, leaves the engine as it was.

  Key definitions include:
    * `Bench.Source`
    * `Bench.Answers`
    * `Bench.current`
    * `Bench.Event.begins`
    * `Bench.Lawful`
    * `Bench.Attends`
    * `Bench.AtRest`

  Key theorems include:
    * `Engine.combine_eq_ok_iff`
    * `Engine.routine_start_of_running`
    * `Engine.join_of_running`
-/

namespace Parley

------------------------------------------------------------
-- Calls and their moves
------------------------------------------------------------

namespace Engine

variable {κ : Codec} {θ : Tls.Provider} {ε α : Type} {e : Engine κ θ}

/- The client's value is the result only if the run went well. -/
theorem combine_eq_ok_iff
    (outcome : Outcome)
    (client : Except ε α)
    (value : α) :
    combine outcome client = .ok value ↔
      outcome = .succeeded ∧ client = .ok value := by
  unfold combine
  split
  · next v => simp
  · next hOther =>
      constructor
      · exact nofun
      · rintro ⟨rfl, rfl⟩
        exact absurd rfl (hOther value rfl)

/- Otherwise the result has the errors of both. -/
theorem combine_eq_error
    {outcome : Outcome}
    {client : Except ε α}
    (hFailed : ∀ value, combine outcome client ≠ .ok value) :
    combine outcome client =
      .error (.failed outcome.error? (errorOf client)) := by
  unfold combine at hFailed ⊢
  split
  · next value => exact absurd rfl (hFailed value)
  · rfl

/-
  Hand a surrogate to a thread that carries out a script. For a
  script that makes no sense there is no thread: the run is over
  with what is wrong with it.
-/
def launch
    (e : Engine κ θ)
    (s : Surrogate κ θ)
    (parsed : Except ScriptError (Script κ θ))
    (t : Ticket) : Run κ θ ε Unit :=
  match parsed with
  | .ok script =>
    (MainRoutine.move (.spawn t (runner s script))).bind fun
      | .ok () => .done (.ok (), { e with state := .running t })
      | .error error => e.fail .lost (.spawn error)
  | .error error =>
    (MainRoutine.move (.resolve t ⟨s, .failed error⟩)).bind
      fun () => .done (.ok (), { e with state := .running t })

/- Make a one-shot for a run, and launch it. -/
def prepare
    (e : Engine κ θ)
    (s : Surrogate κ θ)
    (parsed : Except ScriptError (Script κ θ)) : Run κ θ ε Unit :=
  .ask (I := mainInterface (Report κ θ)) (.oneshot (some seat))
    ({ e with state := .lost }.launch s parsed)

/- Go on with what was found of the run before. -/
def found
    (e : Engine κ θ)
    (t : Ticket)
    (parsed : Except ScriptError (Script κ θ)) :
    Settled (Report κ θ) → Run κ θ ε Unit
  | .ready report => e.prepare report.surrogate parsed
  | .pending => e.fail (.running t) .runInFlight
  | .abandoned => e.fail .lost .lost

/- Go on with what came of waiting for the run. -/
def met
    (e : Engine κ θ)
    (t : Ticket)
    (client : Except ε α) : Settled (Report κ θ) → Run κ θ ε α
  | .ready report =>
    .done (combine report.outcome client,
      { e with state := .idle report.surrogate })
  | .abandoned =>
    .done (combine (.failed unreported) client,
      { e with state := .lost })
  | .pending =>
    .ask (I := mainInterface (Report κ θ)) (.dropPending t) fun () =>
      e.fail .lost (.joinTimeout e.joinTimeout (errorOf client))

/- A run reclaims the surrogate and launches the script. -/
theorem run_eq
    (e : Engine κ θ)
    (script : Script κ θ) :
    (e.run script : Run κ θ ε Unit) =
      e.reclaim.ifOk fun s e =>
        (MainRoutine.move (.oneshot (some seat))).bind
          (e.launch s (.ok script)) := by
  unfold run
  congr
  funext s e
  congr
  funext t
  congr
  funext answer
  cases answer <;> rfl

/- Both ways to start a run do so. -/
theorem routine_start
    (e : Engine κ θ)
    (order : Order κ θ) :
    (EngineCall.start (ε := ε) (α := α) order).routine e =
      e.reclaim.ifOk fun s e =>
        (MainRoutine.move (.oneshot (some seat))).bind
          (e.launch s order.parse) := by
  cases order with
  | script made => exact e.run_eq made
  | literals entries =>
      change e.runLiterals entries = _
      unfold runLiterals
      dsimp only [Order.parse]
      split
      · next script hParse =>
          rw [hParse]
          exact e.run_eq script
      · next error hParse =>
          rw [hParse]
          rfl

theorem routine_start_of_idle
    {s : Surrogate κ θ}
    (order : Order κ θ)
    (hState : e.state = .idle s) :
    (EngineCall.start (ε := ε) (α := α) order).routine e =
      e.prepare s order.parse := by
  rw [routine_start]
  unfold reclaim
  rw [hState]
  rfl

theorem routine_start_of_lost
    (order : Order κ θ)
    (hState : e.state = .lost) :
    (EngineCall.start (ε := ε) (α := α) order).routine e =
      .done (.error .lost, e) := by
  rw [routine_start]
  unfold reclaim
  rw [hState]
  cases e
  cases hState
  rfl

/- With a run under way a start looks for its report. -/
theorem routine_start_of_running
    {t : Ticket}
    (order : Order κ θ)
    (hState : e.state = .running t) :
    (EngineCall.start (ε := ε) (α := α) order).routine e =
      .ask (I := mainInterface (Report κ θ)) (.poll t)
        (e.found t order.parse) := by
  rw [routine_start]
  unfold reclaim
  rw [hState]
  apply congrArg (Routine.ask (I := mainInterface (Report κ θ)) _)
  funext settled
  cases settled <;> rfl

theorem join_of_idle
    {s : Surrogate κ θ}
    (client : Except ε α)
    (hState : e.state = .idle s) :
    e.join client = .done (.error .noActiveRun, e) := by
  unfold join
  rw [hState]
  cases e
  cases hState
  rfl

theorem join_of_lost
    (client : Except ε α)
    (hState : e.state = .lost) :
    e.join client = .done (.error .lost, e) := by
  unfold join
  rw [hState]
  cases e
  cases hState
  rfl

/- With a run under way a join waits for its report. -/
theorem join_of_running
    {t : Ticket}
    (client : Except ε α)
    (hState : e.state = .running t) :
    e.join client =
      .ask (I := mainInterface (Report κ θ))
        (.wait t e.joinTimeout) (e.met t client) := by
  unfold join
  rw [hState]
  apply congrArg (Routine.ask (I := mainInterface (Report κ θ)) _)
  funext settled
  cases settled <;> rfl

end Engine

namespace Bench

variable {κ : Codec} {θ : Tls.Provider} {ε α : Type}
variable {log : List (Event κ θ ε α)} {w : World (Report κ θ)}
variable {e before after : Engine κ θ} {t : Ticket}

------------------------------------------------------------
-- What a call comes to
------------------------------------------------------------

/-
  Where the surrogate for a new run comes from: the engine has
  it, or the run before has reported and gives it back.
-/
def Source
    (log : List (Event κ θ ε α))
    (e : Engine κ θ)
    (s : Surrogate κ θ) : Prop :=
  match e.state with
  | .idle mine => mine = s
  | .running t =>
    ∃ report, reports t log = [report] ∧ report.surrogate = s
  | .lost => False

/-
  What a call on an engine comes to, with what was noted up to
  then: its result, and the engine afterwards.
-/
inductive Answers
    (log : List (Event κ θ ε α))
    (before : Engine κ θ) :
    (call : EngineCall κ θ ε α) →
      call.Result → Engine κ θ → Prop where
  | inFlight
      {order : Order κ θ}
      {t : Ticket}
      (hState : before.state = .running t)
      (hReports : reports t log = []) :
      Answers log before (.start order)
        (.error .runInFlight) before
  | started
      {order : Order κ θ}
      {s : Surrogate κ θ}
      {script : Script κ θ}
      {t : Ticket}
      (hSource : Source log before s)
      (hParse : order.parse = .ok script)
      (hSpawned :
        .spawned t (Engine.runner s script) ∈ log) :
      Answers log before (.start order)
        (.ok ()) { before with state := .running t }
  | malformed
      {order : Order κ θ}
      {s : Surrogate κ θ}
      {error : ScriptError}
      {t : Ticket}
      (hSource : Source log before s)
      (hParse : order.parse = .error error)
      (hReports : reports t log = [⟨s, .failed error⟩]) :
      Answers log before (.start order)
        (.ok ()) { before with state := .running t }
  | notSpawned
      {order : Order κ θ}
      {s : Surrogate κ θ}
      {script : Script κ θ}
      {error : IoError}
      (hSource : Source log before s)
      (hParse : order.parse = .ok script) :
      Answers log before (.start order)
        (.error (.spawn error)) { before with state := .lost }
  | notStarted
      {order : Order κ θ}
      (hState : before.state = .lost) :
      Answers log before (.start order) (.error .lost) before
  | joined
      {client : Except ε α}
      {result : Except (EngineError ε) α}
      {t : Ticket}
      {report : Report κ θ}
      (hState : before.state = .running t)
      (hReports : reports t log = [report])
      (hOk : ∀ value, result = .ok value ↔
        report.outcome = .succeeded ∧ client = .ok value)
      (hFailed : (∀ value, result ≠ .ok value) →
        result = .error (.failed report.outcome.error?
          (Engine.errorOf client))) :
      Answers log before (.join client)
        result { before with state := .idle report.surrogate }
  | timedOut
      {client : Except ε α}
      {t : Ticket}
      (hState : before.state = .running t) :
      Answers log before (.join client)
        (.error (.joinTimeout before.joinTimeout
          (Engine.errorOf client)))
        { before with state := .lost }
  | notRunning
      {client : Except ε α}
      {s : Surrogate κ θ}
      (hState : before.state = .idle s) :
      Answers log before (.join client)
        (.error .noActiveRun) before
  | notJoined
      {client : Except ε α}
      (hState : before.state = .lost) :
      Answers log before (.join client) (.error .lost) before
  | looked :
      Answers log before .surrogate before.surrogate? before

/-
  Whether an event is the begin of a run for the engine: a call
  that leaves the engine with the run, and did not find it so.
-/
def Event.begins
    (t : Ticket) : Event κ θ ε α → Prop
  | .called _ before _ after =>
    before.state ≠ .running t ∧ after.state = .running t
  | _ => False

/- The engine as an event leaves it. -/
def Event.leave
    (e : Engine κ θ) : Event κ θ ε α → Engine κ θ
  | .called _ _ _ after => after
  | _ => e

/- The engine as the log leaves it. -/
def current
    (e₀ : Engine κ θ)
    (log : List (Event κ θ ε α)) : Engine κ θ :=
  log.foldl Event.leave e₀

/-
  What holds of every event, with what was noted earlier. A
  thread is started for a script, when all started before it
  have reported. A run is resolved for the first time. A call is
  made on the engine that the one before has left; a run begins
  once and is settled once.
-/
def Lawful
    (e₀ : Engine κ θ)
    (earlier : List (Event κ θ ε α)) : Event κ θ ε α → Prop
  | .spawned _ p =>
    (∃ s script, p = Engine.runner s script) ∧
      ∀ u q, .spawned u q ∈ earlier →
        ∃ report, reports u earlier = [report]
  | .resolved t _ => reports t earlier = []
  | .called call before result after =>
    before = current e₀ earlier ∧
      Answers earlier before call result after ∧
      (∀ t, Event.begins t (.called call before result after) →
        ∀ event ∈ earlier, ¬ Event.begins t event) ∧
      (∀ t, Event.settles t (.called call before result after) →
        (∃ event ∈ earlier, Event.begins t event) ∧
          ∀ event ∈ earlier, ¬ Event.settles t event)

------------------------------------------------------------
-- Where the owner is
------------------------------------------------------------

/-
  What an engine between two calls has to do with the world: if
  it has its surrogate nobody is at work, and if it waits for a
  run that run is out.
-/
def AtRest
    (log : List (Event κ θ ε α))
    (w : World (Report κ θ))
    (e : Engine κ θ) : Prop :=
  match e.state with
  | .idle _ => w.threads = []
  | .running t => Out log t w
  | .lost => True

/-
  Where the owner can be in a call. While the surrogate is in
  his hands no thread is there, and the one-shot that he has
  made is not known to anybody.
-/
inductive Attends
    (log : List (Event κ θ ε α))
    (w : World (Report κ θ))
    (before : Engine κ θ) :
    (call : EngineCall κ θ ε α) →
      World.MainStatus (Report κ θ) (call.Result × Engine κ θ) →
        Prop where
  | asking
      {order : Order κ θ}
      {t : Ticket}
      (hState : before.state = .running t)
      (hOut : Out log t w) :
      Attends log w before (.start order)
        (.ready (.ask (.poll t) (before.found t order.parse)))
  | holding
      {order : Order κ θ}
      {s : Surrogate κ θ}
      (hSource : Source log before s)
      (hThreads : w.threads = []) :
      Attends log w before (.start order)
        (.ready (before.prepare s order.parse))
  | launching
      {order : Order κ θ}
      {s : Surrogate κ θ}
      {t : Ticket}
      (hSource : Source log before s)
      (hThreads : w.threads = [])
      (hSlot : w.slots[t]? = some ⟨.new, some Engine.seat⟩)
      (hFresh : ∀ event ∈ log, ¬ Event.mentions t event) :
      Attends log w before (.start order)
        (.ready
          ({ before with state := .lost }.launch s order.parse t))
  | meeting
      {client : Except ε α}
      {t : Ticket}
      (hState : before.state = .running t)
      (hOut : Out log t w) :
      Attends log w before (.join client)
        (.ready (.ask (.wait t before.joinTimeout)
          (before.met t client)))
  | waiting
      {client : Except ε α}
      {t : Ticket}
      {limit : Option Instant}
      (hState : before.state = .running t)
      (hOut : Out log t w) :
      Attends log w before (.join client)
        (.held (.wait t before.joinTimeout) (.oneshot limit)
          (before.met t client))
  | leaving
      {client : Except ε α}
      {t : Ticket}
      (hState : before.state = .running t) :
      Attends log w before (.join client)
        (.ready (before.met t client .pending))

end Bench

end Parley
