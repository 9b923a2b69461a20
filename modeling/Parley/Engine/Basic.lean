import Parley.Engine.Error
import Parley.Script.Literal
import Parley.Script.Execute
import Parley.World
/-
  This file gives the engine: it runs a script on a thread of
  its own while the client goes on, and meets the client again
  where the two results are put together.

  Key definitions include:
    * `Report`
    * `EngineState`
    * `Engine`
    * `Engine.reclaim`
    * `Engine.run`
    * `Engine.runLiterals`
    * `Engine.join`
-/

namespace Parley

variable {κ : Codec} {θ : Tls.Provider} {α ε : Type}

------------------------------------------------------------
-- Engines
------------------------------------------------------------

/-
  What a run gives back: the surrogate, and how the run ended.
-/
structure Report (κ : Codec) (θ : Tls.Provider) where
  surrogate : Surrogate κ θ
  outcome : Outcome

/-
  An engine holds its surrogate, waits for it to come back, or
  has lost it.
-/
inductive EngineState (κ : Codec) (θ : Tls.Provider) where
  | idle (surrogate : Surrogate κ θ)
  | running (ticket : Ticket)
  | lost

/- An engine, and how long it waits for a run to end. -/
structure Engine (κ : Codec) (θ : Tls.Provider) where
  state : EngineState κ θ
  joinTimeout : Duration

namespace Engine

/- A call on an engine, made on the main thread. -/
abbrev Run (κ : Codec) (θ : Tls.Provider) (ε α : Type) :=
  MainRoutine (Report κ θ) (Except (EngineError ε) α × Engine κ θ)

/- An engine with a surrogate. -/
def new
    (surrogate : Surrogate κ θ)
    (joinTimeout : Duration) : Engine κ θ where
  state := .idle surrogate
  joinTimeout := joinTimeout

/- The surrogate, unless a run has it or it is lost. -/
def surrogate?
    (e : Engine κ θ) : Option (Surrogate κ θ) :=
  match e.state with
  | .idle s => some s
  | _ => none

/- Whether a run was started and not collected. -/
def isRunning
    (e : Engine κ θ) : Bool :=
  match e.state with
  | .running _ => true
  | _ => false

/- The side of the pipe at which the surrogate sits. -/
def seat : Side :=
  .b

/- Fail and go on as the given engine. -/
def fail
    (e : Engine κ θ)
    (state : EngineState κ θ)
    (error : EngineError ε) : Run κ θ ε α :=
  .done (.error error, { e with state := state })

------------------------------------------------------------
-- Starting a run
------------------------------------------------------------

/-
  Take the surrogate out of the engine. The result of an earlier
  run that ended and was not collected is thrown away. Without a
  surrogate the engine is lost.
-/
def reclaim
    (e : Engine κ θ) : Run κ θ ε (Surrogate κ θ) :=
  match e.state with
  | .idle s => .done (.ok s, { e with state := .lost })
  | .lost => e.fail .lost .lost
  | .running t =>
    (MainRoutine.move (.poll t)).bind fun
      | .ready report => .done (.ok report.surrogate, { e with state := .lost })
      | .pending => e.fail (.running t) .runInFlight
      | .abandoned => e.fail .lost .lost

/-
  What the thread of a run does: carry out the script and
  report.
-/
def runner
    (s : Surrogate κ θ)
    (script : Script κ θ) :
    Routine threadInterface (Option (Report κ θ)) :=
  ((script.execute s).bind fun (r, s) => .done (some ⟨s, Outcome.ofResult r⟩)).atSide seat

/- Start a script on a thread of its own. -/
def run
    (e : Engine κ θ)
    (script : Script κ θ) : Run κ θ ε Unit :=
  e.reclaim.ifOk fun s e =>
    (MainRoutine.move (.oneshot (some seat))).bind fun t =>
      (MainRoutine.move (.spawn t (runner s script))).bind fun
        | .ok () => .done (.ok (), { e with state := .running t })
        | .error error => e.fail .lost (.spawn error)

/-
  Start a written script. One that makes no sense is not carried
  out at all: what is wrong with it is the result of the run.
-/
def runLiterals
    (e : Engine κ θ)
    (literals : List (Literal κ θ)) : Run κ θ ε Unit :=
  match Script.parse literals with
  | .ok script => e.run script
  | .error error =>
    e.reclaim.ifOk fun s e =>
      (MainRoutine.move (.oneshot (some seat))).bind fun t =>
        (MainRoutine.move (.resolve t ⟨s, .failed error⟩)).bind fun () =>
          .done (.ok (), { e with state := .running t })

------------------------------------------------------------
-- Meeting the client
------------------------------------------------------------

/- The fault of a run that ended without a report. -/
def unreported : ScriptError :=
  .fault "script runner exited without reporting"

/- The error of a result. -/
def errorOf : Except ε α → Option ε
  | .ok _ => none
  | .error e => some e

/-
  The two results put together: the client's value if both are
  good.
-/
def combine
    (outcome : Outcome)
    (client : Except ε α) : Except (EngineError ε) α :=
  match outcome, client with
  | .succeeded, .ok value => .ok value
  | outcome, client => .error (.failed outcome.error? (errorOf client))

/-
  Wait for the run to end and put its result together with the
  client's. If it does not end in time the surrogate is lost
  with it.
-/
def join
    (e : Engine κ θ)
    (client : Except ε α) : Run κ θ ε α :=
  match e.state with
  | .idle s => e.fail (.idle s) .noActiveRun
  | .lost => e.fail .lost .lost
  | .running t =>
    (MainRoutine.move (.wait t e.joinTimeout)).bind fun
      | .ready report =>
        .done (combine report.outcome client, { e with state := .idle report.surrogate })
      | .abandoned => .done (combine (.failed unreported) client, { e with state := .lost })
      | .pending =>
        (MainRoutine.move (.dropPending t)).bind fun () =>
          e.fail .lost (.joinTimeout e.joinTimeout (errorOf client))

end Engine

end Parley
