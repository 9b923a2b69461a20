import Parley.Conversation.Play
/-
  This file gives conversations over a bare pipe, with steps at
  both endpoints.

  Key definitions include:
    * `Present`
    * `PipeStep`
    * `PipeTurn`
    * `Present.take`
    * `Present.turn`
    * `Pipe.converse`
-/

namespace Parley

------------------------------------------------------------
-- Steps and turns
------------------------------------------------------------

/- Which endpoints have not been given up. -/
abbrev Present :=
  Two Bool

/-
  A step at one side: on the endpoint there, or giving it up.
-/
inductive PipeStep where
  | drop (side : Side)
  | on (side : Side) (step : EndpointStep)
deriving DecidableEq, Repr

/-
  A turn: a step, or steps on another thread beside steps on
  this one that begin later.
-/
inductive PipeTurn where
  | step (step : PipeStep)
  | both (first second : List PipeStep) (delay : Duration)
deriving DecidableEq, Repr

namespace Present

/-
  Take a step. An endpoint that is given up is closed; giving it
  up again is no fault.
-/
def take
    (present : Present) : PipeStep → Routine threadInterface (Reply × Present)
  | .drop side =>
    if present.get side then
      (Endpoint.close.atSide side).bind fun () =>
        .done (.ok, present.modify side fun _ => false)
    else .done (.ok, present)
  | .on side step =>
    if present.get side then (step.take.atSide side).bind fun r => .done (r, present)
    else .done (.gone, present)

/- Which endpoints two threads have both left in place. -/
def meet
    (x y : Present) : Present :=
  ⟨x.a && y.a, x.b && y.b⟩

/- Take a turn. -/
def turn
    (present : Present) : PipeTurn → MainRoutine (List Reply × Present) (Entry × Present)
  | .step step =>
    (MainRoutine.ofThread (present.take step)).bind fun (r, present) =>
      .done (.single r, present)
  | .both first second delay =>
    (MainRoutine.beside (Routine.forEach take present first) delay
        (MainRoutine.ofThread (Routine.forEach take present second))).bind fun
      | (.ready (there, x), here, y) => .done (.both there here, x.meet y)
      | (_, here, y) => .done (.both [] here, y)

/-
  Whether the endpoint of a side is closed; one that was given
  up gives no answer.
-/
def isClosed
    {V : Type}
    (present : Present)
    (side : Side) : MainRoutine V (Option Bool) :=
  if present.get side then
    (MainRoutine.atSide side (Endpoint.call .isClosed)).bind fun b => .done (some b)
  else .done none

end Present

------------------------------------------------------------
-- Conversations
------------------------------------------------------------

/-
  Play a conversation; after each turn it is noted which
  endpoints are closed.
-/
def Pipe.converse
    (pipe : Pipe)
    (turns : List PipeTurn) : Option (List (Entry × Two (Option Bool))) :=
  World.playTurns pipe Present.turn
    (fun present =>
      (present.isClosed .a).bind fun a => (present.isClosed .b).bind fun b => .done ⟨a, b⟩)
    ⟨true, true⟩ turns

end Parley
