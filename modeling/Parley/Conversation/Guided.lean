import Parley.Conversation.Client
import Parley.Conversation.Play
import Parley.Conversation.Surrogate
/-
  This file gives conversations between a client and a
  surrogate that is led by hand, step by step.

  Key definitions include:
    * `clientSide`
    * `Table`
    * `GuidedTurn`
    * `Table.turn`
    * `Pipe.converseGuided`
-/

namespace Parley

variable {κ : Codec} {θ : Tls.Provider}

/- The side of the pipe at which a client sits. -/
def clientSide : Side :=
  Engine.seat.other

/- The two who talk. -/
structure Table
    (κ : Codec)
    (θ : Tls.Provider := Tls.transparent) where
  seat : Seat κ θ
  client : Client κ θ

/-
  A turn: a step of either, or steps of the surrogate beside
  steps of the client.
-/
inductive GuidedTurn where
  | surrogate (step : SeatStep)
  | client (step : ClientStep)
  | both (surrogate : List SeatStep) (client : List ClientStep) (delay : Duration)
deriving DecidableEq, Repr

namespace Table

/- Both as they are before they talk. -/
def new
    (terminator : Bytes) : Table κ θ where
  seat := some (.new terminator)
  client := .new terminator

/-
  Take a turn. Beside the client's steps, those of the surrogate
  are taken by another thread.
-/
def turn
    (t : Table κ θ) :
    GuidedTurn →
      MainRoutine (List Reply × Seat κ θ) (Entry × Table κ θ)
  | .surrogate step =>
    (MainRoutine.atSide Engine.seat (t.seat.take step)).bind fun (r, seat) =>
      .done (.single r, { t with seat := seat })
  | .client step =>
    (MainRoutine.atSide clientSide (t.client.take step)).bind fun (r, client) =>
      .done (.single r, { t with client := client })
  | .both surrogate client delay =>
    (MainRoutine.beside ((Routine.forEach Seat.take t.seat surrogate).atSide Engine.seat) delay
        (MainRoutine.atSide clientSide (Routine.forEach Client.take t.client client))).bind fun
      | (.ready (there, seat), here, client) => .done (.both there here, ⟨seat, client⟩)
      | (_, here, client) => .done (.both [] here, ⟨none, client⟩)

end Table

/-
  Play a conversation; after each turn it is noted what is seen
  of the surrogate, and whether the client's endpoint is closed.
-/
def Pipe.converseGuided
    (pipe : Pipe)
    (table : Table κ θ)
    (turns : List GuidedTurn) : Option (List (Entry × Option SurrogateView × Option Bool)) :=
  World.playTurns pipe Table.turn
    (fun t =>
      (MainRoutine.atSide clientSide t.client.isClosed).bind fun closed =>
        .done (t.seat.map Surrogate.view, closed))
    table turns

end Parley
