import Parley.Conversation.Guided
/-
  This file gives conversations between a client and an engine
  that runs scripts.

  Key definitions include:
    * `EngineStep`
    * `Engine.take`
    * `EngineView`
    * `EngineTurn`
    * `Pipe.converseEngine`
-/

namespace Parley

variable {κ : Codec} {θ : Tls.Provider}

------------------------------------------------------------
-- Steps on an engine
------------------------------------------------------------

/- A step on an engine, or on the surrogate that it holds. -/
inductive EngineStep
    (κ : Codec)
    (θ : Tls.Provider := Tls.transparent) where
  | runLiterals (literals : List (Literal κ θ))
  | run (script : Script κ θ)
  | join (client : Except String String)
  | joinTimeout
  | sleep (d : Duration)
  | surrogate (step : SurrogateStep)

/- What is seen of an engine from outside. -/
structure EngineView where
  running : Bool
  surrogate : Option SurrogateView
deriving DecidableEq, Repr

namespace Engine

/- Take a step. -/
def take
    (e : Engine κ θ) :
    EngineStep κ θ → MainRoutine (Report κ θ) (Reply × Engine κ θ)
  | .runLiterals literals =>
    (e.runLiterals literals).bind fun (r, e) => .done (.ofEngine .done r, e)
  | .run script => (e.run script).bind fun (r, e) => .done (.ofEngine .done r, e)
  | .join client => (e.join client).bind fun (r, e) => .done (.ofEngine .value r, e)
  | .joinTimeout => .done (.span (some e.joinTimeout), e)
  | .sleep d => (MainRoutine.move (.act (.sleep d))).bind fun () => .done (.ok, e)
  | .surrogate step =>
    match e.surrogate? with
    | none => .done (.busy, e)
    | some s =>
      (MainRoutine.atSide seat (s.take step)).bind fun (r, s) =>
        .done (r, { e with state := .idle s })

/- Look at an engine. -/
def view
    (e : Engine κ θ) : EngineView where
  running := e.isRunning
  surrogate := e.surrogate?.map Surrogate.view

end Engine

------------------------------------------------------------
-- Conversations
------------------------------------------------------------

/- A turn of the engine or of the client. -/
inductive EngineTurn
    (κ : Codec)
    (θ : Tls.Provider := Tls.transparent) where
  | engine (step : EngineStep κ θ)
  | client (step : ClientStep)

/- Take a turn. -/
def EngineTurn.take
    (s : Engine κ θ × Client κ θ) :
    EngineTurn κ θ →
      MainRoutine (Report κ θ) (Entry × Engine κ θ × Client κ θ)
  | .engine step => (s.1.take step).bind fun (r, e) => .done (.single r, e, s.2)
  | .client step =>
    (MainRoutine.atSide clientSide (s.2.take step)).bind fun (r, c) => .done (.single r, s.1, c)

/-
  Play a conversation; after each turn it is noted what is seen
  of the engine.
-/
def Pipe.converseEngine
    (pipe : Pipe)
    (engine : Engine κ θ)
    (client : Client κ θ)
    (turns : List (EngineTurn κ θ)) :
    Option (List (Entry × EngineView)) :=
  World.playTurns pipe EngineTurn.take (fun s => .done s.1.view) (engine, client) turns

end Parley
