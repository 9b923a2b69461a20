import Parley.Conversation.Engine
/-
  This file gives conversations with a peer that has to be
  dialled first.

  Key definitions include:
    * `PeerTurn`
    * `Peer.info`
    * `Peer.turn`
    * `Peer.converse`
-/

namespace Parley

variable {κ : Codec} {θ : Tls.Provider}

/- A turn of a conversation with a peer. -/
inductive PeerTurn
    (κ : Codec)
    (θ : Tls.Provider := Tls.transparent) where
  | dial
  | info
  | engine (step : EngineStep κ θ)
  | client (step : ClientStep)

namespace Peer

/-
  The limit on a single call of the surrogate, while the engine
  has it.
-/
def surrogateTimeout
    (p : Peer κ θ) : MainRoutine (Report κ θ) (Option Duration) :=
  match p.engine.surrogate? with
  | none => .done none
  | some _ => MainRoutine.atSide Engine.seat (Endpoint.call .timeout)

/- What is known of the peer from outside. -/
def info
    (p : Peer κ θ) : MainRoutine (Report κ θ) PeerInfo :=
  p.surrogateTimeout.bind fun timeout =>
    .done
      { config := p.config
        host := p.identity.host
        serverName := p.identity.serverName.text
        joinTimeout := p.engine.joinTimeout
        surrogateTimeout := timeout }

/-
  Dial the peer. The client that gets the endpoint ends its
  lines like the peer.
-/
def dialTurn
    (p : Peer κ θ)
    (client : Option (Client κ θ)) :
    MainRoutine (Report κ θ)
      (Entry × Peer κ θ × Option (Client κ θ)) :=
  match p.dial with
  | (.error e, p) => .done (.single (.peerFailure e), p, client)
  | (.ok (), p) =>
    (MainRoutine.atSide clientSide EndpointStep.names.take).bind fun r =>
      .done (.single r, p, some (.new (Bytes.ofString p.config.lineTerminator)))

/- Take a turn. -/
def turn
    (s : Peer κ θ × Option (Client κ θ)) :
    PeerTurn κ θ →
      MainRoutine (Report κ θ)
        (Entry × Peer κ θ × Option (Client κ θ))
  | .dial => s.1.dialTurn s.2
  | .info => s.1.info.bind fun i => .done (.single (.info i), s)
  | .engine step =>
    (s.1.engine.take step).bind fun (r, e) => .done (.single r, { s.1 with engine := e }, s.2)
  | .client step =>
    match s.2 with
    | none => .done (.single .undialed, s)
    | some c =>
      (MainRoutine.atSide clientSide (c.take step)).bind fun (r, c) =>
        .done (.single r, s.1, some c)

/-
  Play a conversation; after each turn it is noted what is seen
  of the engine.
-/
def converse
    (p : Peer κ θ)
    (turns : List (PeerTurn κ θ)) :
    Option (List (Entry × EngineView)) :=
  World.playTurns (pipe p.config) turn (fun s => .done s.1.engine.view) (p, none) turns

end Peer

end Parley
