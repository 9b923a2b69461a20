import Parley.Config.Document
import Parley.Engine.Basic
import Parley.Tls.Identity
/-
  This file gives the scripted peer: a pipe, an engine at one
  end of it, and an identity, all set up from one set of
  settings. The other end is there to be dialled, once.

  Key definitions include:
    * `Peer`
    * `PeerError`
    * `Peer.new`
    * `Peer.withIdentity`
    * `Peer.pipe`
    * `Peer.dial`
    * `Peer.deflate`
-/

namespace Parley

variable {κ : Codec} {θ : Tls.Provider}

/- Why there is no peer, or why it is not dialled. -/
inductive PeerError where
  | config (error : ConfigError)
  | identity (error : Tls.IdentityError)
  | alreadyDialed
deriving DecidableEq, Repr

/- The text shown when a peer is dialled again. -/
def PeerError.alreadyDialedMessage : String :=
  "client endpoint already dialed"

/-
  A peer: its settings, its identity, whether it was dialled,
  and its engine.
-/
structure Peer
    (κ : Codec)
    (θ : Tls.Provider := Tls.transparent) where
  config : Config
  identity : Tls.Identity
  dialed : Bool
  engine : Engine κ θ

namespace Peer

/- The name of the end that is dialled. -/
def clientName : String :=
  "client"

/- The name of the end at which the engine sits. -/
def serverName : String :=
  "server"

/- The pipe of a peer: both ends limit every call alike. -/
def pipe
    (config : Config) : Pipe :=
  let limits : Limits := { timeout := some config.ioTimeout }
  { Pipe.pair clientName serverName config.bufferSize with limits := ⟨limits, limits⟩ }

/- A peer with an identity that is there already. -/
def withIdentity
    (config : Config)
    (identity : Tls.Identity) : Except PeerError (Peer κ θ) :=
  match config.validate with
  | .error e => .error (.config e)
  | .ok () =>
    let surrogate := Surrogate.new (Bytes.ofString config.lineTerminator)
    .ok
      { config := config
        identity := identity
        dialed := false
        engine := Engine.new surrogate config.joinTimeout }

/- A peer with an identity of its own, issued now. -/
def new
    (now : Instant)
    (config : Config) : Except PeerError (Peer κ θ) :=
  match config.validate with
  | .error e => .error (.config e)
  | .ok () =>
    match Tls.Identity.issue now config.tlsHost config.certValidity with
    | .error e => .error (.identity e)
    | .ok identity => withIdentity config identity

/- Hand out the client's end, once. -/
def dial
    (p : Peer κ θ) : Except PeerError Unit × Peer κ θ :=
  if p.dialed then (.error .alreadyDialed, p) else (.ok (), { p with dialed := true })

/- Compress at the level of the settings. -/
def deflate
    (p : Peer κ θ) : Control κ θ :=
  Control.deflate p.config.deflateLevel

end Peer

end Parley
