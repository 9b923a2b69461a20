import Parley.Endpoint
/-
  This file gives what an encrypted link needs of its sessions,
  which come from elsewhere: the one that is set up for either
  end, how it exchanges what it has to with the far end, and how
  it is used as a byte stream. The handshake of a session is
  made of exchanges.

  Key definitions include:
    * `Provider`
    * `Provider.handshake`
-/

namespace Parley.Tls

------------------------------------------------------------
-- Sessions
------------------------------------------------------------

/-
  A provider of sessions over an endpoint, with one set up for
  either end. A session says whether its handshake is still
  going on, and whether it has something to send. In an exchange
  it sends and receives what it has to, and says how many bytes
  came in. It is read, written to and flushed like any stream,
  and can be told to take leave of the far end with the next
  flush.
-/
structure Provider where
  Session : Type
  server : Session
  client : Session
  isHandshaking : Session → Bool
  wantsWrite : Session → Bool
  exchange :
    Session →
      Routine endpointInterface (Except IoError Nat × Session)
  read :
    Session → Nat →
      Routine endpointInterface (Except IoError Bytes × Session)
  write :
    Session → Bytes →
      Routine endpointInterface (Except IoError Nat × Session)
  flush :
    Session →
      Routine endpointInterface (Except IoError Unit × Session)
  queueCloseNotify : Session → Session

namespace Provider

/- Exchange until the handshake is over. -/
def handshake
    (θ : Provider)
    (session : θ.Session) :
    Routine endpointInterface (Except IoError Unit × θ.Session) :=
  .iterate session fun session =>
    if θ.isHandshaking session then
      (θ.exchange session).bind fun
        | (.error e, session) => .done (.inr (.error e, session))
        | (.ok _, session) => .done (.inl session)
    else .done (.inr (.ok (), session))

end Provider

end Parley.Tls
