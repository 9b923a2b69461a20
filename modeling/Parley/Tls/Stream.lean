import Parley.Tls.Provider
import Parley.Tls.Session
/-
  This file lets a session that hides nothing work over an
  endpoint: its opening exchange, and the session as a byte
  stream. Together they are a provider of sessions.

  Key definitions include:
    * `Session.exchange`
    * `Session.read`
    * `Session.write`
    * `Session.flush`
    * `transparent`
-/

namespace Parley.Tls

namespace Session

------------------------------------------------------------
-- Moving records
------------------------------------------------------------

/- How many bytes are taken from the endpoint at a time. -/
def chunkSize : Nat :=
  4096

/- The most data that is taken in by one write. -/
def writeLimit : Nat :=
  65536

/-
  Write as much of the first queued record as the endpoint
  takes.
-/
def sendSome
    (s : Session) : Routine endpointInterface (Except IoError Nat × Session) :=
  match s.outgoing with
  | [] => .done (.ok 0, s)
  | first :: rest =>
    (Endpoint.write first.1).bind fun
      | .error e => .done (.error e, s)
      | .ok n =>
        .done (.ok n,
          { s with
            outgoing :=
              (Chunk.ofBytes? (first.1.drop n)).toList ++ rest })

/-
  Write everything queued; the count is of the bytes that went
  out.
-/
def sendQueued
    (s : Session) : Routine endpointInterface (Except IoError Nat × Session) :=
  .iterate (s, 0) fun (s, count) =>
    if s.wantsWrite then
      (sendSome s).bind fun
        | (.error e, s) => .done (.inr (.error e, s))
        | (.ok n, s) => if n = 0 then .done (.inr (.ok count, s)) else .done (.inl (s, count + n))
    else .done (.inr (.ok count, s))

/-
  Receive once from the endpoint; the count is of the bytes that
  came in.
-/
def receiveSome
    (s : Session) : Routine endpointInterface (Except IoError Nat × Session) :=
  (Endpoint.read chunkSize).bind fun
    | .error e => .done (.error e, s)
    | .ok [] => .done (.ok 0, { s with seenEof := true })
    | .ok got => .done (.ok got.length, { s with incoming := s.incoming ++ got })

/-
  Take in what has arrived; when that breaks the session, try
  once to send the alert.
-/
def digest
    (s : Session) : Routine endpointInterface (Except IoError Unit × Session) :=
  match s.process with
  | (.ok (), s) => .done (.ok (), s)
  | (.error fault, s) => (sendSome s).bind fun (_, s) => .done (.error (.tls fault), s)

/-
  Send and receive. During the opening exchange this goes on
  until the exchange is over; afterwards it sends what is queued
  or, if nothing is, receives once. The count is of the bytes
  received.
-/
def exchange
    (s : Session) : Routine endpointInterface (Except IoError Nat × Session) :=
  .iterate (s, 0) fun (s, received) =>
    let opening := s.isHandshaking
    if !s.wantsWrite && !s.wantsRead then .done (.inr (.ok received, s))
    else
      (sendQueued s).bind fun
        | (.error e, s) => .done (.inr (.error e, s))
        | (.ok sent, s) =>
          if !opening && 0 < sent then .done (.inr (.ok received, s))
          else
            (if s.wantsRead then receiveSome s else .done (.ok 0, s)).bind fun
              | (.error e, s) => .done (.inr (.error e, s))
              | (.ok n, s) =>
                (digest s).bind fun
                  | (.error e, s) => .done (.inr (.error e, s))
                  | (.ok (), s) =>
                    let received := received + n
                    if opening && !s.isHandshaking && s.wantsWrite then
                      .done (.inl (s, received))
                    else if !opening || !s.isHandshaking then .done (.inr (.ok received, s))
                    else if s.seenEof then .done (.inr (.error (.tls .handshakeEof), s))
                    else .done (.inl (s, received))

------------------------------------------------------------
-- The session as a byte stream
------------------------------------------------------------

/- Exchange if there is a reason to. -/
def exchangeIf
    (reason : Bool)
    (s : Session) : Routine endpointInterface (Except IoError Unit × Session) :=
  if reason then
    (exchange s).bind fun
      | (.error e, s) => .done (.error e, s)
      | (.ok _, s) => .done (.ok (), s)
  else .done (.ok (), s)

/-
  Finish what an earlier call has left undone: the opening
  exchange, and what is queued.
-/
def finishPrior
    (s : Session) : Routine endpointInterface (Except IoError Unit × Session) :=
  (exchangeIf s.isHandshaking s).ifOk fun () s =>
    exchangeIf s.wantsWrite s

/-
  Receive until there is data to hand out, or none will come.
-/
def await
    (s : Session) : Routine endpointInterface (Except IoError Unit × Session) :=
  .iterate s fun s =>
    if s.wantsRead then
      (exchange s).bind fun
        | (.error e, s) => .done (.inr (.error e, s))
        | (.ok n, s) => if n = 0 then .done (.inr (.ok (), s)) else .done (.inl s)
    else .done (.inr (.ok (), s))

/- Hand out received data, `room` bytes of it at most. -/
def handOut
    (s : Session)
    (room : Nat) : Bytes × Session :=
  (s.plaintext.take room, { s with plaintext := s.plaintext.drop room })

/-
  Read received data. What is there is handed out at once, so
  that it is not lost to a link on which nothing can be sent any
  more; otherwise the first data to come is waited for. A
  session that the far end has left reads as ended; a stream
  that breaks off without that notice is a failure.
-/
def read
    (s : Session)
    (room : Nat) : Routine endpointInterface (Except IoError Bytes × Session) :=
  if s.plaintext ≠ [] then .done (.ok (s.handOut room).1, (s.handOut room).2)
  else
    (finishPrior s).ifOk fun () s =>
      (await s).ifOk fun () s =>
        if s.plaintext = [] ∧ room ≠ 0 ∧ !s.peerLeft then .done (.error (.tls .truncated), s)
        else .done (.ok (s.handOut room).1, (s.handOut room).2)

/-
  Take data in and try to send it. That it could not be sent yet
  is no failure of this call; it shows in the next one.
-/
def write
    (s : Session)
    (src : Bytes) : Routine endpointInterface (Except IoError Nat × Session) :=
  (finishPrior s).ifOk fun () s =>
    let part := src.take writeLimit
    (exchange (s.queueData part)).bind fun (_, s) => .done (.ok part.length, s)

/- Send everything taken in. -/
def flush
    (s : Session) : Routine endpointInterface (Except IoError Unit × Session) :=
  (finishPrior s).ifOk fun () s => exchangeIf s.wantsWrite s

end Session

/- A provider of sessions that hide nothing. -/
def transparent : Provider where
  Session := Session
  server := Session.server
  client := Session.client
  isHandshaking := Session.isHandshaking
  wantsWrite := Session.wantsWrite
  exchange := Session.exchange
  read := Session.read
  write := Session.write
  flush := Session.flush
  queueCloseNotify := Session.queueCloseNotify

end Parley.Tls
