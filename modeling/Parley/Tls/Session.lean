import Parley.Tls.Record
/-
  This file gives one end of an encrypted session as a value
  that takes in bytes and gives out records: the exchange that
  opens it, the data that passes, and the notice that ends it.

  The session models the order and the shape of the messages;
  it hides nothing and trusts everyone. It is one that can be
  provided where no other is at hand.

  Key definitions include:
    * `Chunk`
    * `Session`
    * `Session.client`
    * `Session.server`
    * `Session.isHandshaking`
    * `Session.wantsRead`
    * `Session.process`
    * `Session.queueData`
    * `Session.queueCloseNotify`
-/

namespace Parley.Tls

------------------------------------------------------------
-- Sessions
------------------------------------------------------------

/- Bytes to be sent, of which there is at least one. -/
abbrev Chunk :=
  { bytes : Bytes // bytes ≠ [] }

/- Bytes as a chunk, if there are any. -/
def Chunk.ofBytes? : Bytes → Option Chunk
  | [] => none
  | b :: rest => some ⟨b :: rest, List.cons_ne_nil b rest⟩

/- A record as it is sent has a head at least. -/
def Record.chunk
    (r : Record) : Chunk :=
  ⟨r.encode, List.cons_ne_nil _ _⟩

/- What a session waits for. -/
inductive Stage where
  | clientHello
  | serverFlight
  | clientFinished
  | established
deriving DecidableEq, Repr

/-
  One end of a session: its stage, what is still to be sent,
  the bytes received that are not a whole record yet, the data
  received, whether the far end has taken leave, whether the
  stream below has ended, and the fault that broke it.
-/
structure Session where
  stage : Stage
  outgoing : List Chunk := []
  incoming : Bytes := []
  plaintext : Bytes := []
  peerLeft : Bool := false
  seenEof : Bool := false
  fault : Option TlsFault := none
deriving DecidableEq, Repr

namespace Session

/- The first byte of each handshake message. -/
def clientHelloMark : UInt8 :=
  1

/- The mark of the answer to the hello. -/
def serverFlightMark : UInt8 :=
  2

/- The mark of the last message of the opening exchange. -/
def finishedMark : UInt8 :=
  20

/- The mark of a session ticket. -/
def ticketMark : UInt8 :=
  4

/- The size of a session ticket. -/
def ticketSize : Nat :=
  81

/- A handshake message with nothing but its mark. -/
def message
    (mark : UInt8) : Record :=
  ⟨Record.handshake, [mark]⟩

/-
  The two tickets that the server gives away when a session is
  open.
-/
def tickets : Record :=
  ⟨Record.handshake, (List.replicate 2 (ticketMark :: List.replicate (ticketSize - 1) 0)).flatten⟩

/- The alert by which a broken session takes its leave. -/
def decodeErrorAlert : Record :=
  ⟨Record.alert, [2, 50]⟩

/- The alert by which an orderly session takes its leave. -/
def closeNotify : Record :=
  ⟨Record.alert, [1, 0]⟩

/- A client begins by saying hello. -/
def client : Session :=
  { stage := .serverFlight
    outgoing := [(message clientHelloMark).chunk] }

/- A server waits for the hello. -/
def server : Session :=
  { stage := .clientHello }

/- Whether the opening exchange is still going on. -/
def isHandshaking
    (s : Session) : Bool :=
  s.stage != .established

/- Whether there is something to send. -/
def wantsWrite
    (s : Session) : Bool :=
  !s.outgoing.isEmpty

/-
  Whether more bytes are of use: not while received data waits,
  and not after the far end left.
-/
def wantsRead
    (s : Session) : Bool :=
  s.plaintext.isEmpty && !s.peerLeft && (!s.isHandshaking || s.outgoing.isEmpty)

/- Queue a record. -/
def queue
    (s : Session)
    (r : Record) : Session :=
  { s with outgoing := s.outgoing ++ [r.chunk] }

------------------------------------------------------------
-- Receiving
------------------------------------------------------------

/- Take in the content of a sealed record. -/
def takeSealed
    (s : Session)
    (r : Record) : Except TlsFault Session :=
  if r.contentType = Record.applicationData then .ok { s with plaintext := s.plaintext ++ r.body }
  else if r.contentType = Record.alert then
    match r.body with
    | [_, 0] => .ok { s with peerLeft := true }
    | [_, code] => .error (.alert code)
    | _ => .error (.corrupt .body)
  else .ok s

/- Take in one record. -/
def takeRecord
    (s : Session)
    (r : Record) : Except TlsFault Session :=
  if s.stage = .established then
    if r.contentType = Record.applicationData then
      match r.unsealed? with
      | some inner => s.takeSealed inner
      | none => .error (.corrupt .body)
    else .error .unexpectedMessage
  else if r.contentType = Record.alert then
    match r.body with
    | [_, code] => .error (.alert code)
    | _ => .error (.corrupt .body)
  else
    match s.stage with
    | .clientHello =>
      if r = message clientHelloMark then
        .ok (queue { s with stage := .clientFinished } (message serverFlightMark))
      else .error (.corrupt .body)
    | .serverFlight =>
      if r = message serverFlightMark then
        .ok (queue { s with stage := .established } (message finishedMark))
      else .error (.corrupt .body)
    | _ =>
      if r = message finishedMark then
        .ok (queue { s with stage := .established } tickets.sealed)
      else .error (.corrupt .body)

/-
  Take in every whole record that has arrived. A record takes at
  least the bytes of its head, so `fuel` records are enough for
  as many bytes.
-/
def takeRecords : Nat → Session → Except TlsFault Session
  | 0, s => .ok s
  | fuel + 1, s =>
    if s.peerLeft then .ok { s with incoming := [] }
    else
      match Record.split s.incoming with
      | .error fault => .error (.corrupt fault)
      | .ok none => .ok s
      | .ok (some (r, rest)) =>
        match takeRecord { s with incoming := rest } r with
        | .error fault => .error fault
        | .ok s => takeRecords fuel s

/-
  Take in what has arrived. A fault breaks the session for good;
  the bytes are gone and an alert is queued.
-/
def process
    (s : Session) : Except TlsFault Unit × Session :=
  match s.fault with
  | some fault => (.error fault, s)
  | none =>
    match takeRecords (s.incoming.length + 1) s with
    | .ok s => (.ok (), s)
    | .error fault =>
      (.error fault, queue { s with incoming := [], fault := some fault } decodeErrorAlert)

------------------------------------------------------------
-- Sending
------------------------------------------------------------

/- The most data that one record carries. -/
def longestFragment : Nat :=
  16384

/- Data in records, in order. -/
def fragments : Bytes → List Record
  | [] => []
  | b :: rest =>
    (⟨Record.applicationData, (b :: rest).take longestFragment⟩ : Record).sealed ::
      fragments (rest.drop (longestFragment - 1))
termination_by s => s.length
decreasing_by simp only [List.length_drop, List.length_cons]; omega

/- Queue data. -/
def queueData
    (s : Session)
    (src : Bytes) : Session :=
  { s with
    outgoing := s.outgoing ++ (fragments src).map Record.chunk }

/- Queue the notice that nothing more will come. -/
def queueCloseNotify
    (s : Session) : Session :=
  s.queue closeNotify.sealed

end Session

end Parley.Tls
