import Parley.Conversation.Reply
/-
  This file gives the steps of a conversation that act on an
  endpoint itself, below any layer.

  Key definitions include:
    * `EndpointStep`
    * `EndpointStep.take`
-/

namespace Parley

------------------------------------------------------------
-- Steps
------------------------------------------------------------

/-
  A step on an endpoint: receiving and sending with pipe errors,
  the same as a stream, and the calls that set or show
  something. A deadline is given in nanoseconds from now, for
  one direction or both.
-/
inductive EndpointStep where
  | recv (room : Nat)
  | send (src : Bytes)
  | read (room : Nat)
  | readExact (n : Nat)
  | readToEnd
  | write (src : Bytes)
  | writeAll (src : Bytes)
  | flush
  | setTimeout (timeout : Option Duration)
  | setDeadline (direction : Option Direction) (offset : Option Int)
  | timeout
  | close
  | clear
  | isClosed
  | names
  | text
deriving DecidableEq, Repr

namespace EndpointStep

/- How many bytes are read at a time where all are wanted. -/
def chunkSize : Nat :=
  4096

/- Set the deadline of one direction or both. -/
def setDeadlineTo
    (direction : Option Direction)
    (deadline : Option Instant) : Routine endpointInterface Reply :=
  match direction with
  | none => (Endpoint.call (.setDeadline deadline)).bind fun () => .done .ok
  | some .read => (Endpoint.call (.setReadDeadline deadline)).bind fun () => .done .ok
  | some .write => (Endpoint.call (.setWriteDeadline deadline)).bind fun () => .done .ok

/- Take a step. -/
def take : EndpointStep → Routine endpointInterface Reply
  | recv room => (Endpoint.recv room).bind fun r => .done (.ofPipe .data r)
  | send src => (Endpoint.send src).bind fun r => .done (.ofPipe .count r)
  | read room => (Endpoint.read room).bind fun r => .done (.ofIo .data r)
  | readExact n =>
    (ByteStream.readExact Endpoint.held n).bind fun (r, _) => .done (.ofIo .data r)
  | readToEnd =>
    (ByteStream.readToEnd Endpoint.held chunkSize).bind fun
      | (got, none, _) => .done (.data got)
      | (got, some e, _) => .done (.cutShort got e)
  | write src => (Endpoint.write src).bind fun r => .done (.ofIo .count r)
  | writeAll src =>
    (ByteStream.writeAll Endpoint.held src).bind fun (r, _) => .done (.ofIo .done r)
  | flush => (ByteStream.flush Endpoint.held).bind fun (r, _) => .done (.ofIo .done r)
  | setTimeout d => (Endpoint.call (.setTimeout d)).bind fun () => .done .ok
  | setDeadline direction none => setDeadlineTo direction none
  | setDeadline direction (some offset) =>
    (Endpoint.call .now).bind fun now => setDeadlineTo direction (some (now + offset))
  | timeout => (Endpoint.call .timeout).bind fun d => .done (.span d)
  | close => Endpoint.close.bind fun () => .done .ok
  | clear => (Endpoint.call .clear).bind fun () => .done .ok
  | isClosed => (Endpoint.call .isClosed).bind fun b => .done (.flag b)
  | names => (Endpoint.call .names).bind fun (own, far) => .done (.names own far)
  | text => (Endpoint.call .names).bind fun names => .done (.text (Endpoint.text names))

end EndpointStep

end Parley
