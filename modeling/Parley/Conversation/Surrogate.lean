import Parley.Conversation.Endpoint
/-
  This file gives the steps of a conversation that act on a
  surrogate, and the seat at which there is one until it is
  given up.

  Key definitions include:
    * `SurrogateStep`
    * `Surrogate.take`
    * `SurrogateView`
    * `Seat`
    * `Seat.take`
-/

namespace Parley

variable {κ : Codec} {θ : Tls.Provider}

------------------------------------------------------------
-- Steps on a surrogate
------------------------------------------------------------

/-
  A step on a surrogate. `ioFlush` and the counted reads and
  writes use it as a stream.
-/
inductive SurrogateStep where
  | readLine
  | writeLine (line : Bytes)
  | flush
  | deflate (level : Nat)
  | tls
  | close (flushFirst : Bool)
  | ioFlush
  | write (src : Bytes)
  | read (room : Nat)
  | readExact (n : Nat)
  | text
  | endpoint (step : EndpointStep)
deriving DecidableEq, Repr

/- Take a step. -/
def Surrogate.take
    (s : Surrogate κ θ) :
    SurrogateStep →
      Routine endpointInterface (Reply × Surrogate κ θ)
  | .readLine => s.readLine.bind fun (r, s) => .done (.ofSurrogate .line r, s)
  | .writeLine line => (s.writeLine line).bind fun (r, s) => .done (.ofSurrogate .done r, s)
  | .flush => s.flush.bind fun (r, s) => .done (.ofSurrogate .done r, s)
  | .deflate level => (s.enableDeflate level).bind fun (r, s) => .done (.ofSurrogate .done r, s)
  | .tls => s.enableTls.bind fun (r, s) => .done (.ofSurrogate .done r, s)
  | .close first => (s.close first).bind fun (r, s) => .done (.ofSurrogate .done r, s)
  | .ioFlush => (ByteStream.flush s).bind fun (r, s) => .done (.ofIo .done r, s)
  | .write src => (s.write src).bind fun (r, s) => .done (.ofIo .count r, s)
  | .read room => (s.read room).bind fun (r, s) => .done (.ofIo .data r, s)
  | .readExact n => (ByteStream.readExact s n).bind fun (r, s) => .done (.ofIo .data r, s)
  | .text =>
    (Endpoint.call .names).bind fun names => .done (.text (s.text (Endpoint.text names)), s)
  | .endpoint step => step.take.bind fun r => .done (r, s)

------------------------------------------------------------
-- Views
------------------------------------------------------------

/- What is seen of a surrogate from outside. -/
structure SurrogateView where
  compressed : Bool
  encrypted : Bool
  closed : Bool
deriving DecidableEq, Repr

/- Look at a surrogate. -/
def Surrogate.view
    (s : Surrogate κ θ) : SurrogateView where
  compressed := s.isCompressed
  encrypted := s.isEncrypted
  closed := s.closed

------------------------------------------------------------
-- The seat
------------------------------------------------------------

/- A seat with a surrogate, or one from which it is gone. -/
abbrev Seat (κ : Codec) (θ : Tls.Provider) :=
  Option (Surrogate κ θ)

/- A step at a seat: on the surrogate there, or giving it up. -/
inductive SeatStep where
  | drop
  | on (step : SurrogateStep)
deriving DecidableEq, Repr

/-
  Take a step. A surrogate that is given up closes its endpoint;
  giving it up again is no fault.
-/
def Seat.take
    (seat : Seat κ θ)
    (step : SeatStep) :
    Routine endpointInterface (Reply × Seat κ θ) :=
  match seat, step with
  | none, .drop => .done (.ok, none)
  | none, .on _ => .done (.gone, none)
  | some _, .drop => Endpoint.close.bind fun () => .done (.ok, none)
  | some s, .on step => (s.take step).bind fun (r, s) => .done (r, some s)

end Parley
