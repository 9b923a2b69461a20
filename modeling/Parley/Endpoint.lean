import Parley.Stream
import Parley.Pipe.Call
import Parley.Text.Quoted
/-
  This file gives the endpoint of a pipe as its holder sees it:
  receiving and sending with pipe errors, and the same as a
  byte stream.

  Key definitions include:
    * `Endpoint`
    * `Endpoint.call`
    * `Endpoint.recv`
    * `Endpoint.send`
    * `Endpoint.read`
    * `Endpoint.write`
    * `Endpoint.text`
-/

namespace Parley

/-
  The endpoint that a routine over `endpointInterface` holds.
-/
inductive Endpoint where
  | held
deriving DecidableEq, Repr

namespace Endpoint

/- Make a call on the endpoint. -/
def call
    (c : Call) : Routine endpointInterface c.Answer :=
  .call (I := endpointInterface) c

------------------------------------------------------------
-- With pipe errors
------------------------------------------------------------

/-
  Receive what is there, `room` bytes at most, waiting for the
  first.
-/
def recv
    (room : Nat) :
    Routine endpointInterface (Except PipeError Bytes) :=
  call (.recv room)

/-
  Put bytes into the pipe, waiting for place, and say how far
  that went.
-/
def put
    (src : Bytes) :
    Routine endpointInterface (Except ShortWrite Nat) :=
  call (.send src)

/- Send all of `src`; anything less is an error. -/
def send
    (src : Bytes) :
    Routine endpointInterface (Except PipeError Nat) :=
  (put src).bind fun
    | .ok n => .done (.ok n)
    | .error short => .done (.error short.error)

/- Close the pipe from this end. -/
def close : Routine endpointInterface Unit :=
  call .close

------------------------------------------------------------
-- As a byte stream
------------------------------------------------------------

/- The end of the stream reads as no bytes. -/
def read
    (room : Nat) :
    Routine endpointInterface (Except IoError Bytes) :=
  (recv room).bind fun
    | .ok got => .done (.ok got)
    | .error .endOfStream => .done (.ok [])
    | .error e => .done (.error (.pipe e))

/-
  A write that moved some bytes reports them; its error, if it
  had one, comes next time.
-/
def write
    (src : Bytes) :
    Routine endpointInterface (Except IoError Nat) :=
  (put src).bind fun
    | .ok n => .done (.ok n)
    | .error short =>
      if 0 < short.written then .done (.ok short.written)
      else .done (.error (.pipe short.error))

instance : ByteStream endpointInterface Endpoint where
  read e n := (read n).bind fun r => .done (r, e)
  write e src := (write src).bind fun r => .done (r, e)
  flush e := .done (.ok (), e)

------------------------------------------------------------
-- Text
------------------------------------------------------------

/- The text that shows an address. -/
def addressText
    (name : String) : String :=
  "MemAddr(" ++ Text.quote name ++ ")"

/-
  The text that shows an endpoint, given its own name and that
  of the far end.
-/
def text
    (names : String × String) : String :=
  "MemConn \x7b local: " ++ addressText names.1 ++
    ", peer: " ++ addressText names.2 ++ ", .. \x7d"

end Endpoint

end Parley
