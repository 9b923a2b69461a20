import Parley.Routine
import Parley.Failure
/-
  This file gives byte streams: values that can be read from
  and written to by routines, and the calls that repeat a read
  or a write until everything is there.

  A stream is a value; every call returns the stream as it is
  afterwards, also when the call fails.

  Key definitions include:
    * `ByteStream`
    * `ByteStream.readExact`
    * `ByteStream.writeAll`
    * `ByteStream.readToEnd`
-/

universe u

namespace Parley

------------------------------------------------------------
-- The interface of a stream
------------------------------------------------------------

/-
  How `τ` is used as a byte stream. A read gives at most as many
  bytes as it has room for, none at the end of the stream; a
  write says how many of the bytes it took.
-/
class ByteStream (I : outParam Interface.{u}) (τ : Type) where
  read : τ → Nat → Routine I (Except IoError Bytes × τ)
  write : τ → Bytes → Routine I (Except IoError Nat × τ)
  flush : τ → Routine I (Except IoError Unit × τ)

namespace ByteStream

variable {I : Interface.{u}} {τ : Type} [ByteStream I τ]

------------------------------------------------------------
-- Repeated calls
------------------------------------------------------------

/-
  Read until `n` bytes are there. A stream that ends first is
  short; what was read until then is lost with it. What was read
  is gathered with the last byte first.
-/
def readExact
    (t : τ)
    (n : Nat) : Routine I (Except IoError Bytes × τ) :=
  .iterate (t, n, ([] : Bytes)) fun (t, missing, got) =>
    if missing = 0 then .done (.inr (.ok got.reverse, t))
    else
      (read t missing).bind fun
        | (.error e, t) => .done (.inr (.error e, t))
        | (.ok [], t) => .done (.inr (.error .shortInput, t))
        | (.ok more, t) => .done (.inl (t, missing - more.length, more.reverse ++ got))

/-
  Write until all is taken. A stream that takes nothing of a
  non-empty rest is short.
-/
def writeAll
    (t : τ)
    (src : Bytes) : Routine I (Except IoError Unit × τ) :=
  .iterate (t, src) fun (t, rest) =>
    if rest = [] then .done (.inr (.ok (), t))
    else
      (write t rest).bind fun
        | (.error e, t) => .done (.inr (.error e, t))
        | (.ok 0, t) => .done (.inr (.error .shortOutput, t))
        | (.ok n, t) => .done (.inl (t, rest.drop n))

/-
  Read until the stream ends or fails, with room for `chunk`
  bytes at a time; what was read is returned either way, with
  the failure beside it. It is gathered with the last byte
  first.
-/
def readToEnd
    (t : τ)
    (chunk : Nat) : Routine I (Bytes × Option IoError × τ) :=
  .iterate (t, ([] : Bytes)) fun (t, got) =>
    (read t chunk).bind fun
      | (.error e, t) => .done (.inr (got.reverse, some e, t))
      | (.ok [], t) => .done (.inr (got.reverse, none, t))
      | (.ok more, t) => .done (.inl (t, more.reverse ++ got))

end ByteStream

end Parley
