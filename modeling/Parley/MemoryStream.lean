import Parley.Stream
/-
  This file gives a byte stream that lives in memory: it is
  read from a fixed store of bytes and written to another.

  Key definitions include:
    * `MemoryStream`
    * `MemoryStream.read`
    * `MemoryStream.write`
-/

namespace Parley

/-
  A stream in memory: the bytes still to be read, how many are
  read at a time, the failure that comes after them (none means
  that the stream just ends), and the bytes written.
-/
structure MemoryStream where
  source : Bytes
  chunk : Option Nat := none
  failure : Option IoError := none
  sink : Bytes := []
deriving DecidableEq, Repr

namespace MemoryStream

/- Read the next bytes of the store. -/
def read
    (m : MemoryStream)
    (room : Nat) : Except IoError Bytes × MemoryStream :=
  if m.source = [] then
    match m.failure with
    | some e => (.error e, m)
    | none => (.ok [], m)
  else
    let n := m.chunk.elim room (min room)
    (.ok (m.source.take n), { m with source := m.source.drop n })

/- Write bytes. -/
def write
    (m : MemoryStream)
    (src : Bytes) : MemoryStream :=
  { m with sink := m.sink ++ src }

instance : ByteStream Interface.none MemoryStream where
  read m room := .done (m.read room)
  write m src := .done (.ok src.length, m.write src)
  flush m := .done (.ok (), m)

end MemoryStream

end Parley
