import Parley.Deflate.Stream
import Parley.MemoryStream
/-
  This file uses compressed streams over memory: a list of
  reads from compressed data, and a list of writes that
  compress.

  Key definitions include:
    * `MemoryRead`
    * `MemoryStream.inflate`
    * `MemoryWrite`
    * `MemoryStream.deflate`
-/

namespace Parley

variable {κ : Codec}

/-
  A single read with room for some bytes, or a read of
  everything.
-/
inductive MemoryRead where
  | once (room : Nat)
  | toEnd
deriving DecidableEq, Repr

/- Something written, or a flush. -/
inductive MemoryWrite where
  | bytes (src : Bytes)
  | flush
deriving DecidableEq, Repr

namespace DeflateStream

/- How many bytes are read at a time where all are wanted. -/
def readAllSize : Nat :=
  4096

/-
  Do a read. What a read of everything found before it failed is
  not returned.
-/
def takeRead
    (d : DeflateStream κ MemoryStream) :
    MemoryRead →
      Routine Interface.none (Except IoError Bytes × DeflateStream κ MemoryStream)
  | .once room => d.read room
  | .toEnd =>
    (ByteStream.readToEnd d readAllSize).bind fun
      | (got, none, d) => .done (.ok got, d)
      | (_, some e, d) => .done (.error e, d)

/-
  Do a write, and say whether it made bytes reach the memory.
-/
def takeWrite
    (d : DeflateStream κ MemoryStream)
    (w : MemoryWrite) : Routine Interface.none (Bool × DeflateStream κ MemoryStream) :=
  (match w with
    | .bytes src => (ByteStream.writeAll d src).bind fun (_, d') => .done d'
    | .flush => d.flush.bind fun (_, d') => .done d').bind fun d' =>
    .done (decide (d.inner.sink.length < d'.inner.sink.length), d')

end DeflateStream

namespace MemoryStream

/- More rounds than any list of reads takes. -/
def budget : Nat :=
  1000000000000

/-
  Do reads from compressed data in memory; the memory is
  returned as it is afterwards.
-/
def inflate
    (κ : Codec)
    (m : MemoryStream)
    (reads : List MemoryRead) : Option (List (Except IoError Bytes) × MemoryStream) :=
  let d : DeflateStream κ MemoryStream := .new m 0
  ((Routine.forEach DeflateStream.takeRead d reads).eval budget).map fun (rs, d) => (rs, d.inner)

/-
  Do writes that compress into empty memory; what reached it is
  returned.
-/
def deflate
    (κ : Codec)
    (level : Nat)
    (writes : List MemoryWrite) : Option (List Bool × Bytes) :=
  let d : DeflateStream κ MemoryStream := .new { source := [] } level
  ((Routine.forEach DeflateStream.takeWrite d writes).eval budget).map fun (rs, d) =>
    (rs, d.inner.sink)

end MemoryStream

end Parley
