import Parley.Bytes
/-
  This file gives what a compressed stream needs of its codec:
  a compressor that is offered bytes and asked for encoded
  ones, and a decoder that is given encoded bytes and asked for
  decoded ones. Either is told how much room there is, and need
  not use all that it is given in one call.

  Key definitions include:
    * `Flush`
    * `Encoding`
    * `DecodeStatus`
    * `Decoding`
    * `Codec`
    * `Codec.Encoder`
    * `Codec.call`
-/

namespace Parley

------------------------------------------------------------
-- Calls and their answers
------------------------------------------------------------

/-
  What an encoder is asked for: whatever it has to give, or
  everything that is needed to decode what was written.
-/
inductive Flush where
  | none
  | sync
deriving DecidableEq, Repr

/-
  What one call of a compressor gives: how many bytes it took
  in, what it produced, and whether there was nothing that it
  could do.
-/
structure Encoding (ε : Type) where
  encoder : ε
  consumed : Nat
  produced : Bytes
  stuck : Bool

/- Whether a decoder can go on after a call. -/
inductive DecodeStatus where
  | more
  | finished
  | corrupt
deriving DecidableEq, Repr

/-
  What one call of a decoder gives: how many bytes it used, and
  what it produced from them.
-/
structure Decoding (δ : Type) where
  decoder : δ
  consumed : Nat
  produced : Bytes
  status : DecodeStatus

------------------------------------------------------------
-- Codecs
------------------------------------------------------------

/-
  A pair of a compressor and a decoder. A compressor is made for
  a level of effort, and is given bytes, what it is asked for,
  and room. A decoder is given bytes and room.
-/
structure Codec where
  Compressor : Type
  Decoder : Type
  compressor : Nat → Compressor
  decoder : Decoder
  compress :
    Compressor → Bytes → Flush → Nat → Encoding Compressor
  decode : Decoder → Bytes → Nat → Decoding Decoder

namespace Codec

/-
  An encoder: a compressor, and the bytes handed over that it
  has not taken in yet.
-/
structure Encoder (κ : Codec) where
  compressor : κ.Compressor
  waiting : Bytes

/- An encoder before the first byte. -/
def encoder
    (κ : Codec)
    (level : Nat) : κ.Encoder where
  compressor := κ.compressor level
  waiting := []

/- Hand bytes over. -/
def write
    (κ : Codec)
    (e : κ.Encoder)
    (src : Bytes) : κ.Encoder :=
  { e with waiting := e.waiting ++ src }

/- One call of the compressor, with all that waits for it. -/
def call
    (κ : Codec)
    (e : κ.Encoder)
    (flush : Flush)
    (room : Nat) : Encoding κ.Encoder :=
  let next := κ.compress e.compressor e.waiting flush room
  { next with
    encoder := ⟨next.encoder, e.waiting.drop next.consumed⟩ }

/- The encoder after a call, and the bytes that the call gave. -/
def encode
    (κ : Codec)
    (e : κ.Encoder)
    (flush : Flush)
    (room : Nat) : κ.Encoder × Bytes :=
  ((κ.call e flush room).encoder, (κ.call e flush room).produced)

end Codec

end Parley
