import Parley.Codec
import Parley.Deflate.Inflater
import Parley.Deflate.Deflater
/-
  This file gives the codec of raw DEFLATE data.

  Key definitions include:
    * `Inflater.windows`
    * `Inflater.decode`
    * `rawDeflate`
-/

namespace Parley

namespace Deflate.Inflater

/- Whether everything was decoded and handed out. -/
def isFinished
    (d : Inflater) : Bool :=
  d.phase == .finished && d.token.isNone && d.ready == 0

/-
  Fill windows and hand them out until the input or the room is
  used up, or the data ends. Data that turns out corrupt makes
  the call fail with everything it has decoded.
-/
def windows
    (d : Inflater)
    (input : Bytes)
    (room : Nat) : Decoding Inflater :=
  let (filled, rest) := d.fill input
  let consumed := input.length - rest.length
  if filled.phase = .corrupt then ⟨filled, consumed, [], .corrupt⟩
  else
    let (out, d) := filled.handOut room
    if h : d.isFinished ∨ rest = [] ∨ d.ready ≠ 0 ∨ out = [] ∨ room ≤ out.length then
      ⟨d, consumed, out, if d.isFinished then .finished else .more⟩
    else
      have hLess : room - out.length < room := by
        have hout : 0 < out.length := List.length_pos_iff.2 fun e =>
          h (.inr (.inr (.inr (.inl e))))
        omega
      let next := windows d rest (room - out.length)
      { next with consumed := consumed + next.consumed, produced := out ++ next.produced }
termination_by room
decreasing_by exact hLess

/-
  One call of the decoder: what is decoded already comes first,
  and alone.
-/
def decode
    (d : Inflater)
    (input : Bytes)
    (room : Nat) : Decoding Inflater :=
  if d.phase = .corrupt then ⟨d, 0, [], .corrupt⟩
  else if d.ready ≠ 0 then
    let (out, d) := d.handOut room
    ⟨d, 0, out, if d.isFinished then .finished else .more⟩
  else d.windows input room

end Deflate.Inflater

/-
  The codec of raw DEFLATE data, without any header or checksum.
-/
def rawDeflate : Codec where
  Compressor := Deflate.Deflater
  Decoder := Deflate.Inflater
  compressor := Deflate.Deflater.new
  decoder := Deflate.Inflater.new
  compress := Deflate.Deflater.compress
  decode := Deflate.Inflater.decode

end Parley
