import Parley.Stream
import Parley.Codec
/-
  This file gives a byte stream that is compressed on top of
  another byte stream.

  Writing only feeds the encoder and keeps what it gives; a
  flush asks the encoder for the rest and sends it all. Reading
  asks the stream below only when the decoder can produce
  nothing from what it has.

  Key definitions include:
    * `DeflateStream`
    * `DeflateStream.new`
    * `DeflateStream.produce`
    * `DeflateStream.write`
    * `DeflateStream.flush`
    * `DeflateStream.read`

  Key theorems include:
    * `DeflateStream.reserve_eq`
-/

universe u

namespace Parley

------------------------------------------------------------
-- The stream
------------------------------------------------------------

/-
  A compressed stream: the stream below, the two directions of
  the codec, the bytes taken from below and not yet decoded, the
  encoded bytes not yet sent, and how many of these there is
  space for.
-/
structure DeflateStream (κ : Codec) (τ : Type) where
  inner : τ
  encoder : κ.Encoder
  decoder : κ.Decoder
  input : Bytes
  output : Bytes
  capacity : Nat

namespace DeflateStream

variable {I : Interface.{u}} {κ : Codec} {τ : Type}

/- How many bytes are taken from below at a time. -/
def chunkSize : Nat :=
  4096

/- A compressed stream on top of `inner`. -/
def new
    (inner : τ)
    (level : Nat) : DeflateStream κ τ where
  inner := inner
  encoder := κ.encoder level
  decoder := κ.decoder
  input := []
  output := []
  capacity := chunkSize

/-
  Let the space for encoded bytes grow if there is not room for
  a chunk; it doubles at least.
-/
def reserve
    (d : DeflateStream κ τ) : DeflateStream κ τ :=
  if d.capacity - d.output.length < chunkSize then
    { d with capacity := max (2 * d.capacity) (d.output.length + chunkSize) }
  else d

/- Making space changes nothing but how much space there is. -/
theorem reserve_eq
    (d : DeflateStream κ τ) :
    ∃ capacity,
      d.reserve = { d with capacity := capacity } ∧
        chunkSize ≤ capacity - d.output.length := by
  unfold reserve
  split
  · refine ⟨_, rfl, ?_⟩
    omega
  · next hRoom => exact ⟨d.capacity, rfl, Nat.le_of_not_lt hRoom⟩

/-
  Call the encoder until it has taken everything in and leaves
  some of the room that it is given, or can do nothing more.
-/
def produce
    (d : DeflateStream κ τ)
    (flush : Flush) : Routine I (DeflateStream κ τ) :=
  .iterate d fun d =>
    let d := d.reserve
    let room := d.capacity - d.output.length
    let next := κ.call d.encoder flush room
    let d :=
      { d with encoder := next.encoder, output := d.output ++ next.produced }
    .done
      (if (next.encoder.waiting = [] ∧ next.produced.length < room) ∨ next.stuck then .inr d
        else .inl d)

/-
  Feed the encoder. Nothing is sent, and everything is taken.
-/
def write
    (d : DeflateStream κ τ)
    (src : Bytes) : Routine I (Except IoError Nat × DeflateStream κ τ) :=
  (produce { d with encoder := κ.write d.encoder src } .none).bind fun d =>
    .done (.ok src.length, d)

variable [ByteStream I τ]

/-
  Send everything written so far. What could not be sent is
  kept, all of it.
-/
def flush
    (d : DeflateStream κ τ) : Routine I (Except IoError Unit × DeflateStream κ τ) :=
  (d.produce .sync).bind fun d =>
    (if d.output = [] then .done (.ok (), d.inner)
      else ByteStream.writeAll d.inner d.output).bind fun
      | (.error e, inner) => .done (.error e, { d with inner := inner })
      | (.ok (), inner) =>
        (ByteStream.flush inner).bind fun (r, inner) =>
          .done (r, { d with inner := inner, output := [] })

/-
  Read decoded bytes, `room` of them at most. No bytes means
  that the compressed data or the stream below has ended.
-/
def read
    (d : DeflateStream κ τ)
    (room : Nat) : Routine I (Except IoError Bytes × DeflateStream κ τ) :=
  if room = 0 then .done (.ok [], d)
  else
    .iterate d fun d =>
      let next := κ.decode d.decoder d.input room
      match next.status with
      | .corrupt => .done (.inr (.error (.inflate .corrupt), { d with decoder := next.decoder }))
      | status =>
        let d := { d with decoder := next.decoder, input := d.input.drop next.consumed }
        if next.produced ≠ [] then .done (.inr (.ok next.produced, d))
        else if status = .finished then .done (.inr (.ok [], d))
        else if d.input ≠ [] then
          if next.consumed = 0 then .done (.inr (.error (.inflate .stalled), d))
          else .done (.inl d)
        else
          (ByteStream.read d.inner chunkSize).bind fun
            | (.error e, inner) => .done (.inr (.error e, { d with inner := inner }))
            | (.ok [], inner) => .done (.inr (.ok [], { d with inner := inner }))
            | (.ok more, inner) => .done (.inl { d with inner := inner, input := more })

instance : ByteStream I (DeflateStream κ τ) where
  read := read
  write := write
  flush := flush

end DeflateStream

end Parley
