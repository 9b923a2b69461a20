import Parley.Conversation.Play
import Parley.Deflate.Stream
/-
  This file gives conversations between two compressed streams
  over one pipe.

  Key definitions include:
    * `CompressedStep`
    * `CompressedEnds`
    * `CompressedEnds.turn`
    * `Pipe.converseCompressed`
-/

namespace Parley

variable {κ : Codec}

/-
  A step on a compressed stream, or on the endpoint below it.
-/
inductive CompressedStep where
  | write (src : Bytes)
  | flush
  | read (room : Nat)
  | readExact (n : Nat)
  | endpoint (step : EndpointStep)
deriving DecidableEq, Repr

namespace DeflateStream

/- Take a step. -/
def take
    (d : DeflateStream κ Endpoint) :
    CompressedStep → Routine endpointInterface (Reply × DeflateStream κ Endpoint)
  | .write src => (ByteStream.writeAll d src).bind fun (r, d) => .done (.ofIo .done r, d)
  | .flush => d.flush.bind fun (r, d) => .done (.ofIo .done r, d)
  | .read room => (d.read room).bind fun (r, d) => .done (.ofIo .data r, d)
  | .readExact n => (ByteStream.readExact d n).bind fun (r, d) => .done (.ofIo .data r, d)
  | .endpoint step => step.take.bind fun r => .done (r, d)

end DeflateStream

/- The compressed streams at both sides. -/
abbrev CompressedEnds (κ : Codec) :=
  Two (DeflateStream κ Endpoint)

/- Take a step at one side. -/
def CompressedEnds.turn
    (ends : CompressedEnds κ)
    (turn : Side × CompressedStep) : MainRoutine Unit (Entry × CompressedEnds κ) :=
  (MainRoutine.atSide turn.1 ((ends.get turn.1).take turn.2)).bind fun (r, d) =>
    .done (.single r, ends.modify turn.1 fun _ => d)

/-
  Play a conversation between streams that compress at the same
  level.
-/
def Pipe.converseCompressed
    (pipe : Pipe)
    (level : Nat)
    (turns : List (Side × CompressedStep)) : Option (List (Entry × Unit)) :=
  let fresh : DeflateStream κ Endpoint := .new .held level
  World.playTurns pipe CompressedEnds.turn (fun _ => .done ()) ⟨fresh, fresh⟩ turns

end Parley
