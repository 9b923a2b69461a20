import Parley.Codec
import Parley.Deflate.Tokenizer
/-
  This file gives the encoder of compressed data. It takes
  bytes and gives blocks as they become complete; a flush
  completes the last one and adds an empty block by which the
  far end knows that it has everything. What there is no room
  for is held until the next call, and a call that cannot give
  all of a block goes no further.

  Key definitions include:
    * `Deflater`
    * `Deflater.new`
    * `Deflater.write`
    * `Deflater.advance`
    * `Deflater.encode`
    * `Deflater.compress`
-/

namespace Parley.Deflate

/-
  The encoder: everything it was given so far, how far it is cut
  into tokens, the bits at the end that do not fill a byte yet,
  and the bytes for which there was no room yet.
-/
structure Deflater where
  history : History
  tokenizer : Tokenizer
  bits : List Bool
  held : Bytes

namespace Deflater

/- An encoder before the first byte. -/
def new
    (level : Nat) : Deflater where
  history := .empty
  tokenizer := .ofLevel level
  bits := []
  held := []

/- Take bytes. -/
def write
    (e : Deflater)
    (src : Bytes) : Deflater :=
  { e with history := e.history.append src }

/-
  How many bytes have been taken and not been cut into tokens.
-/
def left
    (e : Deflater) : Nat :=
  e.history.data.size - e.tokenizer.cursor.pos

/-
  Cut tokens until a block is complete; a flush cuts whatever is
  left.
-/
def fill
    (e : Deflater)
    (flush : Flush) : Deflater :=
  let least := match flush with
    | .none => e.tokenizer.method.foresight
    | .sync => 1
  { e with tokenizer := e.tokenizer.fill e.history least e.left }

/-
  The bits of the block in the making, written behind those that
  are there. Where nothing is copied, it is stored.
-/
def block
    (e : Deflater) : List Bool :=
  let b := e.tokenizer.draft.block e.history e.tokenizer.cursor.pos e.tokenizer.cursor.reach
  match e.tokenizer.method with
  | .stored => b.storedBits e.bits.length
  | _ => b.bits e.bits.length

/-
  End the block in the making, and give all bytes that are
  whole.
-/
def endBlock
    (e : Deflater) : Deflater × Bytes :=
  let (bytes, bits) := packWhole (e.bits ++ e.block)
  ({ e with tokenizer := e.tokenizer.next, bits := bits }, bytes)

/-
  End the block in the making unless it is empty, and give all
  bytes up to a boundary that the far end recognises.
-/
def endAll
    (e : Deflater) : Deflater × Bytes :=
  let last := if e.tokenizer.draft.size = 0 then [] else e.block
  ({ e with tokenizer := e.tokenizer.next, bits := [] },
    packBits (e.bits ++ last ++ blockHead 0) ++ syncTail)

/- Give bytes as far as there is room, and hold the rest. -/
def give
    (e : Deflater)
    (bytes : Bytes)
    (room : Nat) : Deflater × Bytes :=
  ({ e with held := bytes.drop room }, bytes.take room)

/-
  Encode block after block, so many at most. The first block
  that does not fit ends the call, even one that was to flush;
  no round of the tokenizer outlasts a call.
-/
def advance
    (flush : Flush) : Nat → Deflater → Nat → Deflater × Bytes
  | 0, e, _ => (e, [])
  | fuel + 1, e, room =>
    let e := e.fill flush
    if e.tokenizer.isComplete then
      let (e, bytes) := e.endBlock
      if room < bytes.length then { e with tokenizer := e.tokenizer.endRound }.give bytes room
      else
        let (e, more) := advance flush fuel e (room - bytes.length)
        (e, bytes ++ more)
    else
      match flush with
      | .none => (e, [])
      | .sync =>
        let (e, bytes) := e.endAll
        e.give bytes room

/-
  One call of the encoder. What is held comes first; a flush
  that finds any gives nothing else. Since every block takes a
  byte at least, there are not more blocks than bytes left.
-/
def encode
    (e : Deflater)
    (flush : Flush)
    (room : Nat) : Deflater × Bytes :=
  if e.held = [] then advance flush (e.left + 1) e room
  else
    let (e, out) := e.give e.held room
    if flush = .sync ∨ e.held ≠ [] ∨ room ≤ out.length then (e, out)
    else
      let (e, more) := advance flush (e.left + 1) e (room - out.length)
      (e, out ++ more)

/-
  One call with bytes to take in. A call without room does
  nothing; any other takes all bytes at once.
-/
def compress
    (e : Deflater)
    (src : Bytes)
    (flush : Flush)
    (room : Nat) : Encoding Deflater :=
  if room = 0 then ⟨e, 0, [], true⟩
  else
    let (e, out) := (e.write src).encode flush room
    ⟨e, src.length, out, false⟩

end Deflater

end Parley.Deflate
