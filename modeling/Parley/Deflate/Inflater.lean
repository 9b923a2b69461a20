import Parley.Deflate.Code
import Parley.Deflate.Token
/-
  This file gives the decoder of compressed data. It is a
  machine that takes one bit at a time, so what it has decoded
  depends on the bits taken and on nothing else.

  Decoded data is kept in windows: it is decoded up to the next
  window's end, and before that is handed out no further bit is
  taken.

  Key definitions include:
    * `Phase`
    * `Phase.bit`
    * `Inflater`
    * `Inflater.new`
    * `Inflater.take`
    * `Inflater.fill`
    * `Inflater.handOut`
-/

namespace Parley.Deflate

------------------------------------------------------------
-- Phases
------------------------------------------------------------

/- The two codes of a compressed block. -/
structure Codes where
  symbols : CodeTree
  distances : CodeTree
deriving DecidableEq, Repr

/-
  The announced sizes of the code tables of a block, and the
  lengths read so far, last first.
-/
structure Tables where
  symbolCount : Nat
  distanceCount : Nat
  lengths : List Nat
deriving DecidableEq, Repr

/- What a number of a fixed count of bits is read for. -/
inductive Field where
  | blockHead
  | storedSize
  | storedByte (left : Nat)
  | tableSizes
  | codeLength (left : Nat) (tables : Tables)
  | repeatLength (value base : Nat) (tables : Tables) (lengthTree : CodeTree)
  | lengthExtra (base : Nat) (codes : Codes)
  | distanceExtra (length base : Nat) (codes : Codes)
deriving DecidableEq, Repr

/- What a symbol is read for. -/
inductive Symbol where
  | length (tables : Tables) (lengthTree : CodeTree)
  | literal (codes : Codes)
  | distance (length : Nat) (codes : Codes)
deriving DecidableEq, Repr

/-
  Where the decoder stands between two bits: in a number (with
  the bits it still needs, the place of the next one, and the
  value so far), on a path through a code tree, before the bits
  that fill up a byte, at the end of the data, or at a point
  from which there is no way on.
-/
inductive Phase where
  | number (field : Field) (need place value : Nat)
  | path (symbol : Symbol) (tree : CodeTree)
  | padding
  | finished
  | corrupt
deriving DecidableEq, Repr

namespace Phase

/- Begin to read a number of `need` bits. -/
def expect
    (field : Field)
    (need : Nat) : Phase :=
  .number field need 0 0

/- The tree in which a symbol is looked up. -/
def treeOf : Symbol → CodeTree
  | .length _ tree => tree
  | .literal codes => codes.symbols
  | .distance _ codes => codes.distances

/- Begin to read a symbol. -/
def seek
    (symbol : Symbol) : Phase :=
  .path symbol (treeOf symbol)

/- After a block comes the next one, unless it was the last. -/
def blockEnd
    (final : Bool) : Phase :=
  if final then .finished else expect .blockHead 3

/-
  The order in which the lengths of the length codes are
  written.
-/
def lengthOrder : List Nat :=
  [16, 17, 18, 0, 8, 7, 9, 6, 10, 5, 11, 4, 12, 3, 13, 2, 14, 1, 15]

/-
  The length of each length code, by symbol, from the lengths as
  they were written.
-/
def lengthCodes
    (written : List Nat) : List Nat :=
  (List.range 19).map fun symbol =>
    ((lengthOrder.zip written).find? fun row => row.1 = symbol).elim 0 (·.2)

/-
  Go on reading the lengths of the two tables, or begin the data
  when all are there.
-/
def nextLength
    (tables : Tables)
    (lengthTree : CodeTree) : Phase :=
  let total := tables.symbolCount + tables.distanceCount
  if tables.lengths.length < total then seek (.length tables lengthTree)
  else if total < tables.lengths.length then .corrupt
  else
    let lengths := tables.lengths.reverse
    match CodeTree.ofLengths? (lengths.take tables.symbolCount) true,
      CodeTree.ofLengths? (lengths.drop tables.symbolCount) true with
    | some symbols, some distances => seek (.literal ⟨symbols, distances⟩)
    | _, _ => .corrupt

/-
  A copy of which the length is known: its distance comes next.
-/
def nextDistance
    (length : Nat)
    (codes : Codes) : Phase :=
  seek (.distance length codes)

/-
  What follows when a number is complete. `final` tells whether
  this is the last block.
-/
def complete
    (final : Bool)
    (value : Nat) : Field → Bool × Phase × Option Token
  | .blockHead =>
    let final := value % 2 = 1
    match value / 2 with
    | 0 => (final, .padding, none)
    | 1 => (final, seek (.literal ⟨fixedLengthTree, fixedDistanceTree⟩), none)
    | 2 => (final, expect .tableSizes 14, none)
    | _ => (final, .corrupt, none)
  | .storedSize =>
    let size := value % Nat.pow 2 16
    if size + value / Nat.pow 2 16 ≠ Nat.pow 2 16 - 1 then (final, .corrupt, none)
    else if size = 0 then (final, blockEnd final, none)
    else (final, expect (.storedByte size) 8, none)
  | .storedByte left =>
    let next := if left ≤ 1 then blockEnd final else expect (.storedByte (left - 1)) 8
    (final, next, some (.literal (UInt8.ofNat value)))
  | .tableSizes =>
    let symbolCount := value % 32 + 257
    let distanceCount := value / 32 % 32 + 1
    let count := value / 1024 + 4
    if 286 < symbolCount ∨ 30 < distanceCount then (final, .corrupt, none)
    else (final, expect (.codeLength count ⟨symbolCount, distanceCount, []⟩) 3, none)
  | .codeLength left tables =>
    let tables := { tables with lengths := value :: tables.lengths }
    if 1 < left then (final, expect (.codeLength (left - 1) tables) 3, none)
    else
      match CodeTree.ofLengths? (lengthCodes tables.lengths.reverse) false with
      | some tree => (final, nextLength { tables with lengths := [] } tree, none)
      | none => (final, .corrupt, none)
  | .repeatLength length base tables tree =>
    let lengths := List.replicate (base + value) length ++ tables.lengths
    (final, nextLength { tables with lengths := lengths } tree, none)
  | .lengthExtra base codes => (final, nextDistance (base + value) codes, none)
  | .distanceExtra length base codes =>
    (final, seek (.literal codes), some (.copy length (base + value)))

/- What follows when a symbol is complete. -/
def found
    (final : Bool)
    (symbol : Nat) : Symbol → Phase × Option Token
  | .length tables tree =>
    if symbol < 16 then (nextLength { tables with lengths := symbol :: tables.lengths } tree, none)
    else if symbol = 16 then
      match tables.lengths with
      | [] => (.corrupt, none)
      | last :: _ => (expect (.repeatLength last 3 tables tree) 2, none)
    else if symbol = 17 then (expect (.repeatLength 0 3 tables tree) 3, none)
    else (expect (.repeatLength 0 11 tables tree) 7, none)
  | .literal codes =>
    if symbol < 256 then (seek (.literal codes), some (.literal (UInt8.ofNat symbol)))
    else if symbol = 256 then (blockEnd final, none)
    else
      match lengthTable[symbol - 257]? with
      | none => (.corrupt, none)
      | some slot =>
        if slot.extraBits = 0 then (nextDistance slot.base codes, none)
        else (expect (.lengthExtra slot.base codes) slot.extraBits, none)
  | .distance length codes =>
    match distanceTable[symbol]? with
    | none => (.corrupt, none)
    | some slot =>
      if slot.extraBits = 0 then (seek (.literal codes), some (.copy length slot.base))
      else (expect (.distanceExtra length slot.base codes) slot.extraBits, none)

/-
  The phase after one more bit, and the token that the bit
  completed, if it did. `last` says that the bit is the last of
  its byte. A path that leads to no symbol is refused at the bit
  that leaves the tree.
-/
def bit
    (final : Bool)
    (phase : Phase)
    (b last : Bool) : Bool × Phase × Option Token :=
  match phase with
  | .number field need place value =>
    let value := if b then value + Nat.pow 2 place else value
    if place + 1 < need then (final, .number field need (place + 1) value, none)
    else
      match complete final value field with
      | (final, .padding, token) =>
        (final, if last then expect .storedSize 32 else .padding, token)
      | next => next
  | .path symbol tree =>
    match tree.child b with
    | .leaf n => (final, found final n symbol)
    | .void => (final, .corrupt, none)
    | tree => (final, .path symbol tree, none)
  | .padding => (final, if last then expect .storedSize 32 else .padding, none)
  | .finished => (final, .finished, none)
  | .corrupt => (final, .corrupt, none)

end Phase

------------------------------------------------------------
-- The decoder
------------------------------------------------------------

/-
  The decoder: its phase, the bits of the last byte that are not
  taken yet, the token that is not written out yet, all data
  decoded, and how many bytes of it have not been handed out.
-/
structure Inflater where
  phase : Phase
  final : Bool
  bits : List Bool
  token : Option Token
  data : Array UInt8
  ready : Nat
deriving Repr

namespace Inflater

/- A decoder before the first bit. -/
def new : Inflater where
  phase := Phase.expect .blockHead 3
  final := false
  bits := []
  token := none
  data := #[]
  ready := 0

/- The bits of a byte, the lowest first. -/
def bitsOf
    (b : UInt8) : List Bool :=
  (List.range 8).map fun i => b.toNat.testBit i

/-
  Whether no further bit is taken: a token waits for room, or
  the data is over.
-/
def stopped
    (d : Inflater) : Bool :=
  d.token.isSome || d.phase == .finished || d.phase == .corrupt

/- Write the waiting token out as far as the data may grow. -/
def writeToken
    (d : Inflater)
    (limit : Nat) : Inflater :=
  match d.token with
  | none => d
  | some (.literal b) =>
    if d.data.size < limit then { d with token := none, data := d.data.push b } else d
  | some (.copy length distance) =>
    let now := min length (limit - d.data.size)
    let rest := length - now
    { d with
      token := if rest = 0 then none else some (.copy rest distance)
      data := copyOnto d.data distance now }

/-
  Take bits while there are any and nothing stops the decoder;
  return what is left of them.
-/
def takeBits
    (limit : Nat)
    (d : Inflater) : List Bool → Inflater × List Bool
  | [] => (d, [])
  | b :: rest =>
    if d.stopped then (d, b :: rest)
    else
      let (final, phase, token) := d.phase.bit d.final b rest.isEmpty
      takeBits limit (writeToken { d with phase, final, token } limit) rest

/-
  Take bytes while nothing stops the decoder; return those that
  were not touched.
-/
def take
    (limit : Nat)
    (d : Inflater) : Bytes → Inflater × Bytes
  | [] => (d, [])
  | b :: rest =>
    if d.stopped then (d, b :: rest)
    else
      let (d, bits) := takeBits limit d (bitsOf b)
      let d := { d with bits := bits }
      if d.stopped then (d, rest) else take limit d rest

/-
  Decode up to the end of the current window; return the bytes
  that were not touched.
-/
def fill
    (d : Inflater)
    (input : Bytes) : Inflater × Bytes :=
  let before := d.data.size
  let limit := (before / windowSize + 1) * windowSize
  let (d, bits) := takeBits limit (d.writeToken limit) d.bits
  let (d, input) := take limit { d with bits := bits } input
  ({ d with ready := d.ready + (d.data.size - before) }, input)

/- Hand out decoded bytes, `room` of them at most. -/
def handOut
    (d : Inflater)
    (room : Nat) : Bytes × Inflater :=
  let n := min room d.ready
  let start := d.data.size - d.ready
  ((d.data.extract start (start + n)).toList, { d with ready := d.ready - n })

end Inflater

end Parley.Deflate
