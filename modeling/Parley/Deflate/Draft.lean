import Parley.Deflate.Block
import Parley.Deflate.History
/-
  This file gives a block in the making, with what decides when
  it has become long enough, and the place at which an encoder
  stands in its history.

  Key definitions include:
    * `Draft`
    * `Draft.isFull`
    * `Draft.isPlain`
    * `Draft.block`
    * `Cursor`
-/

namespace Parley.Deflate

------------------------------------------------------------
-- Blocks in the making
------------------------------------------------------------

/-
  A block in the making: its tokens, the last first, where it
  begins, and what they amount to.
-/
structure Draft where
  start : Nat
  tokens : List Token := []
  count : Nat := 0
  copies : Nat := 0
  size : Nat := 0

/- How many bytes a token stands for. -/
def Token.size : Token → Nat
  | .literal _ => 1
  | .copy length _ => length

namespace Draft

/- Add a token. -/
def add
    (d : Draft)
    (t : Token) : Draft :=
  { d with
    tokens := t :: d.tokens
    count := d.count + 1
    copies := d.copies + (match t with
      | .literal _ => 0
      | .copy _ _ => 1)
    size := d.size + t.size }

/- Add a byte of which no token is kept. -/
def lengthen
    (d : Draft) : Draft :=
  { d with size := d.size + 1 }

/-
  What the tokens take up in a store with one byte for a
  literal, three for a copy, and a bit.
-/
def bulk
    (d : Draft) : Nat :=
  1 + d.count + 2 * d.copies + d.count / 8

/- The store for tokens is full. -/
def isFull
    (d : Draft) : Bool :=
  decide (65536 - 8 < d.bulk)

/-
  Blocks that do not get shorter, or are only stored, end here.
-/
def longestPlain : Nat :=
  31744

/- The block has become long without much to copy. -/
def isPlain
    (d : Draft) : Bool :=
  decide (longestPlain < d.size ∧ d.size ≤ d.bulk * 115 / 128)

/-
  The block, where the bytes of it and after it reach back to
  `pos` from within `reach`.
-/
def block
    (d : Draft)
    (h : History)
    (pos reach : Nat) : Block where
  tokens := d.tokens.reverse
  content := (h.data.extract d.start (d.start + d.size)).toList
  storable := decide (pos - d.start ≤ reach)

/- The next block. -/
def next
    (d : Draft) : Draft :=
  { start := d.start + d.size }

end Draft

------------------------------------------------------------
-- Cursors
------------------------------------------------------------

/-
  Where an encoder stands in its history, and from how far back
  it may copy.
-/
structure Cursor where
  pos : Nat := 0
  reach : Nat := 0
deriving DecidableEq, Repr

namespace Cursor

/-
  Leave room in the window for bytes that are looked at before
  they are encoded.
-/
def makeRoom
    (c : Cursor)
    (ahead : Nat) : Cursor :=
  { c with reach := min (windowSize - ahead) c.reach }

/- Go on by some bytes, which can be copied from then on. -/
def advance
    (c : Cursor)
    (n : Nat) : Cursor :=
  { c with pos := c.pos + n, reach := min windowSize (c.reach + n) }

end Cursor

end Parley.Deflate
