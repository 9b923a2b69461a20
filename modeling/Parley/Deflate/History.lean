import Parley.Bytes
import Parley.Deflate.Token
/-
  This file gives the history that an encoder looks back on:
  all bytes that it was given, with chains of positions at
  which three bytes of the same key begin, and the search along
  these chains for the longest copy.

  Key definitions include:
    * `History`
    * `History.append`
    * `History.commonRun`
    * `Match`
    * `History.hop`
    * `History.search`
-/

namespace Parley.Deflate

------------------------------------------------------------
-- The history
------------------------------------------------------------

/-
  All bytes so far; for each position the one before it on its
  chain; and for each key the last position on its chain.
  Position `0` stands for none.
-/
structure History where
  data : Array UInt8
  links : Array Nat
  heads : Array Nat

namespace History

/- How many keys there are. -/
def keys : Nat :=
  32768

/- Before the first byte. -/
def empty : History where
  data := #[]
  links := #[]
  heads := Array.replicate keys 0

/- The byte at a position. -/
def byte
    (h : History)
    (i : Nat) : UInt8 :=
  h.data.getD i 0

/- The key of the three bytes at a position. -/
def key
    (h : History)
    (i : Nat) : Nat :=
  (((h.byte i).toNat <<< 10) ^^^ ((h.byte (i + 1)).toNat <<< 5) ^^^ (h.byte (i + 2)).toNat) % keys

/-
  Add the next position to the chain of its key, if its three
  bytes are there.
-/
def link
    (h : History) : History :=
  let i := h.links.size
  if i + 2 < h.data.size then
    let key := h.key i
    { h with
      links := h.links.push (h.heads.getD key 0)
      heads := h.heads.setIfInBounds key i }
  else h

/- Add a byte. -/
def push
    (h : History)
    (b : UInt8) : History :=
  link { h with data := h.data.push b }

/- Add bytes. -/
def append
    (h : History)
    (src : Bytes) : History :=
  src.foldl push h

------------------------------------------------------------
-- Searching
------------------------------------------------------------

/-
  How many bytes from `i` on are the same as those from `j` on,
  `most` at most.
-/
def commonRun
    (h : History)
    (i j : Nat) : Nat → Nat
  | 0 => 0
  | most + 1 => if h.byte i = h.byte j then commonRun h (i + 1) (j + 1) most + 1 else 0

end History

/-
  A copy that could be made: how long it is, and from how far
  back.
-/
structure Match where
  length : Nat
  distance : Nat
deriving DecidableEq, Repr

namespace History

/- Positions are told apart up to multiples of this. -/
def positionCycle : Nat :=
  65536

/-
  Where a few steps along a chain lead: nowhere, to a position
  worth comparing, or just on.
-/
inductive Hop where
  | stop
  | found (i : Nat)
  | onward (i : Nat)
deriving DecidableEq, Repr

/-
  Follow the chain of `pos` from `i`, so many steps at most, to
  a position within `reach` at which a copy of more than
  `length` bytes could begin.
-/
def hop
    (h : History)
    (pos reach length : Nat) : Nat → Nat → Hop
  | 0, i => .onward i
  | steps + 1, i =>
    let j := h.links.getD i 0
    let distance := (pos - j) % positionCycle
    if j % positionCycle = 0 ∨ reach < distance ∨ distance = 0 then .stop
    else
      let j := pos - distance
      if h.byte (j + length) = h.byte (pos + length) ∧
          h.byte (j + length - 1) = h.byte (pos + length - 1) then .found j
      else hop h pos reach length steps j

/- Steps along a chain that count as one probe. -/
def stepsPerProbe : Nat :=
  3

/-
  The longest copy at `pos` that is found with so many probes,
  if it is longer than `best`. It is not longer than `most`, and
  not from further back than `reach`.
-/
def searchFrom
    (h : History)
    (pos reach most : Nat) : Nat → Nat → Match → Match
  | 0, _, best => best
  | probes + 1, i, best =>
    match h.hop pos reach best.length stepsPerProbe i with
    | .stop => best
    | .onward i => searchFrom h pos reach most probes i best
    | .found i =>
      let run := h.commonRun i pos most
      if run ≤ best.length then searchFrom h pos reach most probes i best
      else if run = most then ⟨run, pos - i⟩
      else searchFrom h pos reach most probes i ⟨run, pos - i⟩

/-
  The longest copy at `pos`, searched for only if one longer
  than `best` could be there.
-/
def search
    (h : History)
    (pos reach most probes : Nat)
    (best : Match) : Match :=
  if most ≤ best.length then best else h.searchFrom pos reach most probes pos best

end History

end Parley.Deflate
