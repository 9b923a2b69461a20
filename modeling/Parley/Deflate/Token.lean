import Parley.Bytes
/-
  This file gives the tokens that compressed data is made of,
  what they mean for the data decoded so far, and the tables
  by which lengths and distances are written.

  Key definitions include:
    * `Token`
    * `lookBack`
    * `extend`
    * `lengthTable`
    * `distanceTable`
    * `slotOf`
-/

namespace Parley.Deflate

------------------------------------------------------------
-- Tokens and their meaning
------------------------------------------------------------

/-
  A byte as it is, or a run of `length` bytes that already stood
  `distance` bytes before.
-/
inductive Token where
  | literal (b : UInt8)
  | copy (length distance : Nat)
deriving DecidableEq, Repr

/-
  How far back a copy can reach, and the step in which decoded
  data is handed out.
-/
def windowSize : Nat :=
  32768

/- The longest copy. -/
def longestCopy : Nat :=
  258

/- The shortest copy. -/
def shortestCopy : Nat :=
  3

/-
  The byte that stands `distance` bytes before the end of the
  data. The window starts out filled with zeros, so a distance
  that reaches before the first byte finds a zero.
-/
def lookBack
    (data : Array UInt8)
    (distance : Nat) : UInt8 :=
  if distance ≤ data.size then data.getD (data.size - distance) 0 else 0

/-
  Append `length` bytes, each the one that stands `distance`
  bytes before it.
-/
def copyOnto
    (data : Array UInt8)
    (distance : Nat) : Nat → Array UInt8
  | 0 => data
  | length + 1 => copyOnto (data.push (lookBack data distance)) distance length

/- The data after one more token. -/
def extend
    (data : Array UInt8) : Token → Array UInt8
  | .literal b => data.push b
  | .copy length distance => copyOnto data distance length

------------------------------------------------------------
-- The tables of lengths and distances
------------------------------------------------------------

/-
  A row of a table: the smallest value of the row, and how many
  bits choose within it.
-/
structure Slot where
  base : Nat
  extraBits : Nat
deriving DecidableEq, Repr

/- The length codes, from code 257 on. -/
def lengthTable : List Slot :=
  [⟨3, 0⟩, ⟨4, 0⟩, ⟨5, 0⟩, ⟨6, 0⟩, ⟨7, 0⟩, ⟨8, 0⟩, ⟨9, 0⟩, ⟨10, 0⟩,
   ⟨11, 1⟩, ⟨13, 1⟩, ⟨15, 1⟩, ⟨17, 1⟩, ⟨19, 2⟩, ⟨23, 2⟩, ⟨27, 2⟩, ⟨31, 2⟩,
   ⟨35, 3⟩, ⟨43, 3⟩, ⟨51, 3⟩, ⟨59, 3⟩, ⟨67, 4⟩, ⟨83, 4⟩, ⟨99, 4⟩, ⟨115, 4⟩,
   ⟨131, 5⟩, ⟨163, 5⟩, ⟨195, 5⟩, ⟨227, 5⟩, ⟨258, 0⟩]

/- The distance codes. -/
def distanceTable : List Slot :=
  [⟨1, 0⟩, ⟨2, 0⟩, ⟨3, 0⟩, ⟨4, 0⟩, ⟨5, 1⟩, ⟨7, 1⟩, ⟨9, 2⟩, ⟨13, 2⟩,
   ⟨17, 3⟩, ⟨25, 3⟩, ⟨33, 4⟩, ⟨49, 4⟩, ⟨65, 5⟩, ⟨97, 5⟩, ⟨129, 6⟩, ⟨193, 6⟩,
   ⟨257, 7⟩, ⟨385, 7⟩, ⟨513, 8⟩, ⟨769, 8⟩, ⟨1025, 9⟩, ⟨1537, 9⟩, ⟨2049, 10⟩, ⟨3073, 10⟩,
   ⟨4097, 11⟩, ⟨6145, 11⟩, ⟨8193, 12⟩, ⟨12289, 12⟩, ⟨16385, 13⟩, ⟨24577, 13⟩]

/-
  The last row whose base is not above the value, with its place
  in the table.
-/
def slotOf
    (table : List Slot)
    (value : Nat) : Nat × Slot :=
  (table.zipIdx.filter fun row => row.1.base ≤ value).getLast?.elim (0, ⟨value, 0⟩)
    fun row => (row.2, row.1)

end Parley.Deflate
