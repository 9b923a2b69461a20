import Parley.Deflate.Huffman
import Parley.Deflate.Token
/-
  This file writes tokens as blocks of compressed data: in the
  fixed codes, in codes made for the block, or as stored bytes,
  whichever fits.

  Key definitions include:
    * `Block`
    * `Codebook`
    * `Codebook.fixed`
    * `Codebook.forTokens`
    * `LengthRun`
    * `LengthRun.ofLengths`
    * `Block.bits`
    * `syncTail`
-/

namespace Parley.Deflate

------------------------------------------------------------
-- Blocks
------------------------------------------------------------

/-
  What one block holds: its tokens, the bytes that they stand
  for, and whether these bytes can be stored as they are.
-/
structure Block where
  tokens : List Token
  content : Bytes
  storable : Bool
deriving DecidableEq, Repr

------------------------------------------------------------
-- Codebooks
------------------------------------------------------------

/-
  The code lengths of a block: those of literals and lengths,
  and those of distances.
-/
structure Codebook where
  symbols : Array Nat
  distances : Array Nat
deriving DecidableEq, Repr

/- The symbol that ends a block. -/
def endOfBlock : Nat :=
  256

/- The number of the first symbol that stands for a length. -/
def firstLength : Nat :=
  257

namespace Codebook

/- The codes where a block brings none of its own. -/
def fixed : Codebook where
  symbols := fixedLengths.toArray
  distances := fixedDistances.toArray

/-
  How often each symbol occurs: the count of literals and
  lengths, and that of distances.
-/
def count
    (tokens : List Token) : Array Nat × Array Nat :=
  let start : Array Nat × Array Nat :=
    ((Array.replicate 288 0).set! endOfBlock 1, Array.replicate 32 0)
  tokens.foldl (fun (symbols, distances) token =>
    match token with
    | .literal b => (symbols.modify b.toNat (· + 1), distances)
    | .copy length distance =>
      (symbols.modify (firstLength + (slotOf lengthTable length).1) (· + 1),
        distances.modify (slotOf distanceTable distance).1 (· + 1))) start

/- Codes made for tokens. -/
def forTokens
    (tokens : List Token) : Codebook :=
  let (symbols, distances) := count tokens
  ⟨lengthsOf symbols longestCode, lengthsOf distances longestCode⟩

/- The code of every symbol, found under its number. -/
def codeTable
    (lengths : Array Nat) : Array (List Bool) :=
  (canonicalCodes lengths.toList).foldl (fun table (symbol, code) =>
    table.setIfInBounds symbol code) (lengths.map fun _ => [])

/-
  The bits of a token, given the codes of symbols and of
  distances.
-/
def tokenBits
    (symbols distances : Array (List Bool)) : Token → List Bool
  | .literal b => symbols.getD b.toNat []
  | .copy length distance =>
    let (n, row) := slotOf lengthTable length
    let (m, col) := slotOf distanceTable distance
    symbols.getD (firstLength + n) [] ++ bitsLowFirst (length - row.base) row.extraBits ++
      distances.getD m [] ++ bitsLowFirst (distance - col.base) col.extraBits

/- The bits of tokens and of the end of their block. -/
def tokensBits
    (c : Codebook)
    (tokens : List Token) : List Bool :=
  let symbols := codeTable c.symbols
  let distances := codeTable c.distances
  tokens.flatMap (tokenBits symbols distances) ++ symbols.getD endOfBlock []

end Codebook

------------------------------------------------------------
-- Code lengths in short
------------------------------------------------------------

/-
  Part of a list of code lengths: one length, or a run of the
  one before or of zeros.
-/
structure LengthRun where
  symbol : Nat
  extra : List Bool := []
deriving DecidableEq, Repr

namespace LengthRun

/- A single length. -/
def single
    (length : Nat) : LengthRun :=
  { symbol := length }

/- So many zeros; few of them are written one by one. -/
def zeros
    (n : Nat) : List LengthRun :=
  if n < 3 then List.replicate n (single 0)
  else if n ≤ 10 then [⟨17, bitsLowFirst (n - 3) 3⟩]
  else [⟨18, bitsLowFirst (n - 11) 7⟩]

/-
  So many repetitions of the length before; few of them are
  written one by one.
-/
def repeats
    (length n : Nat) : List LengthRun :=
  if n < 3 then List.replicate n (single length) else [⟨16, bitsLowFirst (n - 3) 2⟩]

/- The most zeros in one run. -/
def mostZeros : Nat :=
  138

/- The most repetitions in one run. -/
def mostRepeats : Nat :=
  6

/-
  What was not written yet: so many zeros, or so many
  repetitions of a length.
-/
inductive Open where
  | zeros (n : Nat)
  | repeats (length n : Nat)
deriving DecidableEq, Repr

/- Write what was not written yet. -/
def Open.close : Open → List LengthRun
  | zeros n => LengthRun.zeros n
  | repeats length n => LengthRun.repeats length n

/-
  The runs of a list of lengths, given what was not written yet
  of the lengths before.
-/
def ofLengthsFrom : Open → List Nat → List LengthRun
  | run, [] => run.close
  | .zeros n, 0 :: rest =>
    if n + 1 = mostZeros then LengthRun.zeros mostZeros ++ ofLengthsFrom (.zeros 0) rest
    else ofLengthsFrom (.zeros (n + 1)) rest
  | .repeats length n, 0 :: rest =>
    LengthRun.repeats length n ++ ofLengthsFrom (.zeros 1) rest
  | .zeros n, length :: rest =>
    LengthRun.zeros n ++ single length :: ofLengthsFrom (.repeats length 0) rest
  | .repeats before n, length :: rest =>
    if length = before then
      if n + 1 = mostRepeats then
        LengthRun.repeats before mostRepeats ++ ofLengthsFrom (.repeats before 0) rest
      else ofLengthsFrom (.repeats before (n + 1)) rest
    else
      LengthRun.repeats before n ++ single length :: ofLengthsFrom (.repeats length 0) rest

/- The runs of a list of lengths. -/
def ofLengths
    (lengths : List Nat) : List LengthRun :=
  ofLengthsFrom (.zeros 0) lengths

end LengthRun

------------------------------------------------------------
-- Heads of blocks
------------------------------------------------------------

/-
  The head of a block that is not the last, of the given kind.
-/
def blockHead
    (kind : Nat) : List Bool :=
  false :: bitsLowFirst kind 2

/-
  The order in which the lengths of the codes for lengths are
  written.
-/
def lengthOrder : List Nat :=
  [16, 17, 18, 0, 8, 7, 9, 6, 10, 5, 11, 4, 12, 3, 13, 2, 14, 1, 15]

/- The longest code for a length. -/
def longestLengthCode : Nat :=
  7

/-
  The lengths without the zeros at the end, but `least` of them
  in any case.
-/
def trimmed
    (lengths : List Nat)
    (least : Nat) : List Nat :=
  lengths.take (max least (lengths.reverse.dropWhile (· == 0)).length)

/- The codes of a block, written before its tokens. -/
def Codebook.bits
    (c : Codebook) : List Bool :=
  let symbols := trimmed (c.symbols.toList.take 286) 257
  let distances := trimmed (c.distances.toList.take 30) 1
  let runs := LengthRun.ofLengths (symbols ++ distances)
  let counts := runs.foldl (fun (counts : Array Nat) run => counts.modify run.symbol (· + 1))
    (Array.replicate 19 0)
  let lengths := lengthsOf counts longestLengthCode
  let codes := Codebook.codeTable lengths
  let written := trimmed (lengthOrder.map fun i => lengths.getD i 0) 4
  bitsLowFirst (symbols.length - 257) 5 ++ bitsLowFirst (distances.length - 1) 5 ++
    bitsLowFirst (written.length - 4) 4 ++ written.flatMap (bitsLowFirst · 3) ++
    runs.flatMap fun run => codes.getD run.symbol [] ++ run.extra

------------------------------------------------------------
-- Writing blocks
------------------------------------------------------------

namespace Block

/- A block in the fixed codes. -/
def fixedBits
    (b : Block) : List Bool :=
  blockHead 1 ++ Codebook.fixed.tokensBits b.tokens

/- A block in codes of its own. -/
def ownBits
    (b : Block) : List Bool :=
  let c := Codebook.forTokens b.tokens
  blockHead 2 ++ c.bits ++ c.tokensBits b.tokens

/- A block of stored bytes, written after so many bits. -/
def storedBits
    (b : Block)
    (before : Nat) : List Bool :=
  let head := blockHead 0
  let size := b.content.length
  head ++ padding (before + head.length) ++ bitsLowFirst size 16 ++
    bitsLowFirst (65535 - size) 16 ++ b.content.flatMap fun byte => bitsLowFirst byte.toNat 8

/- Blocks of fewer bytes are not worth codes of their own. -/
def leastOwn : Nat :=
  48

/- Blocks of as many bytes are not worth storing. -/
def mostUnstored : Nat :=
  32

/-
  The bits of a block that is written after so many bits. A
  block that would not become shorter is stored.
-/
def bits
    (b : Block)
    (before : Nat) : List Bool :=
  let size := b.content.length
  let coded := if size < leastOwn then b.fixedBits else b.ownBits
  let used := (before + coded.length) / 8 - (before + 1) / 8
  if mostUnstored < size ∧ size ≤ used + 1 ∧ b.storable then b.storedBits before else coded

end Block

/-
  What follows the head of an empty stored block: no bytes, and
  that once more inverted.
-/
def syncTail : Bytes :=
  [0x00, 0x00, 0xFF, 0xFF]

end Parley.Deflate
