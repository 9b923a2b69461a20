import Parley.Deflate.Bits
/-
  This file gives the codes by which symbols are written in
  compressed data: a binary tree of symbols, built from the
  lengths of the codes alone.

  Key definitions include:
    * `CodeTree`
    * `CodeTree.insert`
    * `canonicalCodes`
    * `CodeTree.ofLengths`
    * `CodeTree.ofLengths?`
    * `fixedLengths`
    * `fixedDistances`
-/

namespace Parley.Deflate

------------------------------------------------------------
-- Trees of codes
------------------------------------------------------------

/-
  A code is a path through the tree; a path that ends in `void`
  belongs to no symbol.
-/
inductive CodeTree where
  | void
  | leaf (symbol : Nat)
  | node (zero one : CodeTree)
deriving DecidableEq, Repr

namespace CodeTree

/- The tree below one more bit of a path. -/
def child
    (t : CodeTree)
    (bit : Bool) : CodeTree :=
  match t with
  | node zero one => if bit then one else zero
  | _ => void

/- Put a symbol at the end of a path. -/
def insert
    (symbol : Nat) : List Bool → CodeTree → CodeTree
  | [], _ => leaf symbol
  | bit :: path, t =>
    if bit then node (t.child false) (insert symbol path (t.child true))
    else node (insert symbol path (t.child false)) (t.child true)

end CodeTree

------------------------------------------------------------
-- Canonical codes
------------------------------------------------------------

/- The longest code. -/
def longestCode : Nat :=
  15

/-
  The code of every symbol that has one: shorter codes come
  first, equal lengths go by symbol, and each code is the next
  number of its length.
-/
def canonicalCodes
    (lengths : List Nat) : List (Nat × List Bool) :=
  let step := fun (acc : Nat × List (Nat × List Bool)) (len : Nat) =>
    (lengths.zipIdx.filter fun row => row.1 = len).foldl
      (fun (acc : Nat × List (Nat × List Bool)) row =>
        (acc.1 + 1, (row.2, bitsHighFirst acc.1 len) :: acc.2))
      (2 * acc.1, acc.2)
  (((List.range longestCode).map (· + 1)).foldl step (0, [])).2.reverse

/-
  How much of all paths of the longest length the codes take up.
-/
def weight
    (lengths : List Nat) : Nat :=
  (lengths.map fun len => if len = 0 then 0 else Nat.pow 2 (longestCode - len)).foldr (· + ·) 0

namespace CodeTree

/- The tree of the canonical codes. -/
def ofLengths
    (lengths : List Nat) : CodeTree :=
  (canonicalCodes lengths).foldl (fun t row => t.insert row.1 row.2) void

/-
  The tree of the canonical codes, if every path belongs to
  exactly one symbol. Where `sparse` is allowed, a single code
  of one bit or none at all is enough.
-/
def ofLengths?
    (lengths : List Nat)
    (sparse : Bool) : Option CodeTree :=
  let used := lengths.filter fun len => len ≠ 0
  if weight lengths = Nat.pow 2 longestCode ∨ (sparse ∧ (used = [] ∨ used = [1])) then
    some (ofLengths lengths)
  else none

end CodeTree

------------------------------------------------------------
-- The fixed codes
------------------------------------------------------------

/-
  The code lengths of literals and lengths where a block brings
  none of its own.
-/
def fixedLengths : List Nat :=
  List.replicate 144 8 ++ List.replicate 112 9 ++ List.replicate 24 7 ++ List.replicate 8 8

/-
  The code lengths of distances where a block brings none of its
  own.
-/
def fixedDistances : List Nat :=
  List.replicate 32 5

/- The tree of the fixed codes of literals and lengths. -/
def fixedLengthTree : CodeTree :=
  CodeTree.ofLengths fixedLengths

/- The tree of the fixed codes of distances. -/
def fixedDistanceTree : CodeTree :=
  CodeTree.ofLengths fixedDistances

end Parley.Deflate
