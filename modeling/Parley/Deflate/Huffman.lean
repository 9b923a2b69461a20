import Parley.Deflate.Code
/-
  This file chooses code lengths for symbols by how often they
  occur: rare symbols get long codes, so that the data as a
  whole becomes short. No code is longer than a given limit.

  Key definitions include:
    * `Branch`
    * `Branch.merge`
    * `depthsOf`
    * `Tally`
    * `Tally.limit`
    * `lengthsOf`

  Key theorems include:
    * `length_insertAfter`
-/

namespace Parley.Deflate

------------------------------------------------------------
-- Merging
------------------------------------------------------------

/-
  Part of a code: how often its symbols occur together, and how
  deep each of them stands.
-/
structure Branch where
  weight : Nat
  depths : List Nat
deriving DecidableEq, Repr

namespace Branch

/- A single symbol. -/
def leaf
    (weight : Nat) : Branch :=
  ⟨weight, [0]⟩

/- Two branches under one more bit. -/
def merge
    (x y : Branch) : Branch :=
  ⟨x.weight + y.weight, (x.depths ++ y.depths).map (· + 1)⟩

/-
  Put a branch into a list that is ordered by weight, behind
  those of its own weight.
-/
def insertAfter
    (b : Branch) : List Branch → List Branch
  | [] => [b]
  | x :: rest => if b.weight < x.weight then b :: x :: rest else x :: insertAfter b rest

theorem length_insertAfter
    (b : Branch)
    (bs : List Branch) :
    (insertAfter b bs).length = bs.length + 1 := by
  induction bs with
  | nil => rfl
  | cons x rest ih =>
    simp only [insertAfter]
    split <;> simp [ih]

/-
  Merge the two lightest branches until one is left; the list is
  ordered by weight.
-/
def mergeAll : List Branch → List Nat
  | [] => []
  | [b] => b.depths
  | x :: y :: rest => mergeAll (insertAfter (x.merge y) rest)
termination_by bs => bs.length
decreasing_by simp only [length_insertAfter, List.length_cons]; omega

end Branch

/-
  The depths of symbols with the given weights, which are
  ordered and not zero. A symbol that is alone still gets a code
  of one bit.
-/
def depthsOf
    (weights : List Nat) : List Nat :=
  match weights with
  | [_] => [1]
  | _ => Branch.mergeAll (weights.map Branch.leaf)

------------------------------------------------------------
-- Limiting
------------------------------------------------------------

/-
  How many codes there are of each length, from the limit down
  to length 1.
-/
abbrev Tally :=
  List Nat

namespace Tally

/- Count depths; those beyond the limit count as the limit. -/
def ofDepths
    (limit : Nat)
    (depths : List Nat) : Tally :=
  (List.range limit).map fun i => depths.countP fun d => min d limit == limit - i

/-
  How much the codes take up, where a code of the greatest
  length takes up one.
-/
def weight
    (t : Tally) : Nat :=
  t.foldr (fun n above => n + 2 * above) 0

/-
  Make two codes out of a shorter one, the longest of those that
  are shorter.
-/
def split : Tally → Tally
  | [] => []
  | [n] => [n]
  | n :: m :: shorter => if 0 < m then (n + 2) :: (m - 1) :: shorter else n :: split (m :: shorter)

/-
  Give up one code of the greatest length, and win it back from
  a shorter one.
-/
def relieve
    (t : Tally) : Tally :=
  match t with
  | [] => []
  | n :: shorter => split ((n - 1) :: shorter)

/-
  Relieve a tally until its codes fit; every time they take up
  one less.
-/
def limit
    (t : Tally) : Nat → Tally
  | 0 => t
  | excess + 1 => t.relieve.limit excess

/- The lengths that a tally counts, the shortest first. -/
def lengths
    (t : Tally) : List Nat :=
  (t.zipIdx.map fun (n, i) => List.replicate n (t.length - i)).reverse.flatten

end Tally

------------------------------------------------------------
-- Lengths of codes
------------------------------------------------------------

/-
  The symbols that occur, the rarest first; of equally rare ones
  the lower first.
-/
def occurring
    (counts : Array Nat) : List (Nat × Nat) :=
  (counts.toList.zipIdx.filter fun row => 0 < row.1).mergeSort fun x y => x.1 ≤ y.1

/-
  The code length of every symbol, by how often each of them
  occurs.
-/
def lengthsOf
    (counts : Array Nat)
    (longest : Nat) : Array Nat :=
  let symbols := occurring counts
  let tally := Tally.ofDepths longest (depthsOf (symbols.map (·.1)))
  let tally :=
    if symbols.length ≤ 1 then tally else tally.limit (tally.weight - Nat.pow 2 longest)
  (symbols.reverse.zip tally.lengths).foldl (fun lengths (row, length) =>
    lengths.setIfInBounds row.2 length) (counts.map fun _ => 0)

end Parley.Deflate
