import Parley.Deflate.Draft
/-
  This file cuts the bytes of a history into tokens until a
  block is complete. There are three methods: bytes alone,
  copies found through the last occurrence of three bytes, and
  copies found along chains, at once or after a look at the
  next byte.

  Key definitions include:
    * `quickMatch?`
    * `bestMatch`
    * `decideAt`
    * `Method`
    * `Tokenizer`
    * `Tokenizer.step`
    * `Tokenizer.fill`
-/

namespace Parley.Deflate

------------------------------------------------------------
-- Copies from the last occurrence
------------------------------------------------------------

/-
  Copies of only three bytes from further back are not worth it.
-/
def farForThree : Nat :=
  8192

/-
  Where three bytes of each key stood last, as far as they were
  looked at.
-/
abbrev Recent :=
  Array Nat

namespace Recent

/- How many keys are told apart. -/
def keys : Nat :=
  4096

/- Before the first byte. -/
def empty : Recent :=
  Array.replicate keys 0

/- The key of the three bytes at a position. -/
def key
    (h : History)
    (i : Nat) : Nat :=
  let triple := (h.byte i).toNat + 256 * (h.byte (i + 1)).toNat + 65536 * (h.byte (i + 2)).toNat
  (triple ^^^ (triple >>> 17)) % keys

end Recent

/-
  The copy at the cursor of what stood at `last`, unless it is
  out of reach or too short.
-/
def quickMatch?
    (h : History)
    (c : Cursor)
    (last most : Nat) : Option Match :=
  let distance := (c.pos - last) % History.positionCycle
  if distance = 0 ∨ c.reach < distance then none
  else
    let run := h.commonRun (c.pos - distance) c.pos most
    if run < shortestCopy ∨ (run = shortestCopy ∧ farForThree ≤ distance) then none
    else some ⟨run, distance⟩

/- The bytes that the quick method looks at together. -/
def quickRound : Nat :=
  4096

/- The fewest bytes that the quick method still looks at. -/
def quickLeast : Nat :=
  4

------------------------------------------------------------
-- Copies along chains
------------------------------------------------------------

/-
  How long the chains are followed, and whether a copy waits for
  a look at the next byte.
-/
structure Effort where
  probes : Nat
  patient : Bool
deriving DecidableEq, Repr

/- Copies of as many bytes do not wait for the next byte. -/
def longEnough : Nat :=
  128

/-
  Where a copy of as many bytes is there already, fewer probes
  are made.
-/
def goodEnough : Nat :=
  32

/-
  The probes that are made for a copy that is longer than
  `length`.
-/
def Effort.probesFor
    (e : Effort)
    (length : Nat) : Nat :=
  if goodEnough ≤ length then (e.probes / 4 + 2) / 3 else (e.probes + 2) / 3

/-
  The best copy at the cursor, given one that waits there;
  length `0` is none.
-/
def bestMatch
    (e : Effort)
    (h : History)
    (c : Cursor)
    (most : Nat)
    (waiting : Option Match) : Match :=
  let length := waiting.elim (shortestCopy - 1) Match.length
  let m := h.search c.pos c.reach most (e.probesFor length) ⟨length, 0⟩
  if (m.length = shortestCopy ∧ farForThree ≤ m.distance) ∨ c.pos % windowSize = m.distance then
    ⟨0, 0⟩
  else m

/-
  What is decided at a position: the tokens to write, how far to
  go, and the copy that waits.
-/
structure Decision where
  tokens : List Token
  advance : Nat
  waiting : Option Match
deriving DecidableEq, Repr

/-
  Decide at a position. A copy that waits from the byte before
  is made unless there is a longer one now; a long one is made
  at once.
-/
def decideAt
    (e : Effort)
    (h : History)
    (pos : Nat)
    (m : Match) : Option Match → Decision
  | some w =>
    if m.length ≤ w.length then ⟨[.copy w.length w.distance], w.length - 1, none⟩
    else
      let skipped := Token.literal (h.byte (pos - 1))
      if longEnough ≤ m.length then ⟨[skipped, .copy m.length m.distance], m.length, none⟩
      else ⟨[skipped], 1, some m⟩
  | none =>
    if m.distance = 0 then ⟨[.literal (h.byte pos)], 1, none⟩
    else if !e.patient || longEnough ≤ m.length then
      ⟨[.copy m.length m.distance], m.length, none⟩
    else ⟨[], 1, some m⟩

------------------------------------------------------------
-- Methods
------------------------------------------------------------

/-
  How bytes are cut into tokens, with what is kept from one cut
  to the next. The quick method goes in rounds, of which the
  present one ends at `roundEnd`; along chains a copy may wait.
-/
inductive Method where
  | stored
  | quick (recent : Recent) (roundEnd : Nat)
  | chained (effort : Effort) (waiting : Option Match)

namespace Method

/-
  Higher levels look longer for copies; from level 4 on, copies
  wait for the next byte.
-/
def ofLevel : Nat → Method
  | 0 => stored
  | 1 => quick .empty 0
  | 2 => chained ⟨6, false⟩ none
  | 3 => chained ⟨32, false⟩ none
  | 4 => chained ⟨16, true⟩ none
  | 5 => chained ⟨32, true⟩ none
  | 6 => chained ⟨128, true⟩ none
  | 7 => chained ⟨256, true⟩ none
  | 8 => chained ⟨512, true⟩ none
  | 9 => chained ⟨768, true⟩ none
  | _ => chained ⟨1500, true⟩ none

/-
  How many bytes a method wants to see before it goes on without
  a flush.
-/
def foresight : Method → Nat
  | quick _ _ => quickRound
  | _ => longestCopy

/- Whether a round has not ended at a position yet. -/
def isInRound
    (m : Method)
    (pos : Nat) : Bool :=
  match m with
  | quick _ roundEnd => decide (pos < roundEnd)
  | _ => false

end Method

------------------------------------------------------------
-- Cutting
------------------------------------------------------------

/-
  The block in the making, where the cut is to be made next, and
  how.
-/
structure Tokenizer where
  draft : Draft
  cursor : Cursor
  method : Method

namespace Tokenizer

/- Before the first byte. -/
def ofLevel
    (level : Nat) : Tokenizer :=
  ⟨{ start := 0 }, {}, .ofLevel level⟩

/-
  Cut by the quick method, in the present round or at the
  beginning of the next one.
-/
def stepQuick
    (h : History)
    (d : Draft)
    (c : Cursor)
    (recent : Recent)
    (roundEnd : Nat) : Tokenizer :=
  let starts := decide (roundEnd ≤ c.pos)
  let roundEnd := if starts then min h.data.size (c.pos + quickRound) else roundEnd
  let ahead := roundEnd - c.pos
  let c := if starts then c.makeRoom ahead else c
  let key := Recent.key h c.pos
  let last := recent.getD key 0
  let looks := decide (quickLeast ≤ ahead)
  let found := if looks then quickMatch? h c last (min ahead longestCopy) else none
  let recent := if looks then recent.setIfInBounds key c.pos else recent
  let token := found.elim (Token.literal (h.byte c.pos)) fun m => .copy m.length m.distance
  ⟨d.add token, c.advance token.size, .quick recent roundEnd⟩

/- Cut along the chains. -/
def stepChained
    (h : History)
    (d : Draft)
    (c : Cursor)
    (effort : Effort)
    (waiting : Option Match) : Tokenizer :=
  let most := min longestCopy (h.data.size - c.pos)
  let c := c.makeRoom most
  let m := bestMatch effort h c most waiting
  let decision := decideAt effort h c.pos m waiting
  ⟨decision.tokens.foldl Draft.add d, c.advance decision.advance,
    .chained effort decision.waiting⟩

/- Make the next cut, if any byte is left. -/
def step
    (h : History) : Tokenizer → Tokenizer
  | ⟨d, c, .stored⟩ => ⟨d.lengthen, c.advance 1, .stored⟩
  | ⟨d, c, .quick recent roundEnd⟩ => stepQuick h d c recent roundEnd
  | ⟨d, c, .chained effort waiting⟩ => stepChained h d c effort waiting

/- Whether the block in the making ends here. -/
def isComplete
    (t : Tokenizer) : Bool :=
  match t.method with
  | .stored => decide (Draft.longestPlain < t.draft.size)
  | .quick _ _ => t.draft.isFull
  | .chained _ _ => t.draft.isFull || t.draft.isPlain

/-
  Whether `least` bytes are left, or the bytes of a round that
  has begun.
-/
def isReady
    (t : Tokenizer)
    (h : History)
    (least : Nat) : Bool :=
  t.method.isInRound t.cursor.pos || decide (t.cursor.pos + least ≤ h.data.size)

/-
  Cut while `least` bytes are left and the block is not
  complete, so many times at most.
-/
def fill
    (h : History)
    (least : Nat) : Nat → Tokenizer → Tokenizer
  | 0, t => t
  | fuel + 1, t =>
    if t.isComplete || !t.isReady h least then t else fill h least fuel (t.step h)

/- End the present round here. -/
def endRound
    (t : Tokenizer) : Tokenizer :=
  match t with
  | ⟨d, c, .quick recent _⟩ => ⟨d, c, .quick recent c.pos⟩
  | t => t

/- Begin the next block. -/
def next
    (t : Tokenizer) : Tokenizer :=
  { t with draft := t.draft.next }

end Tokenizer

end Parley.Deflate
