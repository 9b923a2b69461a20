/-
  This file gives the one-shot: a place for a single value,
  filled at most once at one end and emptied at most once at
  the other.

  Key definitions include:
    * `Settled`
    * `Oneshot`
    * `Oneshot.new`
    * `Oneshot.queue`
    * `Oneshot.dropResolver`
    * `Oneshot.dropPending`
    * `Oneshot.poll`

  Key theorems include:
    * `Oneshot.poll_queue`
    * `Oneshot.poll_poll_resolve`
-/

namespace Parley

variable {V : Type}

------------------------------------------------------------
-- Answers
------------------------------------------------------------

/-
  What the reading end finds: nothing yet, the value, or that no
  value will come.
-/
inductive Settled (V : Type) where
  | pending
  | ready (value : V)
  | abandoned
deriving DecidableEq, Repr

------------------------------------------------------------
-- The one-shot
------------------------------------------------------------

/-
  A one-shot: the value that waits to be taken, and which of its
  two ends still exist.
-/
structure Oneshot (V : Type) where
  value : Option V
  hasResolver : Bool
  hasPending : Bool
deriving DecidableEq, Repr

namespace Oneshot

/- A one-shot with both ends and no value. -/
def new : Oneshot V where
  value := none
  hasResolver := true
  hasPending := true

/-
  Put the value in place. Without a reading end the value is
  lost.
-/
def queue
    (o : Oneshot V)
    (v : V) : Oneshot V :=
  if o.hasPending then { o with value := some v } else o

/- The writing end goes away. -/
def dropResolver
    (o : Oneshot V) : Oneshot V :=
  { o with hasResolver := false }

/-
  Resolving puts the value in place and then gives up the
  writing end.
-/
def resolve
    (o : Oneshot V)
    (v : V) : Oneshot V :=
  (o.queue v).dropResolver

/- The reading end goes away, with a value that waited there. -/
def dropPending
    (o : Oneshot V) : Oneshot V :=
  { o with value := none, hasPending := false }

/-
  Take the value if it is there; otherwise tell whether one can
  still come.
-/
def poll
    (o : Oneshot V) : Settled V × Oneshot V :=
  match o.value with
  | some v => (.ready v, { o with value := none })
  | none => (if o.hasResolver then .pending else .abandoned, o)

/- A value that was put in place is found. -/
theorem poll_queue
    {o : Oneshot V}
    (v : V)
    (h : o.hasPending = true) :
    (o.queue v).poll.1 = .ready v := by
  simp [queue, poll, h]

/- A value is found once. -/
theorem poll_poll_resolve
    {o : Oneshot V}
    (v : V)
    (h : o.hasPending = true) :
    (o.resolve v).poll.2.poll.1 = .abandoned := by
  simp [resolve, queue, dropResolver, poll, h]

end Oneshot

end Parley
