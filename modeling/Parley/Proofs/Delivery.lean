import Parley.World
/-
  This file shows what the reading end of a one-shot is told in
  the course of time, whatever the order in which the two ends
  act. To resolve is two acts: the value is put in place, and
  then the writing end goes away.

  The reader is told to wait, gets the value at most once, and
  is told in the end that nothing will come. Between the two
  acts of resolving, a reader that has the value already is told
  to wait again.

  Key definitions include:
    * `Oneshot.Course`
    * `Oneshot.Standing`

  Key theorems include:
    * `Oneshot.Course.standing`
    * `Oneshot.Course.answers_eq`
    * `Oneshot.Course.poll_of_not_mem`
    * `Oneshot.Course.poll_of_mem`
    * `World.poll_of_wait`
-/

namespace Parley

variable {V : Type}

namespace Oneshot

variable {given : Option V} {answers : List (Settled V)}
variable {o : Oneshot V}

------------------------------------------------------------
-- Courses
------------------------------------------------------------

/-
  What a one-shot can come to, with the value that was put in
  place and all that the reading end was told. A value is put
  in place once, as long as there is a writing end, and looked
  for as long as there is a reading end.
-/
inductive Course :
    Option V → List (Settled V) → Oneshot V → Prop where
  | new : Course none [] .new
  | queue
      {answers : List (Settled V)}
      {o : Oneshot V}
      (v : V)
      (hResolver : o.hasResolver = true)
      (hCourse : Course none answers o) :
      Course (some v) answers (o.queue v)
  | dropResolver
      {given : Option V}
      {answers : List (Settled V)}
      {o : Oneshot V}
      (hCourse : Course given answers o) :
      Course given answers o.dropResolver
  | ask
      {given : Option V}
      {answers : List (Settled V)}
      {o : Oneshot V}
      (hPending : o.hasPending = true)
      (hCourse : Course given answers o) :
      Course given (answers ++ [o.poll.1]) o.poll.2
  | dropPending
      {given : Option V}
      {answers : List (Settled V)}
      {o : Oneshot V}
      (hCourse : Course given answers o) :
      Course given answers o.dropPending

/-
  Where a one-shot stands, and what the reading end was told to
  get there.
-/
inductive Standing :
    Option V → List (Settled V) → Oneshot V → Prop where
  | waiting (n : Nat) (hasPending : Bool) :
      Standing none (.replicate n .pending)
        ⟨none, true, hasPending⟩
  | abandoned (n k : Nat) (hasPending : Bool) :
      Standing none
        (.replicate n .pending ++ .replicate k .abandoned)
        ⟨none, false, hasPending⟩
  | filled (n : Nat) (v : V) (hasResolver : Bool) :
      Standing (some v) (.replicate n .pending)
        ⟨some v, hasResolver, true⟩
  | lost (n : Nat) (v : V) (hasResolver : Bool) :
      Standing (some v) (.replicate n .pending)
        ⟨none, hasResolver, false⟩
  | taken (n m : Nat) (v : V) (hasPending : Bool) :
      Standing (some v)
        (.replicate n .pending ++ .ready v ::
          .replicate m .pending)
        ⟨none, true, hasPending⟩
  | spent (n m k : Nat) (v : V) (hasPending : Bool) :
      Standing (some v)
        (.replicate n .pending ++ .ready v ::
          (.replicate m .pending ++ .replicate k .abandoned))
        ⟨none, false, hasPending⟩

namespace Standing

/- A value can be put in place where none was before. -/
theorem queue
    (v : V)
    (hResolver : o.hasResolver = true)
    (hStanding : Standing none answers o) :
    Standing (some v) answers (o.queue v) := by
  cases hStanding with
  | waiting n hasPending =>
      cases hasPending with
      | false => exact .lost n v true
      | true => exact .filled n v true
  | abandoned => cases hResolver

/- The writing end can go away. -/
theorem dropResolver
    (hStanding : Standing given answers o) :
    Standing given answers o.dropResolver := by
  cases hStanding with
  | waiting n hasPending =>
      have hNext :=
        Standing.abandoned (V := V) n 0 hasPending
      rw [List.replicate_zero, List.append_nil] at hNext
      exact hNext
  | abandoned n k hasPending => exact .abandoned n k hasPending
  | filled n v => exact .filled n v false
  | lost n v => exact .lost n v false
  | taken n m v hasPending =>
      have hNext := Standing.spent n m 0 v hasPending
      rw [List.replicate_zero, List.append_nil] at hNext
      exact hNext
  | spent n m k v hasPending => exact .spent n m k v hasPending

/- The reading end can look. -/
theorem ask
    (hPending : o.hasPending = true)
    (hStanding : Standing given answers o) :
    Standing given (answers ++ [o.poll.1]) o.poll.2 := by
  have hMore : ∀ (n : Nat) (a : Settled V),
      List.replicate n a ++ [a] = .replicate (n + 1) a :=
    fun _ _ => List.replicate_succ'.symm
  cases hStanding with
  | waiting n hasPending =>
      change Standing none (_ ++ [Settled.pending]) _
      rw [hMore]
      exact .waiting (n + 1) hasPending
  | abandoned n k hasPending =>
      change Standing none (_ ++ [Settled.abandoned]) _
      rw [List.append_assoc, hMore]
      exact .abandoned n (k + 1) hasPending
  | filled n v hasResolver =>
      cases hasResolver with
      | false => exact .spent n 0 0 v true
      | true => exact .taken n 0 v true
  | lost => cases hPending
  | taken n m v hasPending =>
      change Standing (some v) (_ ++ [Settled.pending]) _
      rw [List.append_assoc, List.cons_append, hMore]
      exact .taken n (m + 1) v hasPending
  | spent n m k v hasPending =>
      change Standing (some v) (_ ++ [Settled.abandoned]) _
      rw [List.append_assoc, List.cons_append, List.append_assoc,
        hMore]
      exact .spent n m (k + 1) v hasPending

/- The reading end can go away. -/
theorem dropPending
    (hStanding : Standing given answers o) :
    Standing given answers o.dropPending := by
  cases hStanding with
  | waiting n => exact .waiting n false
  | abandoned n k => exact .abandoned n k false
  | filled n v hasResolver => exact .lost n v hasResolver
  | lost n v hasResolver => exact .lost n v hasResolver
  | taken n m v => exact .taken n m v false
  | spent n m k v => exact .spent n m k v false

end Standing

namespace Course

/- Every course leads to one of these places. -/
theorem standing
    (hCourse : Course given answers o) :
    Standing given answers o := by
  induction hCourse with
  | new => exact .waiting 0 true
  | queue v hResolver _ ih => exact ih.queue v hResolver
  | dropResolver _ ih => exact ih.dropResolver
  | ask hPending _ ih => exact ih.ask hPending
  | dropPending _ ih => exact ih.dropPending

------------------------------------------------------------
-- What the reading end is told
------------------------------------------------------------

/-
  The reader is told to wait, then given the value if it gets
  it, told to wait again only if it has, and then told that
  nothing will come. It is told so only if the writing end is
  gone, and without the value only if none was put in place.
-/
theorem answers_eq
    (hCourse : Course given answers o) :
    ∃ n m k, ∃ got : Option V,
      answers =
          .replicate n .pending ++ (got.map .ready).toList ++
            .replicate m .pending ++ .replicate k .abandoned ∧
        (∀ v, got = some v → given = some v) ∧
        (got = none → m = 0) ∧
        (0 < k → o.hasResolver = false ∧ got = given) := by
  cases hCourse.standing with
  | waiting n => exact ⟨n, 0, 0, none, by simp⟩
  | abandoned n k => exact ⟨n, 0, k, none, by simp⟩
  | filled n => exact ⟨n, 0, 0, none, by simp⟩
  | lost n => exact ⟨n, 0, 0, none, by simp⟩
  | taken n m v => exact ⟨n, m, 0, some v, by simp⟩
  | spent n m k v => exact ⟨n, m, k, some v, by simp⟩

/- A reader that has not got the value yet gets it next. -/
theorem poll_of_not_mem
    {v : V}
    (hCourse : Course (some v) answers o)
    (hPending : o.hasPending = true)
    (hUnread : .ready v ∉ answers) :
    o.poll.1 = .ready v := by
  cases hCourse.standing with
  | filled => rfl
  | lost => cases hPending
  | taken => simp at hUnread
  | spent => simp at hUnread

/-
  One that has got it is told that nothing will come, but only
  once the writing end is gone.
-/
theorem poll_of_mem
    {v : V}
    (hCourse : Course given answers o)
    (hRead : .ready v ∈ answers) :
    o.poll.1 = if o.hasResolver then .pending else .abandoned := by
  cases hCourse.standing with
  | filled => simp at hRead
  | _ => rfl

/- So it may be told to wait with the value in its hands. -/
example (v : V) : Course (some v) [.ready v, .pending]
    ⟨none, true, true⟩ :=
  .ask rfl (.ask rfl (.queue v rfl .new))

end Course

end Oneshot

namespace World

/- A wait that is over was told what a look is told then. -/
theorem poll_of_wait
    {w w' : World V}
    {t : Ticket}
    {d : Duration}
    {limit : Option Instant}
    {a : Settled V}
    (hWait :
      w.resumeMove (.wait t d) (.oneshot limit) = (.inl a, w')) :
    w.poll t = (a, w') := by
  rcases hPoll : w.poll t with ⟨answer, next⟩
  simp only [resumeMove, hPoll] at hWait
  cases answer with
  | pending =>
      cases limit with
      | none => cases hWait
      | some moment =>
          simp only at hWait
          split at hWait <;> cases hWait
          rfl
  | ready v =>
      cases hWait
      rfl
  | abandoned =>
      cases hWait
      rfl

end World

end Parley
