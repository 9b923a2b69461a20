import Parley.Proofs.Traffic.Basic
/-
  This file says what the closes of a run have done to its
  pipe: a queue is given back once its reading end has closed,
  and both directions have ended once either end has.

  Key theorems include:
    * `Visit.isReleased_after_iff`
    * `Visit.eof_after_iff`
    * `Traffic.Run.isReleased_iff`
    * `Traffic.Run.eof_iff`
-/

namespace Parley

------------------------------------------------------------
-- What one visit does
------------------------------------------------------------

namespace Visit

variable {ι : Type}

/- A queue is given back by a close of its reading end only. -/
theorem isReleased_after_iff
    {v : Visit ι}
    (hSound : v.before.Sound)
    (s : Side) :
    (v.after.queues.get s).isReleased = true ↔
      (v.before.queues.get s).isReleased = true ∨
        v.closes s := by
  cases v.effect hSound with
  | idle hQueues _ _ hCloses =>
      rw [hQueues]
      simp [hCloses s]
  | closed hAfter _ hCloses =>
      rw [hAfter, hCloses]
      rcases s.eq_or_eq_other v.side with rfl | rfl
      · simp [v.before.isReleased_close_self]
      · simp [v.before.isReleased_close_other,
          Ne.symm v.side.other_ne]
  | cleared hAfter _ hCloses =>
      rw [hAfter]
      simp [hCloses s, Pipe.clear, Pipe.notifyAll, Half.clear,
        Half.isReleased]
  | taken room _ _ hAfter _ hCloses =>
      rcases (hSound.queue v.side).take_spec room with
        ⟨-, -, -, hReleased, -⟩
      rw [hAfter]
      by_cases hSides : s = v.side
      · subst hSides
        simp [hCloses, hReleased]
      · simp [hCloses s, Pipe.queues_store_of_ne _ _ hSides]
  | added rest _ hAfter _ hCloses =>
      rcases (hSound.queue v.side.other).put_spec rest with
        ⟨-, -, -, -, hReleased, -⟩
      rw [hAfter]
      by_cases hSides : s = v.side.other
      · subst hSides
        simp [hCloses, hReleased]
      · simp [hCloses s, Pipe.queues_store_of_ne _ _ hSides]

/- Both directions end by a close of either end only. -/
theorem eof_after_iff
    {v : Visit ι}
    (hSound : v.before.Sound)
    (s : Side) :
    (v.after.queues.get s).eof = true ↔
      (v.before.queues.get s).eof = true ∨ ∃ r, v.closes r := by
  cases v.effect hSound with
  | idle hQueues _ _ hCloses =>
      rw [hQueues]
      simp [hCloses]
  | closed hAfter _ hCloses =>
      rw [hAfter]
      simp [hSound.eof_close, hCloses]
  | cleared hAfter _ hCloses =>
      rw [hAfter]
      simp [hCloses, Pipe.clear, Pipe.notifyAll, Half.clear]
  | taken room _ _ hAfter _ hCloses =>
      rcases (hSound.queue v.side).take_spec room with
        ⟨-, hEof, -⟩
      rw [hAfter]
      by_cases hSides : s = v.side
      · subst hSides
        simp [hCloses, hEof]
      · simp [hCloses, Pipe.queues_store_of_ne _ _ hSides]
  | added rest _ hAfter _ hCloses =>
      rcases (hSound.queue v.side.other).put_spec rest with
        ⟨-, -, hEof, -⟩
      rw [hAfter]
      by_cases hSides : s = v.side.other
      · subst hSides
        simp [hCloses, hEof]
      · simp [hCloses, Pipe.queues_store_of_ne _ _ hSides]

end Visit

------------------------------------------------------------
-- What a run did
------------------------------------------------------------

namespace Traffic

section

variable {ι : Type} {R : ι → Type} [DecidableEq ι]
variable {seat : ι → Side}
variable {nameA nameB : String} {capacity : Nat}
variable {routines : (i : ι) → Routine endpointInterface (R i)}
variable {log : List (Visit ι)} {t : Traffic R}

/- A queue was given back when its reading end has closed. -/
theorem Run.isReleased_iff
    (hRun :
      Run seat (new (.pair nameA nameB capacity) routines) log t)
    (s : Side) :
    (t.pipe.queues.get s).isReleased = true ↔
      ∃ v ∈ log, v.closes s := by
  apply And.right
  apply hRun.pipe_induction (motive := fun log p =>
    p.Sound ∧ ((p.queues.get s).isReleased = true ↔
      ∃ v ∈ log, v.closes s))
  · refine ⟨Pipe.Sound.pair nameA nameB capacity, ?_⟩
    cases s <;> simp [Pipe.pair, Two.get, Half.empty,
      Half.isReleased]
  · rintro log v ⟨hSound, hReleased⟩
    refine ⟨v.sound_after hSound, ?_⟩
    rw [v.isReleased_after_iff hSound, hReleased]
    simp only [List.mem_append, List.mem_singleton, or_and_right,
      exists_or, exists_eq_left]

/- Both directions have ended when either end has closed. -/
theorem Run.eof_iff
    (hRun :
      Run seat (new (.pair nameA nameB capacity) routines) log t)
    (s : Side) :
    (t.pipe.queues.get s).eof = true ↔
      ∃ v ∈ log, ∃ r, v.closes r := by
  apply And.right
  apply hRun.pipe_induction (motive := fun log p =>
    p.Sound ∧ ((p.queues.get s).eof = true ↔
      ∃ v ∈ log, ∃ r, v.closes r))
  · refine ⟨Pipe.Sound.pair nameA nameB capacity, ?_⟩
    cases s <;> simp [Pipe.pair, Two.get, Half.empty]
  · rintro log v ⟨hSound, hEof⟩
    refine ⟨v.sound_after hSound, ?_⟩
    rw [v.eof_after_iff hSound, hEof]
    simp only [List.mem_append, List.mem_singleton, or_and_right,
      exists_or, exists_eq_left]

/- What an end reads from is there until that end closes. -/
theorem Run.isReleased_eq_false
    (hRun :
      Run seat (new (.pair nameA nameB capacity) routines) log t)
    {s : Side}
    (hOpen : ∀ v ∈ log, ¬ v.closes s) :
    (t.pipe.queues.get s).isReleased = false := by
  apply Bool.eq_false_iff.mpr
  rw [ne_eq, hRun.isReleased_iff]
  rintro ⟨v, hMember, hCloses⟩
  exact hOpen v hMember hCloses

/- Nothing has ended until an end closes. -/
theorem Run.eof_eq_false
    (hRun :
      Run seat (new (.pair nameA nameB capacity) routines) log t)
    (hOpen : ∀ v ∈ log, ∀ r, ¬ v.closes r)
    (s : Side) :
    (t.pipe.queues.get s).eof = false := by
  apply Bool.eq_false_iff.mpr
  rw [ne_eq, hRun.eof_iff]
  rintro ⟨v, hMember, r, hCloses⟩
  exact hOpen v hMember r hCloses

end

end Traffic

end Parley
