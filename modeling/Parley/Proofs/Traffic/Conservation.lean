import Mathlib.Data.List.Induction
import Parley.Proofs.Traffic.Closing
/-
  This file shows that a pipe is faithful to its bytes: in each
  direction the reader gets what was accepted for it, in order
  and once, but for what a clear threw away.

  The books of a direction are read off the log of a run. What
  is delivered and what is accepted is told by the answers and
  counts that the callers see; what stays on the books is what
  was accepted, less what was unread when a clear came.

  Key definitions include:
    * `Traffic.delivered`
    * `Traffic.accepted`
    * `Traffic.kept`
    * `Traffic.Balanced`

  Key theorems include:
    * `Visit.unread_append_accepted`
    * `Traffic.Balanced.visit`
    * `Traffic.Run.balanced`
    * `Traffic.kept_eq_accepted`
    * `Traffic.Run.delivered_append_unread`
    * `Traffic.Run.delivered_append_unread_eq_kept`
-/

namespace Parley

------------------------------------------------------------
-- What one visit does to a direction
------------------------------------------------------------

namespace Half

/- A queue that was given back has nothing unread. -/
theorem unread_eq_nil_of_isReleased
    {h : Half}
    (hReleased : h.isReleased = true) :
    h.unread = [] := by
  have hBuf : h.buf = none := by
    simpa [isReleased] using hReleased
  simp [unread, hBuf]

end Half

namespace Visit

variable {ι : Type}

/-
  A visit that neither clears nor closes the reading end loses
  nothing: what was unread and what is accepted is what is
  delivered and what stays unread, in this order.
-/
theorem unread_append_accepted
    {v : Visit ι}
    (hSound : v.before.Sound)
    (s : Side)
    (hCall : v.call ≠ .clear)
    (hOpen : ¬ v.closes s) :
    (v.before.queues.get s).unread ++ v.accepted s =
      v.delivered s ++ (v.after.queues.get s).unread := by
  cases v.effect hSound with
  | idle hQueues _ _ _ hDelivered hAccepted =>
      rw [hQueues, hDelivered, hAccepted, List.append_nil,
        List.nil_append]
  | closed hAfter _ hCloses hDelivered hAccepted =>
      have hOther : s = v.side.other := by
        rcases s.eq_or_eq_other v.side with rfl | hOther
        · exact absurd ((hCloses v.side).mpr rfl) hOpen
        · exact hOther
      subst hOther
      rw [hAfter, v.before.unread_close_other, hDelivered,
        hAccepted, List.append_nil, List.nil_append]
  | cleared _ hClear => exact absurd hClear hCall
  | taken room _ _ hAfter _ _ hDelivered hAccepted =>
      rw [hAfter, hDelivered, hAccepted, List.append_nil]
      by_cases hSides : v.side = s
      · subst hSides
        rcases (hSound.queue v.side).take_spec room with
          ⟨hLeft, -⟩
        rw [if_pos rfl, Pipe.queues_store_self, hLeft,
          List.take_append_drop]
      · rw [if_neg hSides,
          Pipe.queues_store_of_ne _ _ (Ne.symm hSides),
          List.nil_append]
  | added rest _ hAfter _ _ hDelivered hAccepted =>
      rw [hAfter, hDelivered, hAccepted, List.nil_append]
      by_cases hSides : v.side.other = s
      · subst hSides
        rcases (hSound.queue v.side.other).put_spec rest with
          ⟨-, hUnread, -⟩
        rw [if_pos rfl, Pipe.queues_store_self, hUnread]
      · rw [if_neg hSides,
          Pipe.queues_store_of_ne _ _ (Ne.symm hSides),
          List.append_nil]

/- A clear leaves nothing unread and moves nothing itself. -/
theorem unread_of_clear
    {v : Visit ι}
    (hSound : v.before.Sound)
    (s : Side)
    (hCall : v.call = .clear) :
    (v.after.queues.get s).unread = [] ∧
      v.delivered s = [] := by
  cases v.effect hSound with
  | cleared hAfter _ _ hDelivered =>
      refine ⟨?_, hDelivered s⟩
      rw [hAfter]
      simp only [Pipe.clear, Pipe.notifyAll, Two.get_map,
        Half.unread_clear]
  | idle _ _ hNot => exact absurd hCall hNot
  | closed _ hNot => exact absurd hCall hNot
  | taken _ _ _ _ hNot => exact absurd hCall hNot
  | added _ _ _ hNot => exact absurd hCall hNot

/- A visit that closes the reading end moves nothing there. -/
theorem nothing_moved_of_closes
    {v : Visit ι}
    (hSound : v.before.Sound)
    {s : Side}
    (hCloses : v.closes s) :
    v.accepted s = [] ∧ v.delivered s = [] := by
  cases v.effect hSound with
  | closed _ _ _ hDelivered hAccepted =>
      exact ⟨hAccepted s, hDelivered s⟩
  | idle _ _ _ hNot => exact absurd hCloses (hNot s)
  | cleared _ _ hNot => exact absurd hCloses (hNot s)
  | taken _ _ _ _ _ hNot => exact absurd hCloses (hNot s)
  | added _ _ _ _ hNot => exact absurd hCloses (hNot s)

/- Nothing moves in a queue that was given back. -/
theorem nothing_moved_of_isReleased
    {v : Visit ι}
    (hSound : v.before.Sound)
    {s : Side}
    (hReleased : (v.before.queues.get s).isReleased = true) :
    v.accepted s = [] ∧ v.delivered s = [] := by
  cases v.effect hSound with
  | idle _ _ _ _ hDelivered hAccepted =>
      exact ⟨hAccepted s, hDelivered s⟩
  | closed _ _ _ hDelivered hAccepted =>
      exact ⟨hAccepted s, hDelivered s⟩
  | cleared _ _ _ hDelivered hAccepted =>
      exact ⟨hAccepted s, hDelivered s⟩
  | taken _ _ hUnread _ _ _ hDelivered hAccepted =>
      refine ⟨hAccepted s, ?_⟩
      rw [hDelivered]
      apply if_neg
      rintro rfl
      exact hUnread (Half.unread_eq_nil_of_isReleased hReleased)
  | added _ hEof _ _ _ hDelivered hAccepted =>
      refine ⟨?_, hDelivered s⟩
      rw [hAccepted]
      apply if_neg
      rintro rfl
      rw [hSound.eof_of_isReleased _ hReleased] at hEof
      exact Bool.noConfusion hEof

------------------------------------------------------------
-- Books
------------------------------------------------------------

/-
  Carry a visit to the books of side `s`: what is accepted is
  added at the end, and a clear strikes out as many bytes at
  the end as are unread when it comes.
-/
def book
    (v : Visit ι)
    (s : Side)
    (kept : Bytes) : Bytes :=
  if v.call = .clear then
    kept.take
      (kept.length - (v.before.queues.get s).unread.length)
  else kept ++ v.accepted s

/- Nothing is booked for a queue that was given back. -/
theorem book_of_isReleased
    {v : Visit ι}
    (hSound : v.before.Sound)
    {s : Side}
    (kept : Bytes)
    (hReleased : (v.before.queues.get s).isReleased = true) :
    v.book s kept = kept := by
  have hAccepted :=
    (v.nothing_moved_of_isReleased hSound hReleased).1
  have hUnread := Half.unread_eq_nil_of_isReleased hReleased
  simp only [book, hUnread, hAccepted, List.length_nil,
    Nat.sub_zero, List.take_length, List.append_nil, ite_self]

end Visit

namespace Traffic

variable {ι : Type} {R : ι → Type}

/- All that the reader at side `s` got, in order. -/
def delivered
    (s : Side)
    (log : List (Visit ι)) : Bytes :=
  log.flatMap fun v => v.delivered s

/- All that was accepted for the reader at side `s`, in order. -/
def accepted
    (s : Side)
    (log : List (Visit ι)) : Bytes :=
  log.flatMap fun v => v.accepted s

/- What was accepted, less what was unread at each clear. -/
def kept
    (s : Side)
    (log : List (Visit ι)) : Bytes :=
  log.foldl (fun kept v => v.book s kept) []

@[simp] theorem delivered_concat
    (s : Side)
    (log : List (Visit ι))
    (v : Visit ι) :
    delivered s (log ++ [v]) =
      delivered s log ++ v.delivered s := by
  simp [delivered]

@[simp] theorem accepted_concat
    (s : Side)
    (log : List (Visit ι))
    (v : Visit ι) :
    accepted s (log ++ [v]) =
      accepted s log ++ v.accepted s := by
  simp [accepted]

/- A visit delivers nothing to the far end. -/
theorem delivered_concat_other
    (log : List (Visit ι))
    (v : Visit ι) :
    delivered v.side.other (log ++ [v]) =
      delivered v.side.other log := by
  have hNothing : v.delivered v.side.other = [] :=
    if_neg (Ne.symm v.side.other_ne)
  rw [delivered_concat, hNothing, List.append_nil]

/- A visit puts nothing on its way to its own end. -/
theorem accepted_concat_side
    (log : List (Visit ι))
    (v : Visit ι) :
    accepted v.side (log ++ [v]) = accepted v.side log := by
  have hNothing : v.accepted v.side = [] :=
    if_neg v.side.other_ne
  rw [accepted_concat, hNothing, List.append_nil]

@[simp] theorem kept_concat
    (s : Side)
    (log : List (Visit ι))
    (v : Visit ι) :
    kept s (log ++ [v]) = v.book s (kept s log) := by
  simp [kept]

/- Without a clear all that was accepted stays on the books. -/
theorem kept_eq_accepted
    {log : List (Visit ι)}
    (s : Side)
    (hCalls : ∀ v ∈ log, v.call ≠ .clear) :
    kept s log = accepted s log := by
  induction log using List.reverseRecOn with
  | nil => rfl
  | append_singleton log v ih =>
      have hLog : ∀ w ∈ log, w.call ≠ .clear := by
        intro w hw
        exact hCalls w (List.mem_append_left _ hw)
      have hLast : v.call ≠ .clear := by
        exact hCalls v (by simp)
      rw [kept_concat, accepted_concat, Visit.book,
        if_neg hLast, ih hLog]

/-
  The books of side `s` agree with the pipe: what is kept is
  what was delivered and, as long as the queue was not given
  back, what is unread.
-/
structure Balanced
    (s : Side)
    (log : List (Visit ι))
    (p : Pipe) : Prop where
  sound : p.Sound
  balance :
    ∃ rest, kept s log = delivered s log ++ rest ∧
      ((p.queues.get s).isReleased = false →
        rest = (p.queues.get s).unread)

/- What a clear strikes out is what is unread. -/
theorem Balanced.kept_of_clear
    {s : Side}
    {log : List (Visit ι)}
    {v : Visit ι}
    (hBalanced : Balanced s log v.before)
    (hCall : v.call = .clear) :
    kept s log =
      kept s (log ++ [v]) ++
        (v.before.queues.get s).unread := by
  rcases hBalanced.balance with ⟨rest, hKept, hRest⟩
  rw [kept_concat, Visit.book, if_pos hCall]
  cases hReleased : (v.before.queues.get s).isReleased with
  | true =>
      rw [Half.unread_eq_nil_of_isReleased hReleased]
      simp
  | false =>
      rw [hKept, hRest hReleased]
      simp

/- Every visit keeps the books in agreement with the pipe. -/
theorem Balanced.visit
    {s : Side}
    {log : List (Visit ι)}
    {v : Visit ι}
    (hBalanced : Balanced s log v.before) :
    Balanced s (log ++ [v]) v.after := by
  have hSound := hBalanced.sound
  have hAfter := v.isReleased_after_iff hSound s
  rcases hBalanced.balance with ⟨rest, hKept, hRest⟩
  refine ⟨v.sound_after hSound, ?_⟩
  cases hReleased : (v.before.queues.get s).isReleased with
  | true =>
      -- Neither book changes, nor does the queue come back.
      rw [kept_concat, delivered_concat,
        v.book_of_isReleased hSound _ hReleased,
        (v.nothing_moved_of_isReleased hSound hReleased).2,
        List.append_nil]
      refine ⟨rest, hKept, fun hThere => ?_⟩
      rw [hAfter.mpr (.inl hReleased)] at hThere
      exact Bool.noConfusion hThere
  | false =>
      have hBalance := hRest hReleased ▸ hKept
      by_cases hCall : v.call = .clear
      · -- A clear strikes out the unread bytes and leaves none.
        rcases v.unread_of_clear hSound s hCall with
          ⟨hUnread, hDelivered⟩
        rw [hBalanced.kept_of_clear hCall] at hBalance
        rw [delivered_concat, hDelivered, List.append_nil,
          hUnread]
        refine ⟨[], ?_, fun _ => rfl⟩
        rw [List.append_nil]
        exact List.append_cancel_right hBalance
      · rw [kept_concat, Visit.book, if_neg hCall,
          delivered_concat, hBalance]
        by_cases hCloses : v.closes s
        · -- What is unread at the close stays undelivered.
          rcases v.nothing_moved_of_closes hSound hCloses with
            ⟨hAccepted, hDelivered⟩
          rw [hAccepted, hDelivered, List.append_nil,
            List.append_nil]
          refine ⟨_, rfl, fun hThere => ?_⟩
          rw [hAfter.mpr (.inr hCloses)] at hThere
          exact Bool.noConfusion hThere
        · refine ⟨_, ?_, fun _ => rfl⟩
          rw [List.append_assoc,
            v.unread_append_accepted hSound s hCall hCloses,
            List.append_assoc]

variable [DecidableEq ι]

/- After every run the books agree with the pipe. -/
theorem Run.balanced
    {seat : ι → Side}
    {nameA nameB : String}
    {capacity : Nat}
    {routines : (i : ι) → Routine endpointInterface (R i)}
    {log : List (Visit ι)}
    {t : Traffic R}
    (hRun :
      Run seat (new (.pair nameA nameB capacity) routines) log t)
    (s : Side) :
    Balanced s log t.pipe := by
  apply hRun.pipe_induction (motive := Balanced s)
  · refine ⟨Pipe.Sound.pair nameA nameB capacity, [], rfl, ?_⟩
    intro _
    cases s <;> rfl
  · exact fun _ _ => Balanced.visit

/- The books agreed with the pipe whenever a visit began. -/
theorem Run.balanced_before
    {seat : ι → Side}
    {nameA nameB : String}
    {capacity : Nat}
    {routines : (i : ι) → Routine endpointInterface (R i)}
    {log : List (Visit ι)}
    {t : Traffic R}
    (hRun :
      Run seat (new (.pair nameA nameB capacity) routines) log t)
    (s : Side) :
    ∀ earlier v later, log = earlier ++ v :: later →
      Balanced s earlier v.before := by
  induction hRun with
  | refl => simp
  | @advance log t i began now _ _ hRun ih =>
      intro earlier v later hLog
      rcases t.advance_cases seat i began now with
        ⟨hStep, -⟩ | ⟨w, hStep, -, -, hBefore, -⟩
      · rw [hStep, List.append_nil] at hLog
        exact ih earlier v later hLog
      · rw [hStep] at hLog
        rcases later.eq_nil_or_concat with rfl | ⟨later, u, rfl⟩
        · rcases List.append_inj' hLog rfl with ⟨rfl, hLast⟩
          have hSame : w = v := by simpa using hLast
          subst hSame
          rw [hBefore]
          exact hRun.balanced s
        · rw [List.concat_eq_append, ← List.cons_append,
            ← List.append_assoc] at hLog
          rcases List.append_inj' hLog rfl with ⟨hLog, -⟩
          exact ih earlier v later hLog

/-
  Where nothing was closed or cleared, all that was accepted was
  delivered or is unread.
-/
theorem Run.delivered_append_unread
    {seat : ι → Side}
    {nameA nameB : String}
    {capacity : Nat}
    {routines : (i : ι) → Routine endpointInterface (R i)}
    {log : List (Visit ι)}
    {t : Traffic R}
    (hRun :
      Run seat (new (.pair nameA nameB capacity) routines) log t)
    (hCall : ∀ v ∈ log, v.call ≠ .clear)
    (hOpen : ∀ v ∈ log, ∀ s, ¬ v.closes s)
    (s : Side) :
    delivered s log ++ (t.pipe.queues.get s).unread =
      accepted s log := by
  rcases (hRun.balanced s).balance with ⟨rest, hKept, hRest⟩
  have hReleased := hRun.isReleased_eq_false (s := s)
    fun v hMember => hOpen v hMember s
  rw [kept_eq_accepted s hCall, hRest hReleased] at hKept
  exact hKept.symm

------------------------------------------------------------
-- The pipe is faithful
------------------------------------------------------------

/-
  For every capacity, any number of parties with whatever
  routines, and every order of their holds of the lock: as long
  as the end at side `s` is not closed, what it was delivered
  and what is unread is what was accepted for it, in order,
  less what was unread at each clear. Once it is closed, what
  it was delivered stays a prefix of that.
-/
theorem Run.delivered_append_unread_eq_kept
    {seat : ι → Side}
    {nameA nameB : String}
    {capacity : Nat}
    {routines : (i : ι) → Routine endpointInterface (R i)}
    {log : List (Visit ι)}
    {t : Traffic R}
    (hRun :
      Run seat (new (.pair nameA nameB capacity) routines) log t)
    (s : Side) :
    ((∀ v ∈ log, ¬ v.closes s) →
      delivered s log ++ (t.pipe.queues.get s).unread =
        kept s log) ∧
    delivered s log <+: kept s log ∧
    ∀ earlier v later,
      log = earlier ++ v :: later → v.call = .clear →
        kept s earlier =
          kept s (earlier ++ [v]) ++
            (v.before.queues.get s).unread := by
  rcases hRun.balanced s with ⟨-, rest, hKept, hRest⟩
  refine ⟨?_, ⟨rest, hKept.symm⟩, ?_⟩
  · intro hOpen
    rw [hKept, hRest (hRun.isReleased_eq_false hOpen)]
  · intro earlier v later hLog hCall
    exact (hRun.balanced_before s earlier v later
      hLog).kept_of_clear hCall

/-
  Three bytes on their way through a pipe for two, of which the
  second is cleared away before it is read.
-/
def clearingRoutines :
    Side → Routine endpointInterface Unit
  | .a => (Endpoint.put [1, 2, 3]).bind fun _ => .done ()
  | .b =>
    (Endpoint.recv 1).bind fun _ =>
      (Endpoint.call .clear).bind fun _ =>
        (Endpoint.recv 5).bind fun _ => .done ()

/- The order in which the three bytes go their way. -/
def clearingRun :
    List (Visit Side) × Traffic (fun _ : Side => Unit) :=
  play id [.a, .b, .b, .a, .b]
    (new (.pair "left" "right" 2) clearingRoutines)

theorem delivered_append_unread_eq_kept_of_clearing :
    accepted .b clearingRun.1 = [1, 2, 3] ∧
    kept .b clearingRun.1 = [1, 3] ∧
    delivered .b clearingRun.1 ++
        (clearingRun.2.pipe.queues.get .b).unread =
      kept .b clearingRun.1 := by
  refine ⟨by decide, by decide, ?_⟩
  apply (Run.delivered_append_unread_eq_kept
    (run_play id _ _) .b).1
  decide

end Traffic

end Parley
