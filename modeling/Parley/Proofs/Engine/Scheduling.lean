import Parley.Proofs.Engine.Bench
/-
  This file ties the bench to the clock that plays
  conversations. There every thread runs until it has to wait,
  and the clock moves when all wait; on the bench everybody goes
  on when he is chosen. A call that is played is a run of the
  bench, so what holds in every run of it holds there.

  Key definitions include:
    * `World.putBack`
    * `Bench.Leads`

  Key theorems include:
    * `Bench.Run.append`
    * `Bench.run_of_advance`
    * `Bench.run_of_advanceFirst`
    * `Bench.leads_of_run`
    * `Bench.run_of_call`
-/

namespace Parley

------------------------------------------------------------
-- Threads in their places
------------------------------------------------------------

namespace World

variable {V : Type}

/- Put a thread back into its place, or take it away. -/
def putBack
    (w : World V)
    (i : Nat) : Option (Thread V) → World V
  | some t => w.setThread i t
  | none => w.removeThread i

@[simp] theorem setThread_setThread
    (w : World V)
    (i : Nat)
    (t t' : Thread V) :
    (w.setThread i t).setThread i t' = w.setThread i t' := by
  simp [setThread]

@[simp] theorem removeThread_setThread
    (w : World V)
    (i : Nat)
    (t : Thread V) :
    (w.setThread i t).removeThread i = w.removeThread i := by
  simp [setThread, removeThread, List.eraseIdx_set_eq]

/- Acts do not look at the threads. -/
theorem look_setThread
    (w : World V)
    (i : Nat)
    (t : Thread V)
    (side : Side)
    (call : Call)
    (stage : Call.Stage) :
    (w.setThread i t).look side call stage =
      ((w.look side call stage).1,
        (w.look side call stage).2.setThread i t) := by
  unfold look setThread
  dsimp only
  split <;> rfl

theorem start_setThread
    (w : World V)
    (i : Nat)
    (t : Thread V)
    (a : Act) :
    (w.setThread i t).start a =
      ((w.start a).1, (w.start a).2.setThread i t) := by
  cases a with
  | on side call => exact w.look_setThread i t side call _
  | sleep d => rfl

theorem resume_setThread
    (w : World V)
    (i : Nat)
    (t : Thread V)
    (a : Act)
    (hold : Hold) :
    (w.setThread i t).resume a hold =
      ((w.resume a hold).1,
        (w.resume a hold).2.setThread i t) := by
  cases a with
  | on side call =>
      rcases hold with ⟨stage, seen⟩ | moment
      · exact w.look_setThread i t side call stage
      · exact w.look_setThread i t side call _
  | sleep d => rfl

theorem resolve_setThread
    (w : World V)
    (i : Nat)
    (t : Thread V)
    (u : Ticket)
    (v : V) :
    (w.setThread i t).resolve u v =
      (w.resolve u v).setThread i t := by
  unfold resolve
  dsimp only [setThread]
  split
  · rfl
  · dsimp only [modifySlot]
    split
    · rfl
    · next slot _ _ => cases slot.carries <;> rfl

/- What is in a one-shot does not depend on them either. -/
theorem concludeAct_setThread
    {a : Act}
    (i : Nat)
    (ticket : Ticket)
    (t : Thread V)
    (k : a.Answer → Routine threadInterface (Option V))
    (r : a.Answer ⊕ Hold)
    (w : World V) :
    concludeAct i ticket a k (r, w.setThread i t) =
      concludeAct i ticket a k (r, w) := by
  unfold concludeAct
  rcases r with r | hold
  · exact w.setThread_setThread i t _
  · exact w.setThread_setThread i t _

/- A step does not depend on what was in the place before. -/
theorem stepOf_setThread
    (w : World V)
    (i : Nat)
    (t t' : Thread V) :
    (w.setThread i t).stepOf i t' = w.stepOf i t' := by
  unfold stepOf
  split
  · rw [resolve_setThread, removeThread_setThread]
  · exact congrArg (Prod.mk none)
      ((w.modifySlot _ _).removeThread_setThread i t)
  · rw [setThread_setThread]
  · next a k _ =>
      apply congrArg (Prod.mk none)
      exact (congrArg (concludeAct i _ a k)
        (w.start_setThread i t a)).trans
          (concludeAct_setThread i _ t k _ _)
  · next a hold k _ =>
      apply congrArg (Prod.mk none)
      exact (congrArg (concludeAct i _ a k)
        (w.resume_setThread i t a hold)).trans
          (concludeAct_setThread i _ t k _ _)

/- A thread that was just put into its place goes on. -/
theorem stepThread_setThread
    {w : World V}
    {i : Nat}
    (t : Thread V)
    (hPlace : i < w.threads.length) :
    (w.setThread i t).stepThread i = w.stepOf i t := by
  have hThread : (w.setThread i t).threads[i]? = some t := by
    simp [setThread, hPlace]
  unfold stepThread
  rw [hThread]
  exact w.stepOf_setThread i t t

end World

------------------------------------------------------------
-- Threads that are played
------------------------------------------------------------

namespace Bench

variable {κ : Codec} {θ : Tls.Provider} {ε α : Type}
variable {b₀ b b' : Bench κ θ ε α}
variable {log later : List (Event κ θ ε α)}
variable {w w' : World (Report κ θ)} {desk : Desk κ θ ε α}

/- Runs can be put together. -/
theorem Run.append
    (hFirst : Run b₀ log b)
    (hSecond : Run b later b') :
    Run b₀ (log ++ later) b' := by
  induction hSecond with
  | refl =>
      rw [List.append_nil]
      exact hFirst
  | step choice hRun ih =>
      rw [← List.append_assoc]
      exact ih.step choice

/- One step, and then a run. -/
theorem Run.after
    (choice : Choice κ θ ε α)
    (hRun : Run (b₀.step choice).2 later b) :
    Run b₀ ((b₀.step choice).1 ++ later) b := by
  have hFirst : Run b₀ ([] ++ (b₀.step choice).1) _ :=
    Run.refl.step choice
  rw [List.nil_append] at hFirst
  exact hFirst.append hRun

/- A step of the thread at a place, and then a run. -/
theorem Run.after_stepOf
    {i : Nat}
    {t : Thread (Report κ θ)}
    {report : Option (Ticket × Report κ θ)}
    (hPlace : i < w.threads.length)
    (hStep : w.stepOf i t = (report, w'))
    (hRun : Run ⟨w', desk⟩ later b) :
    ∃ log, Run ⟨w.setThread i t, desk⟩ log b := by
  have hFirst :
      ((⟨w.setThread i t, desk⟩ : Bench κ θ ε α).step
        (.runner i)).2 = ⟨w', desk⟩ := by
    unfold Bench.step
    dsimp only
    rw [World.stepThread_setThread t hPlace, hStep]
  rw [← hFirst] at hRun
  exact ⟨_, hRun.after (.runner i)⟩

/-
  A thread that is played until it has to wait takes steps of
  the bench.
-/
theorem run_of_advance
    {fuel i : Nat}
    {t : Thread (Report κ θ)}
    {next : Option (Thread (Report κ θ))}
    (hPlace : i < w.threads.length)
    (hAdvance : World.advance fuel w t = some (w', next)) :
    ∃ log, Run (⟨w.setThread i t, desk⟩ : Bench κ θ ε α) log
      ⟨w'.putBack i next, desk⟩ := by
  induction fuel generalizing w t with
  | zero => cases hAdvance
  | succ fuel ih =>
      -- the first step goes on with the thread as it is then
      have hGoesOn : ∀ w₁ t₁, w₁.threads = w.threads →
          w.stepOf i t = (none, w₁.setThread i t₁) →
          World.advance fuel w₁ t₁ = some (w', next) →
          ∃ log, Run (⟨w.setThread i t, desk⟩ : Bench κ θ ε α) log
            ⟨w'.putBack i next, desk⟩ := by
        intro w₁ t₁ hThreads hStep hRest
        rcases ih (hThreads ▸ hPlace) hRest with ⟨later, hRun⟩
        exact hRun.after_stepOf hPlace hStep
      -- or it is the last
      have hEnds : ∀ report,
          w.stepOf i t = (report, w'.putBack i next) →
          ∃ log, Run (⟨w.setThread i t, desk⟩ : Bench κ θ ε α) log
            ⟨w'.putBack i next, desk⟩ := by
        intro report hStep
        exact Run.refl.after_stepOf hPlace hStep
      -- an act is answered, or the thread waits in it
      have hAnswered : ∀ (a : Act)
          (k : a.Answer →
            Routine threadInterface (Option (Report κ θ)))
          (r : a.Answer) (w₁ : World (Report κ θ)),
          (∃ pipe, w₁ = { w with pipe := pipe }) →
          w.stepOf i t =
            (none, World.concludeAct i t.ticket a k (.inl r, w₁)) →
          World.advance fuel w₁ ⟨t.ticket, .ready (k r)⟩ =
            some (w', next) →
          ∃ log, Run (⟨w.setThread i t, desk⟩ : Bench κ θ ε α) log
            ⟨w'.putBack i next, desk⟩ := by
        rintro a k r w₁ ⟨pipe, rfl⟩ hStep hRest
        exact hGoesOn { w with pipe := pipe }
          ⟨t.ticket, .ready (k r)⟩ rfl hStep hRest
      rcases t with ⟨ticket, status⟩
      unfold World.advance at hAdvance
      dsimp only at hAdvance
      split at hAdvance
      · next a hold k =>
          have hWorld := w.resume_world a hold
          split at hAdvance
          · next r w₁ hOutcome =>
              rw [hOutcome] at hWorld
              refine hAnswered a k r w₁ hWorld ?_ hAdvance
              rw [← hOutcome]
              rfl
          · next hold' w₁ hOutcome =>
              cases hAdvance
              refine hEnds none ?_
              unfold World.stepOf
              dsimp only
              rw [hOutcome]
              rfl
      · next v =>
          cases hAdvance
          exact hEnds (some (ticket, v)) rfl
      · cases hAdvance
        exact hEnds none rfl
      · next body s k =>
          exact hGoesOn w _ rfl rfl hAdvance
      · next a k =>
          have hWorld := w.start_world a
          split at hAdvance
          · next r w₁ hOutcome =>
              rw [hOutcome] at hWorld
              refine hAnswered a k r w₁ hWorld ?_ hAdvance
              rw [← hOutcome]
              rfl
          · next hold' w₁ hOutcome =>
              cases hAdvance
              refine hEnds none ?_
              unfold World.stepOf
              dsimp only
              rw [hOutcome]
              rfl

/- So does the thread that is let go on first. -/
theorem run_of_advanceFirst
    {fuel : Nat}
    (hAdvance : World.advanceFirst fuel w = some (some w')) :
    ∃ log, Run (⟨w, desk⟩ : Bench κ θ ε α) log ⟨w', desk⟩ := by
  unfold World.advanceFirst at hAdvance
  split at hAdvance
  · cases hAdvance
  · next i hFirst =>
      split at hAdvance
      · cases hAdvance
      · next t hThread =>
          have hPlace : i < w.threads.length :=
            (List.getElem?_eq_some_iff.mp hThread).1
          have hSame : w.setThread i t = w := by
            unfold World.setThread
            rw [← (List.getElem?_eq_some_iff.mp hThread).2,
              List.set_getElem_self]
          have hRun : ∀ w₁ next,
              World.advance fuel w t = some (w₁, next) →
              w₁.putBack i next = w' →
              ∃ log, Run (⟨w, desk⟩ : Bench κ θ ε α) log
                ⟨w', desk⟩ := by
            rintro w₁ next hSteps rfl
            rw [← hSame]
            exact run_of_advance hPlace hSteps
          split at hAdvance
          · cases hAdvance
          · next w₁ hSteps =>
              cases hAdvance
              exact hRun w₁ none hSteps rfl
          · next w₁ t₁ hSteps =>
              cases hAdvance
              exact hRun w₁ (some t₁) hSteps rfl

------------------------------------------------------------
-- Calls that are played
------------------------------------------------------------

/-
  From a step there is a run to the end, and a given event is
  noted last.
-/
def Leads
    (outcome : List (Event κ θ ε α) × Bench κ θ ε α)
    (last : Event κ θ ε α)
    (b : Bench κ θ ε α) : Prop :=
  ∃ log more, Run outcome.2 log b ∧
    outcome.1 ++ log = more ++ [last]

section

variable {last : Event κ θ ε α}

/- More can be noted before. -/
theorem Leads.prepend
    {events : List (Event κ θ ε α)}
    (first : List (Event κ θ ε α))
    (hLeads : Leads (events, b) last b') :
    Leads (first ++ events, b) last b' := by
  rcases hLeads with ⟨log, more, hRun, hLog⟩
  refine ⟨log, first ++ more, hRun, ?_⟩
  rw [List.append_assoc, List.append_assoc, hLog]

/- A step can be taken before. -/
theorem Leads.after
    (choice : Choice κ θ ε α)
    (hLeads : Leads (b.step choice) last b') :
    Leads ([], b) last b' := by
  rcases hLeads with ⟨log, more, hRun, hLog⟩
  exact ⟨_, more, hRun.after choice, hLog⟩

/- The owner can have gone on before. -/
theorem Leads.of_goOn
    {outcome : List (Event κ θ ε α) × Bench κ θ ε α}
    (hLeads : Leads outcome last b')
    (hStep : b.goOn = outcome) :
    Leads ([], b) last b' := by
  rw [← hStep] at hLeads
  exact hLeads.after .goOn

/- And a whole run can have been there before. -/
theorem Leads.after_run
    (hRun : Run b₀ log b)
    (hLeads : Leads ([], b) last b') :
    Leads ([], b₀) last b' := by
  rcases hLeads with ⟨later, more, hLater, hLog⟩
  refine ⟨log ++ later, log ++ more, hRun.append hLater, ?_⟩
  rw [List.nil_append] at hLog ⊢
  rw [hLog, List.append_assoc]

end

/- What is played of a call from any point is a run from there. -/
theorem leads_of_run
    {fuel : Nat}
    {before after : Engine κ θ}
    {call : EngineCall κ θ ε α}
    {status :
      World.MainStatus (Report κ θ) (call.Result × Engine κ θ)}
    {result : call.Result}
    (hPlayed :
      World.run fuel w status = some ((result, after), w')) :
    Leads (conclude w before call status)
      (.called call before result after) ⟨w', .free after⟩ := by
  induction fuel generalizing w status with
  | zero => cases hPlayed
  | succ fuel ih =>
      rcases status with p | ⟨m, hold, k⟩
      · cases p with
        | done a =>
            cases hPlayed
            exact ⟨[], [], .refl, rfl⟩
        | loop body s k =>
            exact (ih hPlayed).after .goOn
        | ask m k =>
            unfold World.run at hPlayed
            split at hPlayed
            · next r w₁ hMove =>
                exact ((ih hPlayed).prepend (noted m)).of_goOn
                  (goOn_of_answered hMove)
            · next hold w₁ hMove =>
                exact (ih hPlayed).of_goOn (goOn_of_held hMove)
      · unfold World.run at hPlayed
        split at hPlayed
        · next r w₁ hMove =>
            exact (ih hPlayed).of_goOn (goOn_of_resumed hMove)
        · next hold' w₁ hMove =>
            refine Leads.of_goOn ?_ (goOn_of_waiting hMove)
            -- the others go on, or else the clock does
            split at hPlayed
            · cases hPlayed
            · next w₂ hFirst =>
                rcases run_of_advanceFirst hFirst with
                  ⟨log, hRun⟩
                exact (ih hPlayed).after_run hRun
            · split at hPlayed
              · cases hPlayed
              · next moment _ =>
                  split at hPlayed
                  · cases hPlayed
                  · exact (ih hPlayed).after
                      (.outside w₁.pipe moment)

/-
  A call that is played to its end is a run of the bench, and
  the call is noted last.
-/
theorem run_of_call
    {fuel : Nat}
    {before after : Engine κ θ}
    {call : EngineCall κ θ ε α}
    {result : call.Result}
    (hPlayed :
      World.run fuel w (.ready (call.routine before)) =
        some ((result, after), w')) :
    ∃ log, Run ⟨w, .free before⟩
      (log ++ [.called call before result after])
      ⟨w', .free after⟩ := by
  have hLeads : Leads
      ((⟨w, .free before⟩ : Bench κ θ ε α).step (.call call))
      (.called call before result after) ⟨w', .free after⟩ :=
    leads_of_run hPlayed
  rcases hLeads.after with ⟨log, more, hRun, hLog⟩
  rw [List.nil_append] at hLog
  exact ⟨more, hLog ▸ hRun⟩

end Bench

end Parley
