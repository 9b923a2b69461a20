import Parley.Proofs.Engine.Invariant
import Parley.Proofs.Script.Parts
/-
  This file records what the runs of an engine exchange with the
  link, next to the log of the bench. What is exchanged is known
  from the threads alone: only a thread that carries out a
  script uses the link.

  A step of the bench is one of a thread, which goes on with
  what is left of its script; or it is one of a few others, of
  which only a start that succeeds has to do with threads.

  Key definitions include:
    * `Status.rest`
    * `Routine.GoesOn`
    * `World.exchanged`
    * `FixedLink.Follows`
    * `Bench.Recorded`
    * `Bench.turns`
    * `Bench.Did`

  Key theorems include:
    * `World.stepThread_of_thread`
    * `Routine.GoesOn.ends_iff`
    * `Bench.recorded_play`
    * `Bench.InOrder.did`
-/

namespace Parley

------------------------------------------------------------
-- What a step of a thread exchanges
------------------------------------------------------------

/- What a thread has still to do. -/
def Status.rest
    {V : Type} :
    Status V → Routine threadInterface (Option V)
  | .ready p => p
  | .held a _ k => .ask a k

/-
  A routine goes on by one step at most; so much is exchanged
  with it.
-/
inductive Routine.GoesOn
    {α : Type} :
    Routine threadInterface α → List Exchange →
      Routine threadInterface α → Prop where
  | rests
      (p : Routine threadInterface α) :
      GoesOn p [] p
  | unrolls
      {σ β : Type}
      (body : σ → Routine threadInterface (σ ⊕ β))
      (s : σ)
      (k : β → Routine threadInterface α) :
      GoesOn (.loop body s k) [] (unroll body s k)
  | asks
      (a : Act)
      (k : a.Answer → Routine threadInterface α)
      (r : a.Answer) :
      GoesOn (.ask a k) [⟨a, r⟩] (k r)

namespace World

variable {V : Type}

/- What is exchanged when an act has come to this. -/
def answered
    {a : Act} : a.Answer ⊕ Hold → List Exchange
  | .inl r => [⟨a, r⟩]
  | .inr _ => []

/- What is exchanged with the next step of a thread. -/
def exchangedBy
    (w : World V) : Status V → List Exchange
  | .ready (.ask a _) => answered (a := a) (w.start a).1
  | .held a hold _ => answered (w.resume a hold).1
  | _ => []

/- What is exchanged with a step of the thread at a place. -/
def exchanged
    (w : World V)
    (i : Nat) : List Exchange :=
  match w.threads[i]? with
  | some t => w.exchangedBy t.status
  | none => []

/-
  What a step does if there is a thread: it is over, or it goes
  on and touches nothing but the pipe.
-/
theorem stepThread_of_thread
    {w : World V}
    {i : Nat}
    {t : Thread V}
    (hThread : w.threads[i]? = some t) :
    (∃ answer, t.status = .ready (.done answer) ∧
        w.exchanged i = []) ∨
      ∃ pipe status,
        w.stepThread i =
          (none, { w with pipe := pipe }.setThread i
            ⟨t.ticket, status⟩) ∧
        t.status.rest.GoesOn (w.exchanged i) status.rest := by
  rcases t with ⟨ticket, status⟩
  simp only [stepThread, exchanged, hThread]
  rcases status with ⟨answer | ⟨a, k⟩ | ⟨body, s, k⟩⟩ |
    ⟨a, hold, k⟩
  · exact .inl ⟨answer, rfl, rfl⟩
  · rcases w.start_world a with ⟨pipe, hWorld⟩
    rcases hStart : w.start a with ⟨r | hold, w'⟩
    · rw [hStart] at hWorld
      subst hWorld
      refine .inr ⟨pipe, .ready (k r), ?_, ?_⟩
      · simp only [stepOf, hStart, concludeAct]
      · simp only [exchangedBy, hStart]
        exact .asks a k r
    · rw [hStart] at hWorld
      subst hWorld
      refine .inr ⟨pipe, .held a hold k, ?_, ?_⟩
      · simp only [stepOf, hStart, concludeAct]
      · simp only [exchangedBy, hStart]
        exact .rests _
  · exact .inr ⟨w.pipe, _, rfl, .unrolls body s k⟩
  · rcases w.resume_world a hold with ⟨pipe, hWorld⟩
    rcases hResume : w.resume a hold with ⟨r | hold', w'⟩
    · rw [hResume] at hWorld
      subst hWorld
      refine .inr ⟨pipe, .ready (k r), ?_, ?_⟩
      · simp only [stepOf, hResume, concludeAct]
      · simp only [exchangedBy, hResume]
        exact .asks a k r
    · rw [hResume] at hWorld
      subst hWorld
      refine .inr ⟨pipe, .held a hold' k, ?_, ?_⟩
      · simp only [stepOf, hResume, concludeAct]
      · simp only [exchangedBy, hResume]
        exact .rests _

end World

namespace FixedLink

variable {link : FixedLink} {held xs ys : List Exchange}

/-
  What is exchanged after `held` is what the link answers at
  each point.
-/
def Follows
    (link : FixedLink) : List Exchange → List Exchange → Prop
  | _, [] => True
  | held, x :: xs =>
    x.2 = link held x.1 ∧ link.Follows (held ++ [x]) xs

/- Of two parts the second comes after the first. -/
theorem follows_append :
    link.Follows held (xs ++ ys) ↔
      link.Follows held xs ∧ link.Follows (held ++ xs) ys := by
  induction xs generalizing held with
  | nil => simp [Follows]
  | cons x xs ih => simp [Follows, ih, and_assoc]

end FixedLink

/-
  Over a fixed link a routine ends as what is left of it does,
  with what was exchanged on the way.
-/
theorem Routine.GoesOn.ends_iff
    {α : Type}
    {link : FixedLink}
    {p p' : Routine threadInterface α}
    {held xs held' : List Exchange}
    {a : α}
    (hGoes : p.GoesOn xs p')
    (hFollows : link.Follows held xs) :
    p'.Ends link.environment (held ++ xs) a held' ↔
      p.Ends link.environment held a held' := by
  cases hGoes with
  | rests => rw [List.append_nil]
  | unrolls body s k =>
      rw [List.append_nil]
      constructor
      · exact .loop
      · rintro (_ | _ | hEnds)
        exact hEnds
  | asks act k r =>
      have hAnswer : r = link held act := hFollows.1
      subst hAnswer
      constructor
      · exact .ask ⟨rfl, rfl⟩
      · rintro (_ | ⟨⟨rfl, rfl⟩, hEnds⟩ | _)
        exact hEnds

namespace Bench

variable {κ : Codec} {θ : Tls.Provider} {ε α : Type}
variable {log : List (Event κ θ ε α)} {b b₀ : Bench κ θ ε α}
variable {e₀ : Engine κ θ} {t : Ticket}

------------------------------------------------------------
-- Records
------------------------------------------------------------

/- What is exchanged with a step of the bench. -/
def exchanged
    (b : Bench κ θ ε α) : Choice κ θ ε α → List Exchange
  | .runner i => b.world.exchanged i
  | _ => []

/-
  A run of the bench of which it is also recorded what was
  exchanged.
-/
inductive Recorded
    (b₀ : Bench κ θ ε α) :
    List (Event κ θ ε α) → List Exchange →
      Bench κ θ ε α → Prop where
  | refl : Recorded b₀ [] [] b₀
  | step
      {log : List (Event κ θ ε α)}
      {held : List Exchange}
      {b : Bench κ θ ε α}
      (choice : Choice κ θ ε α)
      (hRecorded : Recorded b₀ log held b) :
      Recorded b₀ (log ++ (b.step choice).1)
        (held ++ b.exchanged choice) (b.step choice).2

/- It is a run of the bench. -/
theorem Recorded.run
    {held : List Exchange}
    (hRecorded : Recorded b₀ log held b) :
    Run b₀ log b := by
  induction hRecorded with
  | refl => exact .refl
  | step choice _ ih => exact .step choice ih

/- What is exchanged when a list of choices is followed. -/
def playExchanged :
    List (Choice κ θ ε α) → Bench κ θ ε α → List Exchange
  | [], _ => []
  | choice :: choices, b =>
    b.exchanged choice ++ playExchanged choices (b.step choice).2

/- Choices that are followed are recorded. -/
theorem recorded_play
    (choices : List (Choice κ θ ε α))
    (b : Bench κ θ ε α) :
    Recorded b (b.play choices).1 (playExchanged choices b)
      (b.play choices).2 := by
  have hFrom : ∀ log held c, Recorded b log held c →
      Recorded b (log ++ (c.play choices).1)
        (held ++ playExchanged choices c)
        (c.play choices).2 := by
    induction choices with
    | nil =>
        intro log held c hRecorded
        rw [play, playExchanged, List.append_nil, List.append_nil]
        exact hRecorded
    | cons choice choices ih =>
        intro log held c hRecorded
        simp only [play, playExchanged, ← List.append_assoc]
        exact ih _ _ _ (hRecorded.step choice)
  exact hFrom [] [] b .refl

------------------------------------------------------------
-- What a step does
------------------------------------------------------------

/- A call that is over, with its result. -/
abbrev Turn (κ : Codec) (θ : Tls.Provider) (ε α : Type) :=
  (call : EngineCall κ θ ε α) × call.Result

/- A start that has succeeded. -/
abbrev begun
    (order : Order κ θ) : Turn κ θ ε α :=
  ⟨.start order, .ok ()⟩

/- A join that has succeeded. -/
abbrev met
    (client : Except ε α)
    (value : α) : Turn κ θ ε α :=
  ⟨.join client, .ok value⟩

/- The calls that are over, in order. -/
def turns
    (log : List (Event κ θ ε α)) : List (Turn κ θ ε α) :=
  log.filterMap fun
    | .called call _ result _ => some ⟨call, result⟩
    | _ => none

/-
  What a step that is not one of a thread does: nothing for the
  threads and the engine; or a call is over, and it was no start
  that has succeeded; or a start has, and with it there is a
  thread for its script, or the report of one that makes no
  sense.
-/
inductive Did
    (log : List (Event κ θ ε α))
    (b : Bench κ θ ε α) :
    List (Event κ θ ε α) × Bench κ θ ε α → Prop where
  | quiet
      {b' : Bench κ θ ε α}
      (hThreads : b'.world.threads = b.world.threads)
      (hEngine : b'.engine = b.engine) :
      Did log b ([], b')
  | called
      {call : EngineCall κ θ ε α}
      {result : call.Result}
      {after : Engine κ θ}
      {w : World (Report κ θ)}
      (hPlain : ∀ order, (⟨call, result⟩ : Turn κ θ ε α) ≠
        begun order)
      (hThreads : w.threads = b.world.threads)
      (hAnswers : Answers log b.engine call result after) :
      Did log b
        ([.called call b.engine result after], ⟨w, .free after⟩)
  | spawned
      {order : Order κ θ}
      {s : Surrogate κ θ}
      {script : Script κ θ}
      {t : Ticket}
      {w : World (Report κ θ)}
      (hSource : Source log b.engine s)
      (hParse : order.parse = .ok script)
      (hNone : b.world.threads = [])
      (hThreads : w.threads =
        [⟨t, .ready (Engine.runner s script)⟩])
      (hReports : reports t log = []) :
      Did log b
        ([.spawned t (Engine.runner s script),
          .called (.start order) b.engine (.ok ())
            { b.engine with state := .running t }],
          ⟨w, .free { b.engine with state := .running t }⟩)
  | malformed
      {order : Order κ θ}
      {s : Surrogate κ θ}
      {error : ScriptError}
      {t : Ticket}
      {w : World (Report κ θ)}
      (hSource : Source log b.engine s)
      (hParse : order.parse = .error error)
      (hNone : b.world.threads = [])
      (hThreads : w.threads = [])
      (hReports : reports t log = []) :
      Did log b
        ([.resolved t ⟨s, .failed error⟩,
          .called (.start order) b.engine (.ok ())
            { b.engine with state := .running t }],
          ⟨w, .free { b.engine with state := .running t }⟩)

/- A call that is made is over at once, or nothing is done. -/
theorem did_call
    {w : World (Report κ θ)}
    (e : Engine κ θ)
    (call : EngineCall κ θ ε α) :
    Did log ⟨w, .free e⟩
      (conclude w e call (.ready (call.routine e))) := by
  cases call with
  | surrogate => exact .called nofun rfl .looked
  | start order =>
      cases hState : e.state with
      | idle s =>
          rw [Engine.routine_start_of_idle order hState]
          exact .quiet rfl rfl
      | running t =>
          rw [Engine.routine_start_of_running order hState]
          exact .quiet rfl rfl
      | lost =>
          rw [Engine.routine_start_of_lost order hState]
          exact .called nofun rfl (.notStarted hState)
  | join client =>
      change Did log _
        (conclude w e (.join client) (.ready (e.join client)))
      cases hState : e.state with
      | idle s =>
          rw [Engine.join_of_idle client hState]
          exact .called nofun rfl (.notRunning hState)
      | running t =>
          rw [Engine.join_of_running client hState]
          exact .quiet rfl rfl
      | lost =>
          rw [Engine.join_of_lost client hState]
          exact .called nofun rfl (.notJoined hState)

section

variable {w : World (Report κ θ)} {before : Engine κ θ}

/- What the owner does who goes on with a start. -/
theorem Attends.did_goOn_start
    {order : Order κ θ}
    {status : World.MainStatus (Report κ θ)
      (Except (EngineError ε) Unit × Engine κ θ)}
    (hAttends :
      Attends (α := α) log w before (.start order) status) :
    Did log ⟨w, .busy before (.start order) status⟩
      (goOn ⟨w, .busy before (.start order) status⟩) := by
  cases hAttends with
  | @asking _ t hState hOut =>
      cases hOut with
      | lent status hThreads hSlot hReports =>
          have hMove := World.startMove_poll_of_new hSlot
          have hSame :
              before.found (ε := ε) t order.parse .pending =
                .done (.error .runInFlight, before) := by
            unfold Engine.found Engine.fail
            rw [← hState]
          rw [goOn_of_answered hMove, hSame]
          exact .called nofun rfl (.inFlight hState hReports)
      | left report hThreads hSlot hReports =>
          have hMove := World.startMove_poll_of_filled hSlot
          rw [goOn_of_answered hMove]
          exact .quiet rfl rfl
  | holding hSource hThreads =>
      have hMove : w.startMove (.oneshot (some Engine.seat)) =
          (.inl w.slots.length,
            { w with
              slots := w.slots ++ [⟨.new, some Engine.seat⟩] }) :=
        rfl
      unfold Engine.prepare
      rw [goOn_of_answered hMove]
      cases hParse : order.parse <;> exact .quiet rfl rfl
  | launching hSource hThreads hSlot hFresh =>
      have hReports := reports_eq_nil_of_not_mentions hFresh
      cases hParse : order.parse with
      | ok script =>
          refine .spawned hSource hParse hThreads ?_ hReports
          simp [hThreads]
      | error error =>
          refine .malformed hSource hParse hThreads ?_ hReports
          simp [hThreads]

/- What the owner does who goes on with a join. -/
theorem Attends.did_goOn_join
    {client : Except ε α}
    {status : World.MainStatus (Report κ θ)
      (Except (EngineError ε) α × Engine κ θ)}
    (hAttends : Attends log w before (.join client) status) :
    Did log ⟨w, .busy before (.join client) status⟩
      (goOn ⟨w, .busy before (.join client) status⟩) := by
  cases hAttends with
  | @meeting _ t hState hOut =>
      have hMove : w.startMove (.wait t before.joinTimeout) =
          (.inr (.oneshot
            (Instant.after? w.clock before.joinTimeout)), w) :=
        rfl
      rw [goOn_of_held hMove]
      exact .quiet rfl rfl
  | @waiting _ t limit hState hOut =>
      cases hOut with
      | lent status hThreads hSlot hReports =>
          rcases World.resumeMove_wait_of_pending limit
              (World.poll_of_new hSlot) with hMove | hMove
          · rw [goOn_of_resumed hMove]
            exact .quiet rfl rfl
          · rw [goOn_of_waiting hMove]
            exact .quiet rfl rfl
      | left report hThreads hSlot hReports =>
          have hMove := World.resumeMove_wait_of_ready
            (d := before.joinTimeout) limit
            (World.poll_of_filled hSlot)
          rw [goOn_of_resumed hMove]
          exact .called nofun rfl (.joined hState hReports
            (Engine.combine_eq_ok_iff report.outcome client)
            Engine.combine_eq_error)
  | @leaving _ t hState =>
      have hThreads := w.dropPending_threads t
      exact .called nofun hThreads (.timedOut hState)

/- What the owner does when no thread can be started. -/
theorem Attends.did_refuse
    {call : EngineCall κ θ ε α}
    {status :
      World.MainStatus (Report κ θ) (call.Result × Engine κ θ)}
    (hAttends : Attends log w before call status)
    (error : IoError) :
    Did log ⟨w, .busy before call status⟩
      (refuse ⟨w, .busy before call status⟩ error) := by
  cases hAttends with
  | @launching order s t hSource hThreads hSlot hFresh =>
      cases hParse : order.parse with
      | ok script =>
          exact .called nofun (by simp [World.modifySlot])
            (.notSpawned hSource hParse)
      | error flaw => exact .quiet rfl rfl
  | asking hState hOut => exact .quiet rfl rfl
  | holding hSource hThreads => exact .quiet rfl rfl
  | meeting hState hOut => exact .quiet rfl rfl
  | waiting hState hOut => exact .quiet rfl rfl
  | leaving hState => exact .quiet rfl rfl

end

/- What anybody but a thread does. -/
theorem InOrder.did
    {choice : Choice κ θ ε α}
    (hOrder : InOrder e₀ log b)
    (hChoice : ∀ i, choice ≠ .runner i) :
    Did log b (b.step choice) := by
  rcases b with ⟨w, e | ⟨before, call, status⟩⟩
  · cases choice with
    | call call => exact did_call e call
    | goOn => exact .quiet rfl rfl
    | refuse error => exact .quiet rfl rfl
    | runner i => exact absurd rfl (hChoice i)
    | outside pipe clock => exact .quiet rfl rfl
  · have hAttends : Attends log w before call status :=
      hOrder.seated
    cases choice with
    | call other => exact .quiet rfl rfl
    | goOn =>
        cases call with
        | start order => exact hAttends.did_goOn_start
        | join client => exact hAttends.did_goOn_join
        | surrogate => cases hAttends
    | refuse error => exact hAttends.did_refuse error
    | runner i => exact absurd rfl (hChoice i)
    | outside pipe clock => exact .quiet rfl rfl

end Bench

end Parley
