import Parley.Proofs.Engine.Contract
import Parley.Deflate.Codec
import Parley.Tls.Stream
/-
  This file says what becomes of the client's error where an
  engine meets its client. A join ends in one of five ways. The
  error travels along if a run was to be met, whatever became of
  the run, and beside it stands what is wrong with the script. A
  join without a run to be met says only that there is none: an
  error of the client is dropped.

  The engine and the world around it may be any; nothing is
  asked of how they have come about.

  Key definitions include:
    * `Bench.settled?`
    * `Bench.Exit`
    * `Bench.Joining`
    * `Bench.Reported`

  Key theorems include:
    * `Bench.joinKept_step`
    * `Bench.reported_of_run`
    * `Bench.dropped_client_error`
-/

namespace Parley

namespace Bench

variable {κ : Codec} {θ : Tls.Provider} {ε α : Type}
variable {log : List (Event κ θ ε α)} {w w' : World (Report κ θ)}
variable {b : Bench κ θ ε α} {before after : Engine κ θ}
variable {client : Except ε α}

------------------------------------------------------------
-- How a join ends
------------------------------------------------------------

/-
  What a join that waits for a run finds there if it goes on
  now.
-/
def settled?
    (b : Bench κ θ ε α) : Option (Settled (Report κ θ)) :=
  match b.desk with
  | .busy _ (.join _) (.held (.wait t _) (.oneshot _) _) =>
    some (b.world.poll t).1
  | _ => none

/-
  The ways in which a join ends, by what it has found last: no
  run is to be met, the run is over, it will never report, or it
  has not reported in time.
-/
inductive Exit
    (client : Except ε α)
    (before : Engine κ θ) :
    Option (Settled (Report κ θ)) →
      Except (EngineError ε) α → Engine κ θ → Prop where
  | notRunning
      {s : Surrogate κ θ}
      (hState : before.state = .idle s) :
      Exit client before none (.error .noActiveRun) before
  | lost
      (hState : before.state = .lost) :
      Exit client before none (.error .lost) before
  | collected
      {t : Ticket}
      (report : Report κ θ)
      (hState : before.state = .running t) :
      Exit client before (some (.ready report))
        (Engine.combine report.outcome client)
        { before with state := .idle report.surrogate }
  | abandoned
      {t : Ticket}
      (hState : before.state = .running t) :
      Exit client before (some .abandoned)
        (Engine.combine (.failed Engine.unreported) client)
        { before with state := .lost }
  | timedOut
      {t : Ticket}
      (hState : before.state = .running t) :
      Exit client before none
        (.error (.joinTimeout before.joinTimeout
          (Engine.errorOf client)))
        { before with state := .lost }

/- Where the owner can be in a join. -/
inductive Joining
    (before : Engine κ θ)
    (client : Except ε α) :
    World.MainStatus (Report κ θ)
      (Except (EngineError ε) α × Engine κ θ) → Prop where
  | meeting
      {t : Ticket}
      (hState : before.state = .running t) :
      Joining before client
        (.ready (.ask (.wait t before.joinTimeout)
          (before.met t client)))
  | waiting
      {t : Ticket}
      {limit : Option Instant}
      (hState : before.state = .running t) :
      Joining before client
        (.held (.wait t before.joinTimeout) (.oneshot limit)
          (before.met t client))
  | leaving
      {t : Ticket}
      (hState : before.state = .running t) :
      Joining before client
        (.ready (before.met t client .pending))

/- What holds of an owner who is in a join. -/
def InJoin : Desk κ θ ε α → Prop
  | .busy before (.join client) status =>
    Joining before client status
  | _ => True

/-
  A step keeps to this, and a join that is over with it has
  ended in one of the ways.
-/
def JoinKept
    (b : Bench κ θ ε α)
    (outcome : List (Event κ θ ε α) × Bench κ θ ε α) : Prop :=
  InJoin outcome.2.desk ∧
    ∀ client before result after,
      .called (.join client) before result after ∈ outcome.1 →
        Exit client before b.settled? result after

/- A join that goes on is still in one. -/
theorem joinKept_conclude_of_joining
    {status : World.MainStatus (Report κ θ)
      (Except (EngineError ε) α × Engine κ θ)}
    (hJoining : Joining before client status) :
    JoinKept b (conclude w before (.join client) status) := by
  have hConclude : conclude w before (.join client) status =
      ([], ⟨w, .busy before (.join client) status⟩) := by
    cases hJoining <;> rfl
  rw [hConclude]
  exact ⟨hJoining, fun _ _ _ _ hMember =>
    absurd hMember List.not_mem_nil⟩

/- A join that is over has ended as it may. -/
theorem joinKept_conclude_of_exit
    {result : Except (EngineError ε) α}
    (hExit : Exit client before b.settled? result after) :
    JoinKept b
      (conclude w before (.join client)
        (.ready (.done (result, after)))) := by
  refine ⟨trivial, ?_⟩
  rintro client' before' result' after' hMember
  cases List.mem_singleton.mp hMember
  exact hExit

/-
  Any other call that goes on or is over, after what is noted of
  it before, is not a join.
-/
theorem joinKept_append_of_other
    {call : EngineCall κ θ ε α}
    (events : List (Event κ θ ε α))
    (status :
      World.MainStatus (Report κ θ) (call.Result × Engine κ θ))
    (hCall : ∀ client, call ≠ .join client)
    (hEvents : ∀ client before result after,
      .called (.join client) before result after ∉ events) :
    JoinKept b
      (events ++ (conclude w before call status).1,
        (conclude w before call status).2) := by
  have hBusy : InJoin (.busy before call status) := by
    cases call with
    | start order => exact trivial
    | join client => exact absurd rfl (hCall client)
    | surrogate => exact trivial
  unfold conclude
  split
  · next result after =>
      refine ⟨trivial, ?_⟩
      rintro client' before' result' after' hMember
      rcases List.mem_append.mp hMember with hMember | hMember
      · exact absurd hMember (hEvents _ _ _ _)
      · cases List.mem_singleton.mp hMember
        exact absurd rfl (hCall client')
  · refine ⟨hBusy, ?_⟩
    rintro client' before' result' after' hMember
    rw [List.append_nil] at hMember
    exact absurd hMember (hEvents _ _ _ _)

/- The same where nothing is noted before. -/
theorem joinKept_conclude_of_other
    {call : EngineCall κ θ ε α}
    (status :
      World.MainStatus (Report κ θ) (call.Result × Engine κ θ))
    (hCall : ∀ client, call ≠ .join client) :
    JoinKept b (conclude w before call status) :=
  joinKept_append_of_other [] status hCall
    fun _ _ _ _ => List.not_mem_nil

/- A step of which no join is noted, and that leaves the desk. -/
theorem joinKept_of_desk
    {events : List (Event κ θ ε α)}
    (hDesk : InJoin b.desk)
    (hEvents : ∀ client before result after,
      .called (.join client) before result after ∉ events) :
    JoinKept b (events, { b with world := w }) :=
  ⟨hDesk, fun _ _ _ _ hMember =>
    absurd hMember (hEvents _ _ _ _)⟩

------------------------------------------------------------
-- Steps
------------------------------------------------------------

/- A join is made. -/
theorem joinKept_call_join
    (w : World (Report κ θ))
    (e : Engine κ θ)
    (client : Except ε α) :
    JoinKept ⟨w, .free e⟩
      (conclude w e (.join client) (.ready (e.join client))) := by
  cases hState : e.state with
  | idle s =>
      rw [Engine.join_of_idle client hState]
      exact joinKept_conclude_of_exit (.notRunning hState)
  | lost =>
      rw [Engine.join_of_lost client hState]
      exact joinKept_conclude_of_exit (.lost hState)
  | running t =>
      rw [Engine.join_of_running client hState]
      exact joinKept_conclude_of_joining (.meeting hState)

/- A join that waits looks, and ends with what it finds. -/
theorem joinKept_goOn_waiting
    {t : Ticket}
    {limit : Option Instant}
    (w : World (Report κ θ))
    (client : Except ε α)
    (hState : before.state = .running t) :
    JoinKept
      ⟨w, .busy before (.join client)
        (.held (.wait t before.joinTimeout) (.oneshot limit)
          (before.met t client))⟩
      (goOn
        ⟨w, .busy before (.join client)
          (.held (.wait t before.joinTimeout) (.oneshot limit)
            (before.met t client))⟩) := by
  rcases hPoll : w.poll t with ⟨settled, w'⟩
  have hFound : settled? (ε := ε) (α := α)
      ⟨w, .busy before (.join client)
        (.held (.wait t before.joinTimeout) (.oneshot limit)
          (before.met t client))⟩ = some settled := by
    unfold settled?
    dsimp only
    rw [hPoll]
  cases settled with
  | ready report =>
      have hMove := World.resumeMove_wait_of_ready
        (d := before.joinTimeout) limit hPoll
      rw [goOn_of_resumed hMove]
      apply joinKept_conclude_of_exit
      rw [hFound]
      exact .collected report hState
  | abandoned =>
      have hMove := World.resumeMove_wait_of_abandoned
        (d := before.joinTimeout) limit hPoll
      rw [goOn_of_resumed hMove]
      apply joinKept_conclude_of_exit
      rw [hFound]
      exact .abandoned hState
  | pending =>
      rcases World.resumeMove_wait_of_pending
          (d := before.joinTimeout) limit hPoll with
        hMove | hMove
      · rw [goOn_of_resumed hMove]
        exact joinKept_conclude_of_joining (.leaving hState)
      · rw [goOn_of_waiting hMove]
        exact joinKept_conclude_of_joining (.waiting hState)

/- The owner goes on with a join. -/
theorem joinKept_goOn_join
    {status : World.MainStatus (Report κ θ)
      (Except (EngineError ε) α × Engine κ θ)}
    (w : World (Report κ θ))
    (hJoining : Joining before client status) :
    JoinKept ⟨w, .busy before (.join client) status⟩
      (goOn ⟨w, .busy before (.join client) status⟩) := by
  cases hJoining with
  | @meeting t hState =>
      have hMove : w.startMove (.wait t before.joinTimeout) =
          (.inr (.oneshot
            (Instant.after? w.clock before.joinTimeout)), w) :=
        rfl
      rw [goOn_of_held hMove]
      exact joinKept_conclude_of_joining (.waiting hState)
  | waiting hState =>
      exact joinKept_goOn_waiting w client hState
  | @leaving t hState =>
      have hGoOn :
          goOn ⟨w, .busy before (.join client)
              (.ready (before.met t client .pending))⟩ =
            conclude (w.dropPending t) before (.join client)
              (.ready (.done
                (.error (.joinTimeout before.joinTimeout
                  (Engine.errorOf client)),
                { before with state := .lost }))) :=
        rfl
      rw [hGoOn]
      exact joinKept_conclude_of_exit (.timedOut hState)

/- No call that is over is noted of a move. -/
theorem called_not_mem_noted
    {call : EngineCall κ θ ε α}
    {result : call.Result}
    (m : Move (Report κ θ)) :
    .called call before result after ∉ noted m := by
  cases m <;> simp [noted]

/-
  The owner who goes on with a call is concluded, in some world,
  to be somewhere in that call; what is noted before is of no
  call.
-/
theorem goOn_eq_conclude
    {call : EngineCall κ θ ε α}
    (w : World (Report κ θ))
    (before : Engine κ θ)
    (status :
      World.MainStatus (Report κ θ) (call.Result × Engine κ θ)) :
    ∃ (events : List (Event κ θ ε α)) (w' : World (Report κ θ))
      (status' :
        World.MainStatus (Report κ θ) (call.Result × Engine κ θ)),
      goOn ⟨w, .busy before call status⟩ =
          (events ++ (conclude w' before call status').1,
            (conclude w' before call status').2) ∧
        ∀ (other : EngineCall κ θ ε α) start result after,
          .called other start result after ∉ events := by
  have hNone : ∀ (other : EngineCall κ θ ε α) start result after,
      .called other start result after ∉
        ([] : List (Event κ θ ε α)) :=
    fun _ _ _ _ => List.not_mem_nil
  rcases status with ⟨a | ⟨m, k⟩ | ⟨body, s, k⟩⟩ | ⟨m, hold, k⟩
  · exact ⟨[], w, .ready (.done a), rfl, hNone⟩
  · rcases hMove : w.startMove m with ⟨r | hold, w'⟩
    · exact ⟨noted m, w', .ready (k r), goOn_of_answered hMove,
        fun _ _ _ _ => called_not_mem_noted m⟩
    · exact ⟨[], w', .held m hold k, goOn_of_held hMove, hNone⟩
  · exact ⟨[], w, .ready (Routine.unroll body s k), rfl, hNone⟩
  · rcases hMove : w.resumeMove m hold with ⟨r | hold', w'⟩
    · exact ⟨[], w', .ready (k r), goOn_of_resumed hMove, hNone⟩
    · exact ⟨[], w', .held m hold' k, goOn_of_waiting hMove,
        hNone⟩

/- The owner goes on with any other call. -/
theorem joinKept_goOn_other
    {call : EngineCall κ θ ε α}
    (w : World (Report κ θ))
    (before : Engine κ θ)
    (status :
      World.MainStatus (Report κ θ) (call.Result × Engine κ θ))
    (hCall : ∀ client, call ≠ .join client) :
    JoinKept ⟨w, .busy before call status⟩
      (goOn ⟨w, .busy before call status⟩) := by
  rcases goOn_eq_conclude w before status with
    ⟨events, w', status', hGoOn, hEvents⟩
  rw [hGoOn]
  exact joinKept_append_of_other events status' hCall
    fun client => hEvents (.join client)

/- A step that changes nothing. -/
theorem joinKept_self
    (hDesk : InJoin b.desk) :
    JoinKept b ([], b) :=
  joinKept_of_desk hDesk fun _ _ _ _ => List.not_mem_nil

/- No thread can be started. -/
theorem joinKept_refuse
    {call : EngineCall κ θ ε α}
    {status :
      World.MainStatus (Report κ θ) (call.Result × Engine κ θ)}
    (w : World (Report κ θ))
    (error : IoError)
    (hCall : ∀ client, call ≠ .join client)
    (hDesk : InJoin (.busy before call status)) :
    JoinKept ⟨w, .busy before call status⟩
      (refuse ⟨w, .busy before call status⟩ error) := by
  unfold refuse
  split
  · next hDesk' =>
      cases hDesk'
      exact joinKept_conclude_of_other _ hCall
  · exact joinKept_self hDesk

/- A step of the owner on a call that is under way. -/
theorem joinKept_step_of_busy
    {call : EngineCall κ θ ε α}
    {status :
      World.MainStatus (Report κ θ) (call.Result × Engine κ θ)}
    (w : World (Report κ θ))
    (hDesk : InJoin (.busy before call status)) :
    JoinKept ⟨w, .busy before call status⟩
        (goOn ⟨w, .busy before call status⟩) ∧
      ∀ error, JoinKept ⟨w, .busy before call status⟩
        (refuse ⟨w, .busy before call status⟩ error) := by
  cases call with
  | join client =>
      refine ⟨joinKept_goOn_join w hDesk, fun error => ?_⟩
      have hSame := joinKept_self
        (b := ⟨w, .busy before (.join client) status⟩) hDesk
      cases hDesk with
      | meeting hState => exact hSame
      | waiting hState => exact hSame
      | leaving hState => exact hSame
  | start order =>
      have hCall : ∀ client,
          (.start order : EngineCall κ θ ε α) ≠ .join client :=
        nofun
      exact ⟨joinKept_goOn_other w before status hCall,
        fun error => joinKept_refuse w error hCall hDesk⟩
  | surrogate =>
      have hCall : ∀ client,
          (.surrogate : EngineCall κ θ ε α) ≠ .join client :=
        nofun
      exact ⟨joinKept_goOn_other w before status hCall,
        fun error => joinKept_refuse w error hCall hDesk⟩

/- A call is made. -/
theorem joinKept_call
    (w : World (Report κ θ))
    (e : Engine κ θ)
    (call : EngineCall κ θ ε α) :
    JoinKept ⟨w, .free e⟩
      (conclude w e call (.ready (call.routine e))) := by
  cases call with
  | join client => exact joinKept_call_join w e client
  | start order => exact joinKept_conclude_of_other _ nofun
  | surrogate => exact joinKept_conclude_of_other _ nofun

/- Every step keeps to it. -/
theorem joinKept_step
    (hDesk : InJoin b.desk)
    (choice : Choice κ θ ε α) :
    JoinKept b (b.step choice) := by
  have hSame := joinKept_self hDesk
  cases choice with
  | call call =>
      rcases b with ⟨w, e | ⟨before, other, status⟩⟩
      · exact joinKept_call w e call
      · exact hSame
  | goOn =>
      rcases b with ⟨w, e | ⟨before, call, status⟩⟩
      · exact hSame
      · exact (joinKept_step_of_busy w hDesk).1
  | refuse error =>
      rcases b with ⟨w, e | ⟨before, call, status⟩⟩
      · exact hSame
      · exact (joinKept_step_of_busy w hDesk).2 error
  | runner i =>
      apply joinKept_of_desk hDesk
      intro client before result after
      change _ ∉ resolutions (b.world.stepThread i).1
      rcases (b.world.stepThread i).1 with _ | ⟨t, report⟩ <;>
        simp [resolutions]
  | outside pipe clock =>
      exact joinKept_of_desk hDesk
        fun _ _ _ _ => List.not_mem_nil

/- So does every run, from any engine in any world. -/
theorem inJoin_of_run
    {e : Engine κ θ}
    (hRun : Run ⟨w, .free e⟩ log b) :
    InJoin b.desk := by
  induction hRun with
  | refl => exact trivial
  | step choice hRun ih => exact (joinKept_step ih choice).1

------------------------------------------------------------
-- What is reported
------------------------------------------------------------

/-
  What a join reports, by what it has found last. It succeeds
  only if both sides have. A failure has the client's error if
  there was a run to be met, and the error of the script if the
  run is over and has failed, or one that stands for it if the
  run will never report.
-/
structure Reported
    (found : Option (Settled (Report κ θ)))
    (client : Except ε α)
    (before : Engine κ θ)
    (result : Except (EngineError ε) α)
    (after : Engine κ θ) : Prop where
  ok_iff : ∀ value, result = .ok value ↔
    (∃ s, found = some (.ready ⟨s, .succeeded⟩)) ∧
      client = .ok value
  client_eq : ∀ error, result = .error error →
    error.client? =
      if before.isRunning then Engine.errorOf client else none
  script_iff : ∀ error, result = .error error →
    ∀ se, error.surrogate? = some se ↔
      (∃ s, found = some (.ready ⟨s, .failed se⟩)) ∨
        found = some .abandoned ∧ se = Engine.unreported
  both : ∀ s se, found = some (.ready ⟨s, .failed se⟩) →
    result = .error (.failed (some se) (Engine.errorOf client))
  unmet : before.isRunning = false →
    after = before ∧
      (result = .error .noActiveRun ∨ result = .error .lost)

/- Each way in which a join ends is reported so. -/
theorem Exit.reported
    {found : Option (Settled (Report κ θ))}
    {result : Except (EngineError ε) α}
    (hExit : Exit client before found result after) :
    Reported found client before result after := by
  cases hExit with
  | notRunning hState =>
      constructor <;> simp [Engine.isRunning, hState,
        EngineError.client?, EngineError.surrogate?]
  | lost hState =>
      constructor <;> simp [Engine.isRunning, hState,
        EngineError.client?, EngineError.surrogate?]
  | timedOut hState =>
      constructor <;> simp [Engine.isRunning, hState,
        EngineError.client?, EngineError.surrogate?]
  | abandoned hState =>
      constructor <;> simp [Engine.isRunning, hState,
        EngineError.client?, EngineError.surrogate?,
        Engine.combine, Outcome.error?, eq_comm]
  | collected report hState =>
      rcases report with ⟨s, _ | se⟩ <;>
        rcases client with e | value <;>
        constructor <;>
        simp [Engine.isRunning, hState,
          EngineError.client?, EngineError.surrogate?,
          Engine.combine, Engine.errorOf, Outcome.error?]

/-
  Whatever engine is joined in whatever world, what the join
  reports is fixed by what it has found and by the client.
-/
theorem reported_of_run
    {e : Engine κ θ}
    {choice : Choice κ θ ε α}
    {result : Except (EngineError ε) α}
    (hRun : Run ⟨w, .free e⟩ log b)
    (hOver : .called (.join client) before result after ∈
      (b.step choice).1) :
    Reported b.settled? client before result after :=
  ((joinKept_step (inJoin_of_run hRun) choice).2
    _ _ _ _ hOver).reported

/- A bench on which both sides fail, up to the last move. -/
def doubleFailure :
    List (Event rawDeflate Tls.transparent Nat Nat) ×
      Bench rawDeflate Tls.transparent Nat Nat :=
  play
    [.call (.start (.script
        ⟨[.control ⟨"boom", fun s =>
          .done (.brokeDown (some "no"), s)⟩]⟩)),
      .goOn, .goOn, .runner 0, .call (.join (.error 7)), .goOn]
    (new (.pair "client" "server" 4) (.new [13, 10]) .zero)

theorem reported_of_run_of_doubleFailure :
    ∃ before after,
      .called (.join (.error 7)) before
          (.error (.failed (some (.fault "no")) (some 7)))
          after ∈ (doubleFailure.2.step .goOn).1 ∧
        Reported doubleFailure.2.settled?
          (.error 7 : Except Nat Nat) before
          (.error (.failed (some (.fault "no")) (some 7)))
          after := by
  have hOver : ∃ before after,
      .called (.join (.error 7)) before
        (.error (.failed (some (.fault "no")) (some 7)))
        after ∈ (doubleFailure.2.step .goOn).1 :=
    ⟨_, _, List.mem_singleton.mpr rfl⟩
  rcases hOver with ⟨before, after, hOver⟩
  exact ⟨before, after, hOver,
    reported_of_run (run_play _ _) hOver⟩

/-
  A client that has failed is joined without a run, and again
  when a join before it has waited in vain: neither time is its
  error in what the join reports.
-/
theorem dropped_client_error :
    let idle : Bench rawDeflate Tls.transparent Nat Nat :=
      new (.pair "client" "server" 4) (.new [13, 10]) .zero
    let lost := (play
      [.call (.start (.script ⟨[.recvLine "A"]⟩)), .goOn, .goOn,
        .call (.join (.error 1)), .goOn, .goOn, .goOn] idle).2
    (idle.step (.call (.join (.error 7)))).1 =
        [.called (.join (.error 7)) idle.engine
          (.error .noActiveRun) idle.engine] ∧
      (lost.step (.call (.join (.error 7)))).1 =
        [.called (.join (.error 7)) lost.engine
          (.error .lost) lost.engine] ∧
      (EngineError.noActiveRun : EngineError Nat).client? ≠
        some 7 ∧
      (EngineError.lost : EngineError Nat).client? ≠ some 7 :=
  ⟨rfl, rfl, nofun, nofun⟩

end Bench

end Parley
