import Parley.Proofs.Engine.Records
/-
  This file tells from the results of the calls where the
  surrogate of an engine is. It rests, or it is out with a
  script, and it is known what was exchanged when it came to
  that. A bench whose link is fixed keeps to this, step by step.

  Key definitions include:
    * `Bench.Standing`
    * `Bench.Takes`
    * `Bench.Reaches`
    * `Bench.Stands`

  Key theorems include:
    * `Bench.Stands.did`
    * `Bench.Stands.runner`
    * `Bench.stands_of_recorded`
-/

namespace Parley

namespace Bench

variable {κ : Codec} {θ : Tls.Provider} {ε α : Type}
variable {log : List (Event κ θ ε α)} {b : Bench κ θ ε α}
variable {e₀ : Engine κ θ} {t : Ticket}

------------------------------------------------------------
-- Where the surrogate is
------------------------------------------------------------

/-
  Where the surrogate is: it rests, after so much was exchanged
  and with the outcome of the last run; or it is out with a
  script, which began after so much was exchanged.
-/
inductive Standing (κ : Codec) (θ : Tls.Provider) where
  | resting
      (s : Surrogate κ θ)
      (outcome : Outcome)
      (held : List Exchange)
  | out
      (t : Ticket)
      (s : Surrogate κ θ)
      (script : Script κ θ)
      (held : List Exchange)

/-
  What a call that is over tells. A start that succeeds finds
  the surrogate at rest, and so does a join that succeeds, after
  a run that has.
-/
inductive Takes :
    Turn κ θ ε α → Standing κ θ → Standing κ θ → Prop where
  | started
      {order : Order κ θ}
      {s : Surrogate κ θ}
      {outcome : Outcome}
      {script : Script κ θ}
      {held : List Exchange}
      (t : Ticket)
      (hParse : order.parse = .ok script) :
      Takes (begun order) (.resting s outcome held)
        (.out t s script held)
  | malformed
      {order : Order κ θ}
      {s : Surrogate κ θ}
      {outcome : Outcome}
      {error : ScriptError}
      {held : List Exchange}
      (hParse : order.parse = .error error) :
      Takes (begun order) (.resting s outcome held)
        (.resting s (.failed error) held)
  | joined
      {client : Except ε α}
      {value : α}
      {s : Surrogate κ θ}
      {held : List Exchange} :
      Takes (met client value) (.resting s .succeeded held)
        (.resting s .succeeded held)
  | other
      {turn : Turn κ θ ε α}
      {standing : Standing κ θ}
      (hBegun : ∀ order, turn ≠ begun order)
      (hMet : ∀ client value, turn ≠ met client value) :
      Takes turn standing standing

/-
  Where the surrogate can be after some calls. A script that it
  is out with can come to its end at any time.
-/
inductive Reaches
    (link : FixedLink) :
    Standing κ θ → List (Turn κ θ ε α) → Standing κ θ → Prop where
  | here
      {standing : Standing κ θ} :
      Reaches link standing [] standing
  | reported
      {t : Ticket}
      {s : Surrogate κ θ}
      {script : Script κ θ}
      {report : Report κ θ}
      {held held' : List Exchange}
      {turns : List (Turn κ θ ε α)}
      {standing : Standing κ θ}
      (hEnds : (Engine.runner s script).Ends link.environment
        held (some report) held')
      (hReaches : Reaches link
        (.resting report.surrogate report.outcome held')
        turns standing) :
      Reaches link (.out t s script held) turns standing
  | turn
      {turn : Turn κ θ ε α}
      {turns : List (Turn κ θ ε α)}
      {start next standing : Standing κ θ}
      (hTakes : Takes turn start next)
      (hReaches : Reaches link next turns standing) :
      Reaches link start (turn :: turns) standing

section

variable {link : FixedLink} {start standing next : Standing κ θ}
variable {past : List (Turn κ θ ε α)} {turn : Turn κ θ ε α}

/- One more call is over. -/
theorem Reaches.concat
    (hReaches : Reaches link start past standing)
    (hTakes : Takes turn standing next) :
    Reaches link start (past ++ [turn]) next := by
  induction hReaches with
  | here => exact .turn hTakes .here
  | reported hEnds _ ih => exact .reported hEnds (ih hTakes)
  | turn hFirst _ ih => exact .turn hFirst (ih hTakes)

/- The script comes to its end. -/
theorem Reaches.report
    {s : Surrogate κ θ}
    {script : Script κ θ}
    {report : Report κ θ}
    {held held' : List Exchange}
    (hReaches : Reaches link start past (.out t s script held))
    (hEnds : (Engine.runner s script).Ends link.environment held
      (some report) held') :
    Reaches link start past
      (.resting report.surrogate report.outcome held') := by
  generalize hOut : Standing.out t s script held = out at hReaches
  induction hReaches with
  | here =>
      subst hOut
      exact .reported hEnds .here
  | reported hFirst _ ih => exact .reported hFirst (ih hOut)
  | turn hTakes _ ih => exact .turn hTakes (ih hOut)

end

------------------------------------------------------------
-- The bench keeps to it
------------------------------------------------------------

/-
  The engine has the surrogate that rests, or its run has
  reported it; or it has lost it.
-/
def Has
    (log : List (Event κ θ ε α))
    (e : Engine κ θ)
    (s : Surrogate κ θ)
    (outcome : Outcome) : Prop :=
  match e.state with
  | .idle mine => mine = s
  | .running t => reports t log = [⟨s, outcome⟩]
  | .lost => True

/-
  The engine waits for the run that is out, which has not
  reported; or it has lost it.
-/
def Awaits
    (log : List (Event κ θ ε α))
    (e : Engine κ θ)
    (t : Ticket) : Prop :=
  match e.state with
  | .idle _ => False
  | .running u => u = t ∧ reports t log = []
  | .lost => True

/-
  How the bench stands to where the surrogate is. While it rests
  there is no thread, and nothing is exchanged; while it is out
  the only thread does what is left of the script.
-/
inductive Stands
    (link : FixedLink)
    (log : List (Event κ θ ε α))
    (held : List Exchange)
    (b : Bench κ θ ε α) : Standing κ θ → Prop where
  | resting
      {s : Surrogate κ θ}
      {outcome : Outcome}
      (hThreads : b.world.threads = [])
      (hHas : Has log b.engine s outcome) :
      Stands link log held b (.resting s outcome held)
  | out
      {t : Ticket}
      {s : Surrogate κ θ}
      {script : Script κ θ}
      {past : List Exchange}
      {status : Status (Report κ θ)}
      (hThreads : b.world.threads = [⟨t, status⟩])
      (hEnds : ∀ answer held',
        status.rest.Ends link.environment held answer held' ↔
          (Engine.runner s script).Ends link.environment past
            answer held')
      (hAwaits : Awaits log b.engine t) :
      Stands link log held b (.out t s script past)

section

variable {link : FixedLink} {held : List Exchange}
variable {start standing : Standing κ θ}
variable {e before after : Engine κ θ} {s mine : Surrogate κ θ}
variable {outcome : Outcome}

@[simp] theorem turns_append
    (log more : List (Event κ θ ε α)) :
    turns (log ++ more) = turns log ++ turns more :=
  List.filterMap_append

/- The surrogate that a new run gets is the one that rests. -/
theorem Has.eq_of_source
    (hHas : Has log e s outcome)
    (hSource : Source log e mine) :
    mine = s := by
  unfold Has at hHas
  unfold Source at hSource
  split at hHas
  · next other hState =>
      rw [hState] at hSource
      exact hSource.symm.trans hHas
  · next t hState =>
      rw [hState] at hSource
      rcases hSource with ⟨report, hReport, hSame⟩
      cases hHas.symm.trans hReport
      exact hSame.symm
  · next hState =>
      rw [hState] at hSource
      exact hSource.elim

/- To note a call does not change what an engine has. -/
theorem Has.called
    {call : EngineCall κ θ ε α}
    {result : call.Result}
    (hHas : Has log e s outcome) :
    Has (log ++ [.called call before result after]) e s
      outcome := by
  unfold Has at hHas ⊢
  split at hHas
  · exact hHas
  · simpa using hHas
  · exact trivial

/- Nor what it waits for. -/
theorem Awaits.called
    {call : EngineCall κ θ ε α}
    {result : call.Result}
    (hAwaits : Awaits log e t) :
    Awaits (log ++ [.called call before result after]) e t := by
  unfold Awaits at hAwaits ⊢
  split at hAwaits
  · exact hAwaits
  · simpa using hAwaits
  · exact trivial

/- When the run reports, the engine has the surrogate back. -/
theorem Awaits.resolved
    {report : Report κ θ}
    (hAwaits : Awaits log e t) :
    Has (log ++ [.resolved t report]) e report.surrogate
      report.outcome := by
  unfold Awaits at hAwaits
  unfold Has
  split at hAwaits
  · exact hAwaits.elim
  · rcases hAwaits with ⟨rfl, hReports⟩
    simp [hReports]
  · exact trivial

/- An engine that has lost its surrogate has and awaits nothing. -/
theorem has_of_lost
    (hLost : e.state = .lost) :
    Has log e s outcome := by
  unfold Has
  rw [hLost]
  exact trivial

theorem awaits_of_lost
    (hLost : e.state = .lost) :
    Awaits log e t := by
  unfold Awaits
  rw [hLost]
  exact trivial

/-
  A call that is over, and no start that has succeeded, leaves
  the engine as it was or without its surrogate; or it has
  collected the report of the run.
-/
theorem Answers.after_cases
    {call : EngineCall κ θ ε α}
    {result : call.Result}
    (hAnswers : Answers log before call result after)
    (hPlain : ∀ order, (⟨call, result⟩ : Turn κ θ ε α) ≠
      begun order) :
    (∀ client value,
        (⟨call, result⟩ : Turn κ θ ε α) ≠ met client value) ∧
      (after = before ∨ after.state = .lost) ∨
    ∃ t report, before.state = .running t ∧
      reports t log = [report] ∧
      after.state = .idle report.surrogate ∧
      ∀ client value,
        (⟨call, result⟩ : Turn κ θ ε α) = met client value →
          report.outcome = .succeeded := by
  cases hAnswers with
  | inFlight hState hReports => exact .inl ⟨nofun, .inl rfl⟩
  | started hSource hParse hSpawned => exact absurd rfl (hPlain _)
  | malformed hSource hParse hReports =>
      exact absurd rfl (hPlain _)
  | notSpawned hSource hParse => exact .inl ⟨nofun, .inr rfl⟩
  | notStarted hState => exact .inl ⟨nofun, .inl rfl⟩
  | timedOut hState => exact .inl ⟨nofun, .inr rfl⟩
  | notRunning hState => exact .inl ⟨nofun, .inl rfl⟩
  | notJoined hState => exact .inl ⟨nofun, .inl rfl⟩
  | looked => exact .inl ⟨nofun, .inl rfl⟩
  | joined hState hReports hOk hFailed =>
      refine .inr ⟨_, _, hState, hReports, rfl, ?_⟩
      rintro client value ⟨⟩
      exact ((hOk value).mp rfl).1

/- It holds on while the threads and the engine are the same. -/
theorem Stands.kept
    {b' : Bench κ θ ε α}
    (hStands : Stands link log held b standing)
    (hThreads : b'.world.threads = b.world.threads)
    (hEngine : b'.engine = b.engine) :
    Stands link log held b' standing := by
  cases hStands with
  | resting hNone hHas =>
      exact .resting (hThreads.trans hNone) (hEngine ▸ hHas)
  | out hOne hEnds hAwaits =>
      exact .out (hThreads.trans hOne) hEnds (hEngine ▸ hAwaits)

/- It does so when such a call is over. -/
theorem Stands.called
    {call : EngineCall κ θ ε α}
    {result : call.Result}
    {w : World (Report κ θ)}
    (hStands : Stands link log held b standing)
    (hReaches : Reaches link start (turns log) standing)
    (hPlain : ∀ order, (⟨call, result⟩ : Turn κ θ ε α) ≠
      begun order)
    (hThreads : w.threads = b.world.threads)
    (hAnswers : Answers log b.engine call result after) :
    Reaches link start
        (turns (log ++ [.called call b.engine result after]))
        standing ∧
      Stands link (log ++ [.called call b.engine result after])
        held ⟨w, .free after⟩ standing := by
  rw [turns_append]
  rcases hAnswers.after_cases hPlain with
    ⟨hNotMet, hAfter⟩ |
    ⟨t, report, hState, hReports, hAfter, hMet⟩
  · refine ⟨hReaches.concat (.other hPlain hNotMet), ?_⟩
    cases hStands with
    | resting hNone hHas =>
        refine .resting (hThreads.trans hNone) ?_
        rcases hAfter with rfl | hLost
        · exact hHas.called
        · exact has_of_lost hLost
    | out hOne hEnds hAwaits =>
        refine .out (hThreads.trans hOne) hEnds ?_
        rcases hAfter with rfl | hLost
        · exact hAwaits.called
        · exact awaits_of_lost hLost
  · cases hStands with
    | resting hNone hHas =>
        unfold Has at hHas
        rw [hState] at hHas
        cases hReports.symm.trans hHas
        constructor
        · by_cases hTurn : ∃ client value,
              (⟨call, result⟩ : Turn κ θ ε α) = met client value
          · rcases hTurn with ⟨client, value, hTurn⟩
            cases hMet client value hTurn
            cases hTurn
            exact hReaches.concat .joined
          · refine hReaches.concat (.other hPlain ?_)
            intro client value hSame
            exact hTurn ⟨client, value, hSame⟩
        · refine .resting (hThreads.trans hNone) ?_
          unfold Has
          rw [show (Bench.engine ⟨w, .free after⟩ :
            Engine κ θ).state = _ from hAfter]
    | out hOne hEnds hAwaits =>
        unfold Awaits at hAwaits
        rw [hState] at hAwaits
        rcases hAwaits with ⟨rfl, hNone⟩
        cases hReports.symm.trans hNone

/- Nobody but a thread breaks it. -/
theorem Stands.did
    {result : List (Event κ θ ε α) × Bench κ θ ε α}
    (hStands : Stands link log held b standing)
    (hReaches : Reaches link start (turns log) standing)
    (hDid : Did log b result) :
    ∃ next, Reaches link start (turns (log ++ result.1)) next ∧
      Stands link (log ++ result.1) held result.2 next := by
  cases hDid with
  | quiet hThreads hEngine =>
      simp only [List.append_nil]
      exact ⟨standing, hReaches, hStands.kept hThreads hEngine⟩
  | called hPlain hThreads hAnswers =>
      exact ⟨standing,
        hStands.called hReaches hPlain hThreads hAnswers⟩
  | @spawned order s script t w hSource hParse hNone hThreads
      hReports =>
      cases hStands with
      | out hOne hEnds hAwaits => cases hNone.symm.trans hOne
      | resting hNobody hHas =>
          cases hHas.eq_of_source hSource
          refine ⟨.out t s script held, ?_, ?_⟩
          · rw [turns_append]
            exact hReaches.concat (.started t hParse)
          · refine .out hThreads (fun _ _ => Iff.rfl) ⟨rfl, ?_⟩
            rw [reports_append, hReports]
            rfl
  | @malformed order s error t w hSource hParse hNone hThreads
      hReports =>
      cases hStands with
      | out hOne hEnds hAwaits => cases hNone.symm.trans hOne
      | resting hNobody hHas =>
          cases hHas.eq_of_source hSource
          refine ⟨.resting s (.failed error) held, ?_, ?_⟩
          · rw [turns_append]
            exact hReaches.concat (.malformed hParse)
          · refine .resting hThreads ?_
            change reports t _ = [_]
            rw [reports_append, hReports]
            simp [reports]

/- Nor does a thread, if the link answers as it should. -/
theorem Stands.runner
    {i : Nat}
    (hOrder : InOrder e₀ log b)
    (hStands : Stands link log held b standing)
    (hReaches : Reaches link start (turns log) standing)
    (hFollows : link.Follows held (b.world.exchanged i)) :
    ∃ next,
      Reaches link start
        (turns (log ++ (b.step (.runner i)).1)) next ∧
      Stands link (log ++ (b.step (.runner i)).1)
        (held ++ b.world.exchanged i)
        (b.step (.runner i)).2 next := by
  rcases b with ⟨w, desk⟩
  change ∃ next,
    Reaches link start
      (turns (log ++ resolutions (w.stepThread i).1)) next ∧
    Stands link (log ++ resolutions (w.stepThread i).1)
      (held ++ w.exchanged i) ⟨(w.stepThread i).2, desk⟩ next
  cases hThread : w.threads[i]? with
  | none =>
      simp only [World.stepThread, World.exchanged, hThread,
        resolutions, List.append_nil]
      exact ⟨standing, hReaches, hStands⟩
  | some thread =>
      have hBooks : Books log w := hOrder.ledger.books
      rcases hBooks.threads_eq hThread with ⟨rfl, hThreads⟩
      cases hStands with
      | resting hNone hHas => cases hNone.symm.trans hThreads
      | @out t s script past status hOne hEnds hAwaits =>
          cases hThreads.symm.trans hOne
          rcases World.stepThread_of_thread hThread with
            ⟨answer, rfl, hNothing⟩ |
            ⟨pipe, status', hStep, hGoes⟩
          · have hGives := hBooks.not_gives_none
              (List.mem_of_getElem? hThread)
            rw [hNothing, List.append_nil]
            cases answer with
            | none => exact absurd (Routine.Gives.done _) hGives
            | some report =>
                have hStep : w.stepThread 0 =
                    (some (t, report),
                      (w.resolve t report).removeThread 0) := by
                  simp only [World.stepThread, hThread,
                    World.stepOf]
                rw [hStep]
                have hDone := (hEnds _ _).mp (.done _ held)
                refine ⟨.resting report.surrogate report.outcome
                  held, ?_, ?_⟩
                · rw [turns_append]
                  change Reaches link start (turns log ++ []) _
                  rw [List.append_nil]
                  exact hReaches.report hDone
                · refine .resting ?_ hAwaits.resolved
                  simp [World.removeThread, hThreads]
          · rw [hStep, resolutions, List.append_nil]
            have hNow :
                ({ w with pipe := pipe }.setThread 0
                  ⟨t, status'⟩).threads = [⟨t, status'⟩] := by
              simp [World.setThread, hThreads]
            refine ⟨_, hReaches, .out hNow ?_ hAwaits⟩
            intro answer held'
            exact (hGoes.ends_iff hFollows).trans
              (hEnds answer held')

end

/-
  A new bench keeps to it in every run in which the link answers
  as it should: where the surrogate is follows from the results
  of the calls.
-/
theorem stands_of_recorded
    {link : FixedLink}
    {pipe : Pipe}
    {surrogate : Surrogate κ θ}
    {joinTimeout : Duration}
    {held : List Exchange}
    (hRecorded :
      Recorded (new pipe surrogate joinTimeout) log held b)
    (hFollows : link.Follows [] held) :
    ∃ standing,
      Reaches link (.resting surrogate .succeeded []) (turns log)
        standing ∧
      Stands link log held b standing := by
  induction hRecorded with
  | refl => exact ⟨_, .here, .resting rfl rfl⟩
  | @step log held b choice hRecorded ih =>
      rcases FixedLink.follows_append.mp hFollows with
        ⟨hPast, hNext⟩
      rcases ih hPast with ⟨standing, hReaches, hStands⟩
      have hOrder := inOrder_of_run hRecorded.run
      by_cases hRunner : ∃ i, choice = .runner i
      · rcases hRunner with ⟨i, rfl⟩
        exact hStands.runner hOrder hReaches hNext
      · have hNot : ∀ i, choice ≠ .runner i :=
          fun i hSame => hRunner ⟨i, hSame⟩
        have hNothing : b.exchanged choice = [] := by
          cases choice with
          | runner i => exact absurd rfl (hNot i)
          | _ => rfl
        rw [hNothing, List.append_nil]
        exact hStands.did hReaches (hOrder.did hNot)

end Bench

end Parley
