import Parley.Proofs.Engine.Invariant
import Parley.Deflate.Codec
import Parley.Tls.Stream
/-
  This file shows that an engine keeps to its protocol, however
  the calls of its owner and the work of the runners fall
  together.

  Key definitions include:
    * `Bench.Protocol`

  Key theorems include:
    * `Bench.protocol_of_run`
-/

namespace Parley

namespace Bench

variable {κ : Codec} {θ : Tls.Provider} {ε α : Type}
variable {log : List (Event κ θ ε α)} {b : Bench κ θ ε α}
variable {e₀ e before after : Engine κ θ} {t : Ticket}

------------------------------------------------------------
-- The protocol
------------------------------------------------------------

/- Only a start that succeeds begins a run. -/
theorem Answers.eq_of_begins
    {call : EngineCall κ θ ε α}
    {result : call.Result}
    (hAnswers : Answers log before call result after)
    (hBefore : before.state ≠ .running t)
    (hAfter : after.state = .running t) :
    ∃ order, Event.called call before result after =
      .called (.start order) before (.ok ()) after := by
  cases hAnswers with
  | started hSource hParse hSpawned => exact ⟨_, rfl⟩
  | malformed hSource hParse hReports => exact ⟨_, rfl⟩
  | inFlight hState hReports => exact absurd hAfter hBefore
  | notStarted hState => exact absurd hAfter hBefore
  | notRunning hState => exact absurd hAfter hBefore
  | notJoined hState => exact absurd hAfter hBefore
  | looked => exact absurd hAfter hBefore
  | notSpawned hSource hParse => cases hAfter
  | joined hState hReports hOk hFailed => cases hAfter
  | timedOut hState => cases hAfter

/- A source tells that the run before has reported. -/
theorem Source.reports_eq
    {s : Surrogate κ θ}
    (hSource : Source log e s)
    (hState : e.state = .running t) :
    ∃ report, reports t log = [report] ∧
      report.surrogate = s := by
  unfold Source at hSource
  rw [hState] at hSource
  exact hSource

/-
  What an engine and its owner can count on, after all that was
  noted: one script at a time; a start that finds a run in
  flight leaves everything as it is; every run has one outcome,
  which is used once; the surrogate comes back with it.
-/
structure Protocol
    (e₀ : Engine κ θ)
    (log : List (Event κ θ ε α))
    (b : Bench κ θ ε α) : Prop where
  -- there is one thread at most, and none while the engine has
  -- its surrogate
  alone : b.world.threads.length ≤ 1
  resting : ∀ e s, b.desk = .free e → e.state = .idle s →
    b.world.threads = []
  -- when a thread is started all before it have reported
  inTurn : ∀ earlier t p,
    earlier ++ [.spawned t p] <+: log →
      ∀ u q, .spawned u q ∈ earlier →
        ∃ report, reports u earlier = [report]
  -- each call is made on the engine that the one before has
  -- left, and comes to one of the answers
  answers : ∀ earlier call before result after,
    earlier ++ [.called call before result after] <+: log →
      before = current e₀ earlier ∧
        Answers earlier before call result after
  -- a start fails with a run in flight exactly while that run
  -- has not reported, and then nothing changes
  inFlight : ∀ earlier order before result after t,
    earlier ++ [.called (.start order) before result after]
        <+: log →
      before.state = .running t →
        (result = .error .runInFlight ↔
          reports t earlier = []) ∧
        (result = .error .runInFlight → after = before)
  undisturbed : ∀ before order status t,
    b.desk = .busy before (.start order) status →
      before.state = .running t → reports t log = [] →
        b.goOn.2.world = b.world ∧
          ∀ error, (b.refuse error).2.world = b.world
  -- a run that was started is at work and has not reported, or
  -- has ended and reported what its script has come to
  resolves : ∀ t p, .spawned t p ∈ log →
    ∃ s script, p = Engine.runner s script ∧
      ((∃ thread ∈ b.world.threads, thread.ticket = t) ∧
          reports t log = [] ∨
        (∀ thread ∈ b.world.threads, thread.ticket ≠ t) ∧
          ∃ r s', (script.execute s).Gives (r, s') ∧
            reports t log = [⟨s', Outcome.ofResult r⟩])
  single : ∀ t, (reports t log).length ≤ 1
  -- a join that waits for a run that has reported takes the
  -- report with its next move
  delivers : ∀ before client m hold k t report,
    b.desk = .busy before (.join client) (.held m hold k) →
      before.state = .running t → reports t log = [report] →
        b.goOn.1 =
          [.called (.join client) before
            (Engine.combine report.outcome client)
            { before with state := .idle report.surrogate }]
  -- a run that is settled has begun with a start, and is
  -- settled for the first time
  begun : ∀ earlier event t,
    earlier ++ [event] <+: log → event.settles t →
      ∃ order before after,
        .called (.start order) before (.ok ()) after ∈ earlier ∧
          before.state ≠ .running t ∧ after.state = .running t
  once : log.Pairwise fun first second => ∀ t,
    (first.begins t → ¬ second.begins t) ∧
      (first.settles t → ¬ second.settles t)
  -- a join gives the surrogate back with the outcome, whatever
  -- that is, unless its time is up
  givenBack : ∀ earlier client before result after t,
    earlier ++ [.called (.join client) before result after]
        <+: log →
      before.state = .running t →
        (∃ report, reports t earlier = [report] ∧
          after = { before with
            state := .idle report.surrogate }) ∨
        result = .error (.joinTimeout before.joinTimeout
          (Engine.errorOf client)) ∧
          after = { before with state := .lost }
  lostOnly : ∀ earlier call before result after,
    earlier ++ [.called call before result after] <+: log →
      after.state = .lost →
        before.state = .lost ∨
        (∃ client d error,
          Event.called call before result after =
            .called (.join client) before
              (.error (.joinTimeout d error)) after) ∨
        ∃ order error,
          Event.called call before result after =
            .called (.start order) before
              (.error (.spawn error)) after

/- While its run has not reported a start changes nothing. -/
theorem InOrder.undisturbed
    {order : Order κ θ}
    {status : World.MainStatus (Report κ θ)
      (Except (EngineError ε) Unit × Engine κ θ)}
    (hOrder : InOrder e₀ log b)
    (hDesk : b.desk = .busy before (.start order) status)
    (hState : before.state = .running t)
    (hReports : reports t log = []) :
    b.goOn.2.world = b.world ∧
      ∀ error, (b.refuse error).2.world = b.world := by
  rcases b with ⟨w, desk⟩
  cases hDesk
  have hAttends : Attends log w before (.start order) status :=
    hOrder.seated
  cases hAttends with
  | @asking _ u hRunning hOut =>
      cases hState.symm.trans hRunning
      refine ⟨?_, fun error => rfl⟩
      cases hOut with
      | lent status hThreads hSlot hNone =>
          rw [goOn_of_answered (World.startMove_poll_of_new hSlot)]
          rfl
      | left report hThreads hSlot hReport =>
          cases hReports.symm.trans hReport
  | holding hSource hThreads =>
      rcases hSource.reports_eq hState with ⟨report, hReport, -⟩
      cases hReports.symm.trans hReport
  | launching hSource hThreads hSlot hFresh =>
      rcases hSource.reports_eq hState with ⟨report, hReport, -⟩
      cases hReports.symm.trans hReport

/- A join that waits takes a report that is there. -/
theorem InOrder.delivers
    {client : Except ε α}
    {m : Move (Report κ θ)}
    {hold : World.MainHold}
    {k : m.Answer → MainRoutine (Report κ θ)
      (Except (EngineError ε) α × Engine κ θ)}
    {report : Report κ θ}
    (hOrder : InOrder e₀ log b)
    (hDesk : b.desk = .busy before (.join client) (.held m hold k))
    (hState : before.state = .running t)
    (hReports : reports t log = [report]) :
    b.goOn.1 =
      [.called (.join client) before
        (Engine.combine report.outcome client)
        { before with state := .idle report.surrogate }] := by
  rcases b with ⟨w, desk⟩
  cases hDesk
  have hAttends :
      Attends log w before (.join client) (.held m hold k) :=
    hOrder.seated
  cases hAttends with
  | @waiting _ u limit hRunning hOut =>
      cases hState.symm.trans hRunning
      cases hOut with
      | lent status hThreads hSlot hNone =>
          cases hNone.symm.trans hReports
      | left other hThreads hSlot hReport =>
          cases hReport.symm.trans hReports
          have hMove := World.resumeMove_wait_of_ready
            (d := before.joinTimeout) limit
            (World.poll_of_filled hSlot)
          rw [goOn_of_resumed hMove]
          rfl

/- A run that was started is at work or has reported. -/
theorem InOrder.resolves
    {p : Routine threadInterface (Option (Report κ θ))}
    (hOrder : InOrder e₀ log b)
    (hSpawned : .spawned t p ∈ log) :
    ∃ s script, p = Engine.runner s script ∧
      ((∃ thread ∈ b.world.threads, thread.ticket = t) ∧
          reports t log = [] ∨
        (∀ thread ∈ b.world.threads, thread.ticket ≠ t) ∧
          ∃ r s', (script.execute s).Gives (r, s') ∧
            reports t log = [⟨s', Outcome.ofResult r⟩]) := by
  have hBooks := hOrder.ledger.books
  rcases List.append_of_mem hSpawned with ⟨earlier, later, hLog⟩
  have hPrefix : earlier ++ [.spawned t p] <+: log :=
    ⟨later, by rw [hLog, List.append_assoc]; rfl⟩
  rcases hOrder.ledger.lawful _ _ hPrefix with
    ⟨⟨s, script, rfl⟩, -⟩
  refine ⟨s, script, rfl, ?_⟩
  rcases hBooks.spawned t _ hSpawned with
    ⟨thread, hThread, rfl⟩ | ⟨report, hReports, hGives⟩
  · left
    exact ⟨⟨thread, hThread, rfl⟩, (hBooks.runner thread hThread).1⟩
  · right
    constructor
    · rintro thread hThread rfl
      cases (hBooks.runner thread hThread).1.symm.trans hReports
    · rcases Engine.report_of_gives_runner hGives with
        ⟨r, s', hScript, hReport⟩
      cases hReport
      exact ⟨r, s', hScript, hReports⟩

/- What ends a run has begun with a start. -/
theorem InOrder.begun
    {earlier : List (Event κ θ ε α)}
    {event : Event κ θ ε α}
    (hOrder : InOrder e₀ log b)
    (hPrefix : earlier ++ [event] <+: log)
    (hSettles : event.settles t) :
    ∃ order before after,
      .called (.start order) before (.ok ()) after ∈ earlier ∧
        before.state ≠ .running t ∧ after.state = .running t := by
  have hStart : ∃ start ∈ earlier, Event.begins t start := by
    have hLawful := hOrder.ledger.lawful _ _ hPrefix
    cases event with
    | spawned u p => cases hSettles
    | resolved u report => cases hSettles
    | called call before result after =>
        exact (hLawful.2.2.2 t hSettles).1
  rcases hStart with ⟨start, hMember, hBegins⟩
  rcases List.append_of_mem hMember with ⟨first, rest, hEarlier⟩
  have hFirst : first ++ [start] <+: log := by
    refine List.IsPrefix.trans ⟨rest ++ [event], ?_⟩ hPrefix
    simp [hEarlier]
  have hLawful := hOrder.ledger.lawful _ _ hFirst
  cases start with
  | spawned u p => cases hBegins
  | resolved u report => cases hBegins
  | called call before result after =>
      rcases hLawful.2.1.eq_of_begins hBegins.1 hBegins.2 with
        ⟨order, hEvent⟩
      exact ⟨order, before, after, hEvent ▸ hMember, hBegins⟩

/- A run begins once, and ends once. -/
theorem InOrder.once
    (hOrder : InOrder e₀ log b) :
    log.Pairwise fun first second => ∀ t,
      (first.begins t → ¬ second.begins t) ∧
        (first.settles t → ¬ second.settles t) := by
  apply List.pairwise_iff_getElem.mpr
  intro i j hi hj hLess t
  have hPrefix : log.take j ++ [log[j]] <+: log := by
    rw [List.take_append_getElem]
    exact List.take_prefix _ _
  have hMember : log[i] ∈ log.take j :=
    List.mem_take_iff_getElem.mpr ⟨i, by omega, rfl⟩
  have hLawful := hOrder.ledger.lawful _ _ hPrefix
  generalize log[j] = second at hLawful
  cases second with
  | spawned u p => exact ⟨fun _ => id, fun _ => id⟩
  | resolved u report => exact ⟨fun _ => id, fun _ => id⟩
  | called call before result after =>
      rcases hLawful with ⟨-, -, hBegins, hSettles⟩
      constructor
      · intro hFirst hSecond
        exact hBegins t hSecond _ hMember hFirst
      · intro hFirst hSecond
        exact (hSettles t hSecond).2 _ hMember hFirst

/- A start is refused exactly while the run has not reported. -/
theorem Answers.inFlight_iff
    {order : Order κ θ}
    {result : Except (EngineError ε) Unit}
    (hAnswers :
      Answers (α := α) log before (.start order) result after)
    (hState : before.state = .running t) :
    (result = .error .runInFlight ↔ reports t log = []) ∧
      (result = .error .runInFlight → after = before) := by
  cases hAnswers with
  | inFlight hRunning hReports =>
      cases hState.symm.trans hRunning
      simp [hReports]
  | started hSource hParse hSpawned =>
      rcases hSource.reports_eq hState with ⟨report, hReport, -⟩
      simp [hReport]
  | malformed hSource hParse hReports =>
      rcases hSource.reports_eq hState with ⟨report, hReport, -⟩
      simp [hReport]
  | notSpawned hSource hParse =>
      rcases hSource.reports_eq hState with ⟨report, hReport, -⟩
      simp [hReport]
  | notStarted hLost => cases hState.symm.trans hLost

/- A join gives the surrogate back, or its time is up. -/
theorem Answers.givenBack
    {client : Except ε α}
    {result : Except (EngineError ε) α}
    (hAnswers :
      Answers log before (.join client) result after)
    (hState : before.state = .running t) :
    (∃ report, reports t log = [report] ∧
        after = { before with
          state := .idle report.surrogate }) ∨
      result = .error (.joinTimeout before.joinTimeout
        (Engine.errorOf client)) ∧
        after = { before with state := .lost } := by
  cases hAnswers with
  | joined hRunning hReports hOk hFailed =>
      cases hState.symm.trans hRunning
      exact .inl ⟨_, hReports, rfl⟩
  | timedOut hRunning => exact .inr ⟨rfl, rfl⟩
  | notRunning hIdle => cases hState.symm.trans hIdle
  | notJoined hLost => cases hState.symm.trans hLost

/- The surrogate is lost in two ways only. -/
theorem Answers.lostOnly
    {call : EngineCall κ θ ε α}
    {result : call.Result}
    (hAnswers : Answers log before call result after)
    (hLost : after.state = .lost) :
    before.state = .lost ∨
      (∃ client d error,
        Event.called call before result after =
          .called (.join client) before
            (.error (.joinTimeout d error)) after) ∨
      ∃ order error,
        Event.called call before result after =
          .called (.start order) before
            (.error (.spawn error)) after := by
  cases hAnswers with
  | notSpawned hSource hParse => exact .inr (.inr ⟨_, _, rfl⟩)
  | timedOut hState => exact .inr (.inl ⟨_, _, _, rfl⟩)
  | inFlight hState hReports => exact .inl hLost
  | notStarted hState => exact .inl hLost
  | notRunning hState => exact .inl hLost
  | notJoined hState => exact .inl hLost
  | looked => exact .inl hLost
  | started hSource hParse hSpawned => cases hLost
  | malformed hSource hParse hReports => cases hLost
  | joined hState hReports hOk hFailed => cases hLost

/-
  An engine keeps to the protocol in every run of a bench.
-/
theorem protocol_of_run
    {pipe : Pipe}
    {surrogate : Surrogate κ θ}
    {joinTimeout : Duration}
    (hRun : Run (new pipe surrogate joinTimeout) log b) :
    Protocol (.new surrogate joinTimeout) log b := by
  have hOrder := inOrder_of_run hRun
  have hAnswers : ∀ earlier call before result after,
      earlier ++ [.called call before result after] <+: log →
        Answers earlier before call result after :=
    fun earlier call before result after hPrefix =>
      (hOrder.ledger.lawful _ _ hPrefix).2.1
  constructor
  · exact hOrder.ledger.books.alone
  · intro e s hDesk hState
    have hSeated := hOrder.seated
    rw [hDesk] at hSeated
    change AtRest log b.world e at hSeated
    unfold AtRest at hSeated
    rw [hState] at hSeated
    exact hSeated
  · intro earlier t p hPrefix
    exact (hOrder.ledger.lawful _ _ hPrefix).2
  · intro earlier call before result after hPrefix
    exact ⟨(hOrder.ledger.lawful _ _ hPrefix).1,
      hAnswers _ _ _ _ _ hPrefix⟩
  · intro earlier order before result after t hPrefix hState
    exact (hAnswers _ _ _ _ _ hPrefix).inFlight_iff hState
  · intro before order status t hDesk hState hReports
    exact hOrder.undisturbed hDesk hState hReports
  · intro t p hSpawned
    exact hOrder.resolves hSpawned
  · exact hOrder.ledger.books.reports_le
  · intro before client m hold k t report hDesk hState hReports
    exact hOrder.delivers hDesk hState hReports
  · intro earlier event t hPrefix hSettles
    exact hOrder.begun hPrefix hSettles
  · exact hOrder.once
  · intro earlier client before result after t hPrefix hState
    exact (hAnswers _ _ _ _ _ hPrefix).givenBack hState
  · intro earlier call before result after hPrefix hLost
    exact (hAnswers _ _ _ _ _ hPrefix).lostOnly hLost

/-
  A run of the bench: a script is started that breaks down, and
  a second one while it is at work; the first reports, and is
  joined.
-/
def twoStarts :
    List (Event rawDeflate Tls.transparent Unit Nat) ×
      Bench rawDeflate Tls.transparent Unit Nat :=
  play
    [.call (.start (.script
        ⟨[.control ⟨"boom", fun s =>
          .done (.brokeDown (some "no"), s)⟩]⟩)),
      .goOn, .goOn, .call (.start (.literals [])), .goOn,
      .runner 0, .call (.join (.ok 7)), .goOn, .goOn]
    (new (.pair "client" "server" 4) (.new [13, 10]) .zero)

theorem protocol_of_run_of_twoStarts :
    (∃ before after, twoStarts.1[2]? =
        some (.called
          (.start (.literals (κ := rawDeflate)
            (θ := Tls.transparent) []))
          before (.error .runInFlight) after)) ∧
      (∃ before after, twoStarts.1[4]? =
        some (.called
          (.join (κ := rawDeflate) (θ := Tls.transparent) (.ok 7))
          before (.error (.failed (some (.fault "no")) none)) after)) ∧
      twoStarts.2.engine.surrogate?.isSome ∧
      Protocol (.new (.new [13, 10]) .zero)
        twoStarts.1 twoStarts.2 :=
  ⟨⟨_, _, rfl⟩, ⟨_, _, rfl⟩, rfl, protocol_of_run (run_play _ _)⟩

end Bench

end Parley
