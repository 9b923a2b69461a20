import Parley.Proofs.Engine.Contract
/-
  This file carries the invariant of the bench over each of its
  steps, and from there to every run. The ledger has what the
  log tells of the runs; where the owner is tells what he can
  find when he goes on.

  Key definitions include:
    * `Bench.Ledger`
    * `Bench.NewRun`
    * `Bench.Seated`
    * `Bench.InOrder`
    * `Bench.OrderKept`

  Key theorems include:
    * `Bench.Ledger.called`
    * `Bench.Ledger.stepped`
    * `Bench.InOrder.step`
    * `Bench.inOrder_of_run`
-/

namespace Parley

namespace Bench

variable {κ : Codec} {θ : Tls.Provider} {ε α : Type}
variable {log : List (Event κ θ ε α)} {w w' : World (Report κ θ)}
variable {e₀ e before after : Engine κ θ} {t : Ticket}
variable {b : Bench κ θ ε α}

------------------------------------------------------------
-- The ledger
------------------------------------------------------------

/-
  What the log has to do with the world and with the engine as
  the last call has left it.
-/
structure Ledger
    (e₀ : Engine κ θ)
    (log : List (Event κ θ ε α))
    (w : World (Report κ θ))
    (e : Engine κ θ) : Prop where
  books : Books log w
  lawful : ∀ earlier event,
    earlier ++ [event] <+: log → Lawful e₀ earlier event
  current : e = current e₀ log
  held : ∀ t, e.state = .running t →
    (∃ event ∈ log, Event.begins t event) ∧
      ∀ event ∈ log, ¬ Event.settles t event

/- What begins a run has to do with it. -/
theorem Event.begins.mentions
    {event : Event κ θ ε α}
    (hBegins : Event.begins t event) :
    Event.mentions t event := by
  cases event with
  | spawned u p => cases hBegins
  | resolved u report => cases hBegins
  | called call before result after => exact .inr hBegins.2

/- So does what settles it. -/
theorem Event.settles.mentions
    {event : Event κ θ ε α}
    (hSettles : Event.settles t event) :
    Event.mentions t event := by
  cases event with
  | spawned u p => cases hSettles
  | resolved u report => cases hSettles
  | called call before result after => exact .inl hSettles.1

/- One more event is lawful after lawful ones. -/
theorem lawful_concat
    {event : Event κ θ ε α}
    (hLawful : ∀ earlier event,
      earlier ++ [event] <+: log → Lawful e₀ earlier event)
    (hEvent : Lawful e₀ log event) :
    ∀ earlier other,
      earlier ++ [other] <+: log ++ [event] →
        Lawful e₀ earlier other := by
  intro earlier other hOther
  rcases List.prefix_concat_iff.mp hOther with hWhole | hOther
  · rcases List.append_inj' hWhole rfl with ⟨rfl, hLast⟩
    cases hLast
    exact hEvent
  · exact hLawful earlier other hOther

/- The ledger does not care for what is in the one-shots. -/
theorem Ledger.of_threads_eq
    (hLedger : Ledger e₀ log w e)
    (hThreads : w'.threads = w.threads)
    (hLength : w.slots.length ≤ w'.slots.length) :
    Ledger e₀ log w' e :=
  { hLedger with
    books := hLedger.books.of_threads_eq hThreads hLength }

/- What is noted of a thread leaves the engine alone. -/
theorem Ledger.concat
    {event : Event κ θ ε α}
    (hLedger : Ledger e₀ log w e)
    (hBooks : Books (log ++ [event]) w')
    (hLawful : Lawful e₀ log event)
    (hLeave : event.leave e = e)
    (hSettles : ∀ t, ¬ event.settles t) :
    Ledger e₀ (log ++ [event]) w' e where
  books := hBooks
  lawful := lawful_concat hLedger.lawful hLawful
  current := by
    have hCurrent := hLedger.current
    unfold Bench.current at hCurrent ⊢
    rw [List.foldl_append, ← hCurrent]
    exact hLeave.symm
  held := by
    intro t hState
    rcases hLedger.held t hState with
      ⟨⟨start, hMember, hBegins⟩, hOpen⟩
    refine ⟨⟨start, List.mem_append_left _ hMember, hBegins⟩, ?_⟩
    rw [List.forall_mem_append, List.forall_mem_singleton]
    exact ⟨hOpen, hSettles t⟩

/-
  If an engine has come to another run, that run has a one-shot
  and has neither begun nor been settled.
-/
def NewRun
    (log : List (Event κ θ ε α))
    (w : World (Report κ θ))
    (before after : Engine κ θ) : Prop :=
  ∀ t, before.state ≠ .running t → after.state = .running t →
    t < w.slots.length ∧
      ∀ event ∈ log,
        ¬ Event.begins t event ∧ ¬ Event.settles t event

/- An engine that is as it was has no new run. -/
theorem newRun_self
    (log : List (Event κ θ ε α))
    (w : World (Report κ θ))
    (e : Engine κ θ) :
    NewRun log w e e :=
  fun _ hBefore hAfter => absurd hAfter hBefore

/- Nor has one that waits for none. -/
theorem newRun_of_ne
    (log : List (Event κ θ ε α))
    (w : World (Report κ θ))
    (before : Engine κ θ)
    (hAfter : ∀ t, after.state ≠ .running t) :
    NewRun log w before after :=
  fun t _ hState => absurd hState (hAfter t)

/-
  A call that is over is entered. A run with which it leaves the
  engine is the one before, or a new one.
-/
theorem Ledger.called
    {call : EngineCall κ θ ε α}
    {result : call.Result}
    (hLedger : Ledger e₀ log w before)
    (hAnswers : Answers log before call result after)
    (hNew : NewRun log w before after) :
    Ledger e₀ (log ++ [.called call before result after]) w
      after where
  books := by
    have hKnown : ∀ u, before.state = .running u →
        u < w.slots.length := by
      intro u hBefore
      rcases hLedger.held u hBefore with
        ⟨⟨start, hMember, hBegins⟩, -⟩
      exact hLedger.books.mentions start hMember u
        hBegins.mentions
    apply hLedger.books.called
    rintro u (hBefore | hAfter)
    · exact hKnown u hBefore
    · by_cases hBefore : before.state = .running u
      · exact hKnown u hBefore
      · exact (hNew u hBefore hAfter).1
  lawful := by
    apply lawful_concat hLedger.lawful
    refine ⟨hLedger.current, hAnswers, ?_, ?_⟩
    · rintro t ⟨hBefore, hAfter⟩ event hMember
      exact ((hNew t hBefore hAfter).2 event hMember).1
    · rintro t ⟨hBefore, -⟩
      exact hLedger.held t hBefore
  current := by
    unfold Bench.current
    rw [List.foldl_append]
    rfl
  held := by
    intro t hAfter
    by_cases hBefore : before.state = .running t
    · rcases hLedger.held t hBefore with
        ⟨⟨start, hMember, hBegins⟩, hOpen⟩
      refine
        ⟨⟨start, List.mem_append_left _ hMember, hBegins⟩, ?_⟩
      rw [List.forall_mem_append, List.forall_mem_singleton]
      exact ⟨hOpen, fun hEnd => hEnd.2 hAfter⟩
    · have hBegins : Event.begins t
          (.called call before result after) :=
        ⟨hBefore, hAfter⟩
      refine ⟨⟨_, List.mem_concat_self, hBegins⟩, ?_⟩
      rw [List.forall_mem_append, List.forall_mem_singleton]
      refine ⟨?_, fun hEnd => hBefore hEnd.1⟩
      intro other hOther
      exact ((hNew t hBefore hAfter).2 other hOther).2

/- A step of a thread is entered. -/
theorem Ledger.stepped
    {i : Nat}
    {outcome : Option (Ticket × Report κ θ) × World (Report κ θ)}
    (hLedger : Ledger e₀ log w e)
    (hStepped : World.Stepped w i outcome) :
    Ledger e₀ (log ++ resolutions outcome.1) outcome.2 e := by
  have hBooks := hLedger.books.stepped hStepped
  rcases outcome with ⟨_ | ⟨t, report⟩, w'⟩
  · rw [resolutions, List.append_nil] at hBooks ⊢
    exact { hLedger with books := hBooks }
  · refine hLedger.concat hBooks ?_ rfl fun _ => id
    cases hStepped with
    | reports thread report hThread hGives =>
        exact (hLedger.books.runner thread
          (List.mem_of_getElem? hThread)).1

------------------------------------------------------------
-- The invariant
------------------------------------------------------------

/- What holds of where the owner is. -/
def Seated
    (log : List (Event κ θ ε α))
    (w : World (Report κ θ)) : Desk κ θ ε α → Prop
  | .free e => AtRest log w e
  | .busy before call status => Attends log w before call status

/- The bench is in order, after all that was noted. -/
structure InOrder
    (e₀ : Engine κ θ)
    (log : List (Event κ θ ε α))
    (b : Bench κ θ ε α) : Prop where
  ledger : Ledger e₀ log b.world b.engine
  seated : Seated log b.world b.desk

/- It still is after a step, with what is noted of it. -/
def OrderKept
    (e₀ : Engine κ θ)
    (log : List (Event κ θ ε α))
    (outcome : List (Event κ θ ε α) × Bench κ θ ε α) : Prop :=
  InOrder e₀ (log ++ outcome.1) outcome.2

/- A step that changes nothing keeps the order. -/
theorem InOrder.kept
    (hOrder : InOrder e₀ log b) :
    OrderKept e₀ log ([], b) := by
  unfold OrderKept
  rw [List.append_nil]
  exact hOrder

/- Where nobody is at work no thread takes a step. -/
theorem eq_of_stepped
    {i : Nat}
    {outcome : Option (Ticket × Report κ θ) × World (Report κ θ)}
    (hThreads : w.threads = [])
    (hStepped : World.Stepped w i outcome) :
    outcome = (none, w) := by
  cases hStepped with
  | rests => rfl
  | reports thread report hThread hGives => simp_all
  | vanishes thread hThread hGives => simp_all
  | goesOn thread pipe status hThread hGives => simp_all

/- An engine between two calls has its order kept by a thread. -/
theorem AtRest.stepped
    {i : Nat}
    {outcome : Option (Ticket × Report κ θ) × World (Report κ θ)}
    (hBooks : Books log w)
    (hRest : AtRest log w e)
    (hStepped : World.Stepped w i outcome) :
    AtRest (log ++ resolutions outcome.1) outcome.2 e := by
  unfold AtRest at hRest ⊢
  split at hRest
  · rw [eq_of_stepped hRest hStepped]
    exact hRest
  · exact hRest.stepped hBooks hStepped
  · exact trivial

/- So has one in a call. -/
theorem Attends.stepped
    {i : Nat}
    {call : EngineCall κ θ ε α}
    {status :
      World.MainStatus (Report κ θ) (call.Result × Engine κ θ)}
    {outcome : Option (Ticket × Report κ θ) × World (Report κ θ)}
    (hBooks : Books log w)
    (hAttends : Attends log w before call status)
    (hStepped : World.Stepped w i outcome) :
    Attends (log ++ resolutions outcome.1) outcome.2 before
      call status := by
  cases hAttends with
  | asking hState hOut =>
      exact .asking hState (hOut.stepped hBooks hStepped)
  | holding hSource hThreads =>
      rw [eq_of_stepped hThreads hStepped]
      rw [resolutions, List.append_nil]
      exact .holding hSource hThreads
  | launching hSource hThreads hSlot hFresh =>
      rw [eq_of_stepped hThreads hStepped]
      rw [resolutions, List.append_nil]
      exact .launching hSource hThreads hSlot hFresh
  | meeting hState hOut =>
      exact .meeting hState (hOut.stepped hBooks hStepped)
  | waiting hState hOut =>
      exact .waiting hState (hOut.stepped hBooks hStepped)
  | leaving hState => exact .leaving hState

/- A runner's step keeps the order. -/
theorem InOrder.runner
    (hOrder : InOrder e₀ log b)
    (i : Nat) :
    OrderKept e₀ log (b.step (.runner i)) := by
  have hStepped := b.world.stepped_stepThread i
  constructor
  · exact hOrder.ledger.stepped hStepped
  · have hSeated := hOrder.seated
    have hBooks := hOrder.ledger.books
    rcases b with ⟨w, e | ⟨before, call, status⟩⟩
    · exact AtRest.stepped hBooks hSeated hStepped
    · exact Attends.stepped hBooks hSeated hStepped

/- So does what happens to the pipe and the clock. -/
theorem InOrder.outside
    (hOrder : InOrder e₀ log b)
    (pipe : Pipe)
    (clock : Instant) :
    OrderKept e₀ log (b.step (.outside pipe clock)) := by
  have hOut : ∀ t, Out log t b.world →
      Out log t { b.world with pipe := pipe, clock := clock } := by
    rintro t (⟨status, hThreads, hSlot, hReports⟩ |
      ⟨report, hThreads, hSlot, hReports⟩)
    · exact .lent status hThreads hSlot hReports
    · exact .left report hThreads hSlot hReports
  apply InOrder.kept
  constructor
  · exact hOrder.ledger.of_threads_eq rfl (Nat.le_refl _)
  · have hSeated := hOrder.seated
    rcases b with ⟨w, e | ⟨before, call, status⟩⟩
    · change AtRest _ _ e at hSeated ⊢
      unfold AtRest at hSeated ⊢
      split at hSeated
      · exact hSeated
      · exact hOut _ hSeated
      · exact trivial
    · cases hSeated with
      | asking hState hRun => exact .asking hState (hOut _ hRun)
      | holding hSource hThreads => exact .holding hSource hThreads
      | launching hSource hThreads hSlot hFresh =>
          exact .launching hSource hThreads hSlot hFresh
      | meeting hState hRun => exact .meeting hState (hOut _ hRun)
      | waiting hState hRun => exact .waiting hState (hOut _ hRun)
      | leaving hState => exact .leaving hState

------------------------------------------------------------
-- Calls
------------------------------------------------------------

/- To note a call changes nothing for the runs. -/
theorem AtRest.called
    {call : EngineCall κ θ ε α}
    {result : call.Result}
    (hRest : AtRest log w e) :
    AtRest (log ++ [.called call before result after]) w e := by
  unfold AtRest at hRest ⊢
  split at hRest
  · exact hRest
  · cases hRest with
    | lent status hThreads hSlot hReports =>
        exact .lent status hThreads hSlot (by simp [hReports])
    | left report hThreads hSlot hReports =>
        exact .left report hThreads hSlot (by simp [hReports])
  · exact trivial

/-
  When a call is over as it should be, everything is in order.
-/
theorem Ledger.inOrder_called
    {call : EngineCall κ θ ε α}
    {result : call.Result}
    (hLedger : Ledger e₀ log w before)
    (hAnswers : Answers log before call result after)
    (hNew : NewRun log w before after)
    (hRest : AtRest log w after) :
    OrderKept e₀ log
      ([.called call before result after],
        ⟨w, .free after⟩) where
  ledger := hLedger.called hAnswers hNew
  seated := hRest.called

/- While a call is under way nothing is noted of it. -/
theorem Attends.conclude_eq
    {call : EngineCall κ θ ε α}
    {status :
      World.MainStatus (Report κ θ) (call.Result × Engine κ θ)}
    (hAttends : Attends log w before call status)
    (w' : World (Report κ θ)) :
    conclude w' before call status =
      ([], ⟨w', .busy before call status⟩) := by
  cases hAttends with
  | asking hState hOut => rfl
  | holding hSource hThreads => rfl
  | @launching order s t hSource hThreads hSlot hFresh =>
      unfold Engine.launch
      cases order.parse <;> rfl
  | meeting hState hOut => rfl
  | waiting hState hOut => rfl
  | leaving hState => rfl

/- When a call goes on as it should, everything is in order. -/
theorem Ledger.inOrder_attends
    {call : EngineCall κ θ ε α}
    {status :
      World.MainStatus (Report κ θ) (call.Result × Engine κ θ)}
    (hLedger : Ledger e₀ log w before)
    (hAttends : Attends log w before call status) :
    OrderKept e₀ log (conclude w before call status) := by
  rw [hAttends.conclude_eq w]
  exact InOrder.kept ⟨hLedger, hAttends⟩

/- A call is made. -/
theorem InOrder.call
    (hOrder : InOrder e₀ log b)
    (call : EngineCall κ θ ε α) :
    OrderKept e₀ log (b.step (.call call)) := by
  rcases b with ⟨w, e | ⟨before, other, status⟩⟩
  · have hLedger : Ledger e₀ log w e := hOrder.ledger
    have hRest : AtRest log w e := hOrder.seated
    have hSame := newRun_self log w e
    change OrderKept e₀ log
      (conclude w e call (.ready (call.routine e)))
    have hOpen := hRest
    unfold AtRest at hOpen
    cases call with
    | start order =>
        cases hState : e.state with
        | idle s =>
            rw [hState] at hOpen
            rw [Engine.routine_start_of_idle order hState]
            apply hLedger.inOrder_attends
            refine .holding ?_ hOpen
            unfold Source
            rw [hState]
        | running t =>
            rw [hState] at hOpen
            rw [Engine.routine_start_of_running order hState]
            apply hLedger.inOrder_attends
            exact .asking hState hOpen
        | lost =>
            rw [Engine.routine_start_of_lost order hState]
            exact hLedger.inOrder_called (.notStarted hState)
              hSame hRest
    | join client =>
        change OrderKept e₀ log
          (conclude w e (.join client) (.ready (e.join client)))
        cases hState : e.state with
        | idle s =>
            rw [Engine.join_of_idle client hState]
            exact hLedger.inOrder_called (.notRunning hState)
              hSame hRest
        | running t =>
            rw [hState] at hOpen
            rw [Engine.join_of_running client hState]
            apply hLedger.inOrder_attends
            exact .meeting hState hOpen
        | lost =>
            rw [Engine.join_of_lost client hState]
            exact hLedger.inOrder_called (.notJoined hState)
              hSame hRest
    | surrogate =>
        exact hLedger.inOrder_called .looked hSame hRest
  · exact hOrder.kept

/- A source stays one while its run has no second report. -/
theorem Source.concat
    {s : Surrogate κ θ}
    {event : Event κ θ ε α}
    (hSource : Source log e s)
    (hReports : ∀ t, e.state = .running t →
      reports t [event] = []) :
    Source (log ++ [event]) e s := by
  unfold Source at hSource ⊢
  split at hSource
  · exact hSource
  · next t hState =>
      rcases hSource with ⟨report, hReport, hSame⟩
      refine ⟨report, ?_, hSame⟩
      rw [reports_append, hReport, hReports t hState]
      rfl
  · exact hSource

section

variable {order : Order κ θ} {s : Surrogate κ θ} {client : Except ε α}

/-
  A start looks for the report of the run before, and has the
  surrogate with it.
-/
theorem Ledger.goOn_asking
    (hLedger : Ledger e₀ log w before)
    (hState : before.state = .running t)
    (hOut : Out log t w) :
    OrderKept e₀ log
      (goOn
        ⟨w, .busy before (.start order) (.ready
          (.ask (.poll t) (before.found t order.parse)))⟩) := by
  cases hOut with
  | lent status hThreads hSlot hReports =>
      have hMove := World.startMove_poll_of_new hSlot
      have hSame :
          before.found (ε := ε) t order.parse .pending =
            .done (.error .runInFlight, before) := by
        unfold Engine.found Engine.fail
        rw [← hState]
      rw [goOn_of_answered hMove, hSame]
      apply hLedger.inOrder_called (.inFlight hState hReports)
      · exact newRun_self log w before
      · unfold AtRest
        rw [hState]
        exact .lent status hThreads hSlot hReports
  | left report hThreads hSlot hReports =>
      have hMove := World.startMove_poll_of_filled hSlot
      rw [goOn_of_answered hMove]
      apply Ledger.inOrder_attends
      · exact hLedger.of_threads_eq rfl
          (by simp [World.modifySlot])
      · refine .holding ?_ hThreads
        unfold Source
        rw [hState]
        exact ⟨report, hReports, rfl⟩

/- With the surrogate in hand the owner makes a one-shot. -/
theorem Ledger.goOn_holding
    (hLedger : Ledger e₀ log w before)
    (hSource : Source log before s)
    (hThreads : w.threads = []) :
    OrderKept e₀ log
      (goOn
        ⟨w, .busy before (.start order)
          (.ready (before.prepare s order.parse))⟩) := by
  have hMove : w.startMove (.oneshot (some Engine.seat)) =
      (.inl w.slots.length,
        { w with
          slots := w.slots ++ [⟨.new, some Engine.seat⟩] }) :=
    rfl
  unfold Engine.prepare
  rw [goOn_of_answered hMove]
  apply Ledger.inOrder_attends
  · exact hLedger.of_threads_eq rfl (by simp)
  · refine .launching hSource hThreads (by simp) ?_
    intro event hMember hMentions
    exact Nat.lt_irrefl _
      (hLedger.books.mentions event hMember _ hMentions)

/- A run that is known is not the one that is launched. -/
theorem Ledger.ne_of_fresh
    (hLedger : Ledger e₀ log w before)
    (hFresh : ∀ event ∈ log, ¬ Event.mentions t event) :
    before.state ≠ .running t := by
  intro hState
  rcases hLedger.held t hState with ⟨⟨start, hMember, hBegins⟩, -⟩
  exact hFresh start hMember hBegins.mentions

/-
  A run that is known to nobody is new, also when something has
  been noted that neither begins nor settles a run.
-/
theorem newRun_of_fresh
    {event : Event κ θ ε α}
    (before : Engine κ θ)
    (hTicket : t < w.slots.length)
    (hFresh : ∀ event ∈ log, ¬ Event.mentions t event)
    (hBegins : ¬ event.begins t)
    (hSettles : ¬ event.settles t) :
    NewRun (log ++ [event]) w before
      { before with state := .running t } := by
  intro u hBefore hAfter
  cases hAfter
  refine ⟨hTicket, ?_⟩
  rw [List.forall_mem_append, List.forall_mem_singleton]
  refine ⟨?_, hBegins, hSettles⟩
  intro other hOther
  exact ⟨fun hFirst => hFresh other hOther hFirst.mentions,
    fun hEnd => hFresh other hOther hEnd.mentions⟩

/- A thread is started while there is none, and entered. -/
theorem Ledger.spawns
    (s : Surrogate κ θ)
    (script : Script κ θ)
    (hLedger : Ledger e₀ log w before)
    (hThreads : w.threads = [])
    (hTicket : t < w.slots.length)
    (hFresh : ∀ event ∈ log, ¬ Event.mentions t event) :
    Ledger e₀ (log ++ [.spawned t (Engine.runner s script)])
      { w with
        threads := w.threads ++
          [⟨t, .ready (Engine.runner s script)⟩] }
      before := by
  refine hLedger.concat ?_ ?_ rfl fun _ => id
  · exact hLedger.books.spawns hFresh hTicket hThreads
      (by simp [hThreads]) rfl
  · refine ⟨⟨s, script, rfl⟩, ?_⟩
    intro u q hSpawned
    rcases hLedger.books.spawned u q hSpawned with
      ⟨thread, hThread, -⟩ | ⟨report, hReport, -⟩
    · rw [hThreads] at hThread
      cases hThread
    · exact ⟨report, hReport⟩

/- A run that is over at once is entered. -/
theorem Ledger.resolves
    (hLedger : Ledger e₀ log w before)
    (hThreads : w.threads = [])
    (hTicket : t < w.slots.length)
    (hFresh : ∀ event ∈ log, ¬ Event.mentions t event)
    (report : Report κ θ) :
    Ledger e₀ (log ++ [.resolved t report])
      (w.resolve t report) before := by
  have hReports : reports t log = [] :=
    reports_eq_nil_of_not_mentions hFresh
  refine hLedger.concat ?_ hReports rfl fun _ => id
  apply hLedger.books.resolved hReports
  · intro p hSpawned
    exact absurd rfl (hFresh _ hSpawned)
  · exact hTicket
  · rw [hThreads]
    exact fun _ hMember => absurd hMember List.not_mem_nil
  · simp [hThreads]
  · simp [World.modifySlot]

/-
  With a one-shot the owner launches the script: a thread has
  the surrogate, or the run is over at once.
-/
theorem Ledger.goOn_launching
    (hLedger : Ledger e₀ log w before)
    (hSource : Source log before s)
    (hThreads : w.threads = [])
    (hSlot : w.slots[t]? = some ⟨.new, some Engine.seat⟩)
    (hFresh : ∀ event ∈ log, ¬ Event.mentions t event) :
    OrderKept e₀ log
      (goOn
        ⟨w, .busy before (.start order) (.ready
          ({ before with state := .lost }.launch
            s order.parse t))⟩) := by
  have hTicket : t < w.slots.length :=
    (List.getElem?_eq_some_iff.mp hSlot).1
  have hReports : reports t log = [] :=
    reports_eq_nil_of_not_mentions hFresh
  cases hParse : order.parse with
  | ok script =>
      have hFirst :=
        hLedger.spawns s script hThreads hTicket hFresh
      change InOrder e₀ (log ++ ([_] ++ [_])) _
      rw [← List.append_assoc]
      apply hFirst.inOrder_called
      · exact .started (hSource.concat fun _ _ => rfl) hParse
          List.mem_concat_self
      · exact newRun_of_fresh before hTicket hFresh id id
      · refine Out.lent (.ready (Engine.runner s script))
          ?_ hSlot ?_
        · simp [hThreads]
        · simp [hReports]
  | error error =>
      have hFirst := hLedger.resolves hThreads hTicket hFresh
        ⟨s, .failed error⟩
      have hNoted :
          reports t (log ++ [.resolved t ⟨s, .failed error⟩]) =
            [⟨s, .failed error⟩] := by
        simp [hReports]
      change InOrder e₀ (log ++ ([_] ++ [_])) _
      rw [← List.append_assoc]
      apply hFirst.inOrder_called
      · refine .malformed (hSource.concat ?_) hParse hNoted
        intro u hBefore
        rw [reports_resolved, if_neg]
        rintro rfl
        exact hLedger.ne_of_fresh hFresh hBefore
      · refine newRun_of_fresh before ?_ hFresh id id
        simpa [World.modifySlot] using hTicket
      · refine Out.left ⟨s, .failed error⟩ ?_ ?_ hNoted
        · simp [hThreads]
        · exact World.getElem?_resolve_of_new _ hSlot

/- No thread is there for the script: the surrogate is lost. -/
theorem Ledger.refuse_launching
    (hLedger : Ledger e₀ log w before)
    (hSource : Source log before s)
    (hThreads : w.threads = [])
    (hSlot : w.slots[t]? = some ⟨.new, some Engine.seat⟩)
    (hFresh : ∀ event ∈ log, ¬ Event.mentions t event)
    (error : IoError) :
    OrderKept e₀ log
      (refuse
        ⟨w, .busy before (.start order) (.ready
          ({ before with state := .lost }.launch
            s order.parse t))⟩ error) := by
  have hAttends : Attends (ε := ε) (α := α) log w before
      (.start order) _ :=
    .launching hSource hThreads hSlot hFresh
  cases hParse : order.parse with
  | ok script =>
      apply Ledger.inOrder_called
      · exact hLedger.of_threads_eq (by simp [World.modifySlot])
          (by simp [World.modifySlot])
      · exact .notSpawned hSource hParse
      · exact newRun_of_ne log _ before (by simp)
      · exact trivial
  | error error =>
      rw [hParse] at hAttends
      exact InOrder.kept ⟨hLedger, hAttends⟩

/- A join begins to wait. -/
theorem Ledger.goOn_meeting
    (hLedger : Ledger e₀ log w before)
    (hState : before.state = .running t)
    (hOut : Out log t w) :
    OrderKept e₀ log
      (goOn
        ⟨w, .busy before (.join client) (.ready
          (.ask (.wait t before.joinTimeout)
            (before.met t client)))⟩) := by
  have hMove : w.startMove (.wait t before.joinTimeout) =
      (.inr (.oneshot
        (Instant.after? w.clock before.joinTimeout)), w) :=
    rfl
  rw [goOn_of_held hMove]
  exact hLedger.inOrder_attends (.waiting hState hOut)

/-
  A join that waits takes the report when it is there, and
  leaves when the moment has come.
-/
theorem Ledger.goOn_waiting
    {limit : Option Instant}
    (hLedger : Ledger e₀ log w before)
    (hState : before.state = .running t)
    (hOut : Out log t w) :
    OrderKept e₀ log
      (goOn
        ⟨w, .busy before (.join client)
          (.held (.wait t before.joinTimeout) (.oneshot limit)
            (before.met t client))⟩) := by
  cases hOut with
  | lent status hThreads hSlot hReports =>
      rcases World.resumeMove_wait_of_pending limit
          (World.poll_of_new hSlot) with hMove | hMove
      · rw [goOn_of_resumed hMove]
        exact hLedger.inOrder_attends (.leaving hState)
      · rw [goOn_of_waiting hMove]
        exact hLedger.inOrder_attends (.waiting hState
          (.lent status hThreads hSlot hReports))
  | left report hThreads hSlot hReports =>
      have hMove := World.resumeMove_wait_of_ready
        (d := before.joinTimeout) limit
        (World.poll_of_filled hSlot)
      rw [goOn_of_resumed hMove]
      apply Ledger.inOrder_called
      · exact hLedger.of_threads_eq rfl
          (by simp [World.modifySlot])
      · exact .joined hState hReports
          (Engine.combine_eq_ok_iff report.outcome client)
          Engine.combine_eq_error
      · exact newRun_of_ne log _ before (by simp)
      · exact hThreads

/- A join that has waited in vain gives the run up. -/
theorem Ledger.goOn_leaving
    (hLedger : Ledger e₀ log w before)
    (hState : before.state = .running t) :
    OrderKept e₀ log
      (goOn
        ⟨w, .busy before (.join client)
          (.ready (before.met t client .pending))⟩) := by
  change OrderKept e₀ log ([_], ⟨w.dropPending t, .free _⟩)
  apply Ledger.inOrder_called
  · exact hLedger.of_threads_eq (by simp) (by simp)
  · exact .timedOut hState
  · exact newRun_of_ne log _ before (by simp)
  · exact trivial

end

/- The owner goes on with a call. -/
theorem InOrder.goOn
    (hOrder : InOrder e₀ log b) :
    OrderKept e₀ log b.goOn := by
  rcases b with ⟨w, e | ⟨before, call, status⟩⟩
  · exact hOrder.kept
  · have hLedger : Ledger e₀ log w before := hOrder.ledger
    have hAttends : Attends log w before call status :=
      hOrder.seated
    cases hAttends with
    | asking hState hOut =>
        exact hLedger.goOn_asking hState hOut
    | holding hSource hThreads =>
        exact hLedger.goOn_holding hSource hThreads
    | launching hSource hThreads hSlot hFresh =>
        exact hLedger.goOn_launching hSource hThreads hSlot hFresh
    | meeting hState hOut =>
        exact hLedger.goOn_meeting hState hOut
    | waiting hState hOut =>
        exact hLedger.goOn_waiting hState hOut
    | leaving hState =>
        exact hLedger.goOn_leaving hState

/- No thread can be started. -/
theorem InOrder.refuse
    (hOrder : InOrder e₀ log b)
    (error : IoError) :
    OrderKept e₀ log (b.refuse error) := by
  have hSame := hOrder.kept
  rcases b with ⟨w, e | ⟨before, call, status⟩⟩
  · exact hSame
  · have hLedger : Ledger e₀ log w before := hOrder.ledger
    have hAttends : Attends log w before call status :=
      hOrder.seated
    cases hAttends with
    | asking hState hOut => exact hSame
    | holding hSource hThreads => exact hSame
    | launching hSource hThreads hSlot hFresh =>
        exact hLedger.refuse_launching hSource hThreads hSlot
          hFresh error
    | meeting hState hOut => exact hSame
    | waiting hState hOut => exact hSame
    | leaving hState => exact hSame

/- Every step keeps the order. -/
theorem InOrder.step
    (hOrder : InOrder e₀ log b)
    (choice : Choice κ θ ε α) :
    OrderKept e₀ log (b.step choice) := by
  cases choice with
  | call call => exact hOrder.call call
  | goOn => exact hOrder.goOn
  | refuse error => exact hOrder.refuse error
  | runner i => exact hOrder.runner i
  | outside pipe clock => exact hOrder.outside pipe clock

/- A new bench is in order. -/
theorem inOrder_new
    (pipe : Pipe)
    (surrogate : Surrogate κ θ)
    (joinTimeout : Duration) :
    InOrder (.new surrogate joinTimeout) []
      (new pipe surrogate joinTimeout : Bench κ θ ε α) where
  ledger := by
    have hBooks : Books ([] : List (Event κ θ ε α)) (.new pipe) := by
      constructor
      · exact Nat.zero_le 1
      · exact fun _ hMember => absurd hMember List.not_mem_nil
      · exact fun _ _ hMember => absurd hMember List.not_mem_nil
      · exact fun _ _ _ hMember => absurd hMember List.not_mem_nil
      · exact fun _ => Nat.zero_le 1
      · exact fun _ hMember => absurd hMember List.not_mem_nil
    refine ⟨hBooks, ?_, rfl, ?_⟩
    · intro earlier event hPrefix
      have hNone := List.prefix_nil.mp hPrefix
      exact absurd hNone (List.concat_ne_nil _ _)
    · intro t hState
      cases hState
  seated := rfl

/- And so is every bench that it comes to. -/
theorem inOrder_of_run
    {pipe : Pipe}
    {surrogate : Surrogate κ θ}
    {joinTimeout : Duration}
    (hRun : Run (new pipe surrogate joinTimeout) log b) :
    InOrder (.new surrogate joinTimeout) log b := by
  induction hRun with
  | refl => exact inOrder_new pipe surrogate joinTimeout
  | step choice hRun ih => exact ih.step choice

end Bench

end Parley
