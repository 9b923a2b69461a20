import Parley.Proofs.Engine.Invariant
import Parley.Proofs.Engine.Renaming
import Parley.Proofs.Engine.Scheduling
import Parley.Proofs.Script.Grammar
import Parley.Deflate.Codec
import Parley.Tls.Stream
/-
  This file says what becomes of a written script that makes no
  sense. Nothing of it is carried out: the run is over with the
  surrogate as it was and with what is wrong, and the join that
  follows gives both back. A later run goes as if the script had
  never been handed in.

  All the while others may use the pipe, and time may pass. What
  the pipe and the clock are like afterwards is what they have
  made of them.

  Key definitions include:
    * `Bench.elsewhere`
    * `Bench.Brings`
    * `Bench.Rejected`

  Key theorems include:
    * `Bench.Brings.play_eq`
    * `Bench.rejected_of_run`
-/

namespace Parley

namespace Bench

variable {κ : Codec} {θ : Tls.Provider} {ε α : Type}
variable {log : List (Event κ θ ε α)} {w : World (Report κ θ)}
variable {e e' : Engine κ θ} {t : Ticket}
variable {slots slots' : List (Slot (Report κ θ))}
variable {desk : Desk κ θ ε α} {events : List (Event κ θ ε α)}

------------------------------------------------------------
-- What others do
------------------------------------------------------------

/- What others than the owner and the runner make of a world. -/
def Choice.weather
    (w : World (Report κ θ)) :
    Choice κ θ ε α → World (Report κ θ)
  | .outside pipe clock => { w with pipe := pipe, clock := clock }
  | _ => w

/- The same for many choices in a row. -/
def elsewhere
    (choices : List (Choice κ θ ε α))
    (w : World (Report κ θ)) : World (Report κ θ) :=
  choices.foldl Choice.weather w

/- What others do has nothing to do with one-shots. -/
theorem elsewhere_withSlots
    (choices : List (Choice κ θ ε α))
    (w : World (Report κ θ))
    (slots : List (Slot (Report κ θ))) :
    elsewhere choices { w with slots := slots } =
      { elsewhere choices w with slots := slots } := by
  induction choices generalizing w with
  | nil => rfl
  | cons choice choices ih =>
      cases choice with
      | outside pipe clock =>
          exact ih { w with pipe := pipe, clock := clock }
      | call call => exact ih w
      | goOn => exact ih w
      | refuse error => exact ih w
      | runner i => exact ih w

/- Nor with threads. -/
@[simp] theorem elsewhere_threads
    (choices : List (Choice κ θ ε α))
    (w : World (Report κ θ)) :
    (elsewhere choices w).threads = w.threads := by
  induction choices generalizing w with
  | nil => rfl
  | cons choice choices ih =>
      refine (ih _).trans ?_
      cases choice <;> rfl

@[simp] theorem elsewhere_slots
    (choices : List (Choice κ θ ε α))
    (w : World (Report κ θ)) :
    (elsewhere choices w).slots = w.slots := by
  induction choices generalizing w with
  | nil => rfl
  | cons choice choices ih =>
      refine (ih _).trans ?_
      cases choice <;> rfl

@[simp] theorem elsewhere_append
    (first second : List (Choice κ θ ε α))
    (w : World (Report κ θ)) :
    elsewhere (first ++ second) w =
      elsewhere second (elsewhere first w) :=
  List.foldl_append

/- The first choice is followed, and then the others. -/
theorem play_cons
    (choice : Choice κ θ ε α)
    (choices : List (Choice κ θ ε α))
    (b : Bench κ θ ε α) :
    play (choice :: choices) b =
      ((b.step choice).1 ++ (play choices (b.step choice).2).1,
        (play choices (b.step choice).2).2) :=
  rfl

/- Choices can be followed in two parts. -/
theorem play_append
    (first second : List (Choice κ θ ε α))
    (b : Bench κ θ ε α) :
    play (first ++ second) b =
      ((play first b).1 ++ (play second (play first b).2).1,
        (play second (play first b).2).2) := by
  induction first generalizing b with
  | nil => rfl
  | cons choice first ih =>
      rw [List.cons_append, play_cons, play_cons, ih,
        List.append_assoc]

/- Whether the owner makes a call. -/
def Choice.isCall : Choice κ θ ε α → Bool
  | .call _ => true
  | _ => false

/- Whether the owner goes on with one. -/
def Choice.isGoOn : Choice κ θ ε α → Bool
  | .goOn => true
  | _ => false

/-
  Choices in which the owner makes no call, but goes on with the
  one that is under way so and so often.
-/
def Attended
    (n : Nat)
    (choices : List (Choice κ θ ε α)) : Prop :=
  (∀ choice ∈ choices, choice.isCall = false) ∧
    n ≤ choices.countP Choice.isGoOn

------------------------------------------------------------
-- A call while nobody is at work
------------------------------------------------------------

/-
  While no thread is at work the owner comes to the end of a
  call with so and so many moves, whatever the pipe and the
  clock are at each of them. It is fixed what is noted and what
  is left in the one-shots and of the engine.
-/
def Brings
    (events : List (Event κ θ ε α))
    (slots' : List (Slot (Report κ θ)))
    (e' : Engine κ θ) :
    Nat → List (Slot (Report κ θ)) → Desk κ θ ε α → Prop
  | 0, slots, desk =>
    desk = .free e' ∧ slots = slots' ∧ events = []
  | n + 1, slots, desk =>
    (∀ w error, refuse ⟨w, desk⟩ error = ([], ⟨w, desk⟩)) ∧
      ∀ clock pipe, ∃ slots₁ desk₁ first rest,
        goOn ⟨⟨clock, pipe, slots, []⟩, desk⟩ =
            (first, ⟨⟨clock, pipe, slots₁, []⟩, desk₁⟩) ∧
          events = first ++ rest ∧
          Brings rest slots' e' n slots₁ desk₁

/- Meanwhile no thread can be started. -/
theorem Brings.refuse_eq
    {n : Nat}
    (hBrings : Brings events slots' e' n slots desk)
    (w : World (Report κ θ))
    (error : IoError) :
    refuse ⟨w, desk⟩ error = ([], ⟨w, desk⟩) := by
  cases n with
  | zero =>
      rcases hBrings with ⟨rfl, -, -⟩
      rfl
  | succ n => exact hBrings.1 w error

/-
  So the call comes to that end whatever is done in between, if
  the owner goes on often enough.
-/
theorem Brings.play_eq
    {n : Nat}
    {choices : List (Choice κ θ ε α)}
    (clock : Instant)
    (pipe : Pipe)
    (hBrings : Brings events slots' e' n slots desk)
    (hAttended : Attended n choices) :
    play choices ⟨⟨clock, pipe, slots, []⟩, desk⟩ =
      (events,
        ⟨{ elsewhere choices ⟨clock, pipe, slots, []⟩ with
            slots := slots' },
          .free e'⟩) := by
  induction choices generalizing n slots desk events clock pipe with
  | nil =>
      obtain rfl := Nat.le_zero.mp hAttended.2
      rcases hBrings with ⟨rfl, rfl, rfl⟩
      rfl
  | cons choice choices ih =>
      rcases hAttended with ⟨hCalls, hCount⟩
      rcases List.forall_mem_cons.mp hCalls with ⟨hCall, hRest⟩
      rw [List.countP_cons] at hCount
      cases choice with
      | call call => cases hCall
      | outside other moment =>
          exact ih moment other hBrings ⟨hRest, hCount⟩
      | runner i => exact ih clock pipe hBrings ⟨hRest, hCount⟩
      | refuse error =>
          have hRefuse := hBrings.refuse_eq
            ⟨clock, pipe, slots, []⟩ error
          rw [play, Bench.step, hRefuse]
          exact ih clock pipe hBrings ⟨hRest, hCount⟩
      | goOn =>
          cases n with
          | zero =>
              have hDone := hBrings
              rcases hDone with ⟨rfl, -, -⟩
              exact ih clock pipe hBrings ⟨hRest, Nat.zero_le _⟩
          | succ n =>
              rcases hBrings.2 clock pipe with
                ⟨slots₁, desk₁, first, later, hGoOn, rfl, hLater⟩
              have hEnd := ih clock pipe hLater
                ⟨hRest, Nat.le_of_succ_le_succ hCount⟩
              have hOthers :
                  elsewhere choices ⟨clock, pipe, slots₁, []⟩ =
                    { elsewhere choices
                        ⟨clock, pipe, slots, []⟩ with
                      slots := slots₁ } :=
                elsewhere_withSlots choices
                  ⟨clock, pipe, slots, []⟩ slots₁
              rw [hOthers] at hEnd
              rw [play, Bench.step, hGoOn]
              dsimp only
              rw [hEnd]
              rfl

------------------------------------------------------------
-- The calls
------------------------------------------------------------

/- A one-shot with the report of a run. -/
def reported
    (report : Report κ θ) : Slot (Report κ θ) :=
  ⟨⟨some report, false, true⟩, some Engine.seat⟩

/- One-shots of which one has been looked into. -/
def taken
    (t : Ticket)
    (slots : List (Slot (Report κ θ))) : List (Slot (Report κ θ)) :=
  slots.modify t fun slot =>
    { slot with oneshot := slot.oneshot.poll.2 }

/-
  The one-shots when the surrogate has been taken out of an
  engine: the report of a run before is taken.
-/
def vacated
    (e : Engine κ θ)
    (slots : List (Slot (Report κ θ))) : List (Slot (Report κ θ)) :=
  match e.state with
  | .running t => taken t slots
  | _ => slots

@[simp] theorem length_taken
    (t : Ticket)
    (slots : List (Slot (Report κ θ))) :
    (taken t slots).length = slots.length :=
  List.length_modify ..

@[simp] theorem length_vacated
    (e : Engine κ θ)
    (slots : List (Slot (Report κ θ))) :
    (vacated e slots).length = slots.length := by
  unfold vacated
  split
  · exact length_taken _ _
  · rfl

/- A change of the last entry leaves the others alone. -/
theorem modify_concat
    {β : Type}
    (f : β → β)
    (l : List β)
    (x : β) :
    (l ++ [x]).modify l.length f = l ++ [f x] := by
  induction l with
  | nil => rfl
  | cons y l ih =>
      rw [List.cons_append, List.length_cons,
        List.modify_succ_cons, ih, List.cons_append]

/- A one-shot that was made last is resolved. -/
theorem resolve_last
    (clock : Instant)
    (pipe : Pipe)
    (slots : List (Slot (Report κ θ)))
    (report : Report κ θ) :
    (⟨clock, pipe, slots ++ [⟨.new, some Engine.seat⟩], []⟩ :
        World (Report κ θ)).resolve slots.length report =
      ⟨clock, pipe, slots ++ [reported report], []⟩ := by
  unfold World.resolve World.modifySlot
  dsimp only
  rw [List.getElem?_concat_length, modify_concat]
  rfl

section

variable {order : Order κ θ} {error : ScriptError}
variable {s : Surrogate κ θ} {report : Report κ θ}
variable {client : Except ε α}

/-
  With the surrogate in hand the owner makes a one-shot and puts
  in it at once what is wrong with the script.
-/
theorem brings_holding
    (slots : List (Slot (Report κ θ)))
    (e : Engine κ θ)
    (order : Order κ θ)
    (s : Surrogate κ θ)
    (error : ScriptError) :
    Brings (ε := ε) (α := α)
      [.resolved slots.length ⟨s, .failed error⟩,
        .called (.start order) e (.ok ())
          { e with state := .running slots.length }]
      (slots ++ [reported ⟨s, .failed error⟩])
      { e with state := .running slots.length } 2 slots
      (.busy e (.start order)
        (.ready (e.prepare s (.error error)))) := by
  refine ⟨fun _ _ => rfl, fun clock pipe => ?_⟩
  refine ⟨slots ++ [⟨.new, some Engine.seat⟩],
    .busy e (.start order) (.ready
      ({ e with state := .lost }.launch s (.error error)
        slots.length)), [], _, rfl, rfl, ?_⟩
  refine ⟨fun _ _ => rfl, fun clock pipe => ?_⟩
  refine ⟨_, _, _, [], ?_, (List.append_nil _).symm,
    rfl, rfl, rfl⟩
  rw [goOn_launch_error, resolve_last]
  rfl

/- A start that looks for a report that is there has it. -/
theorem goOn_of_reported
    (clock : Instant)
    (pipe : Pipe)
    (e : Engine κ θ)
    (order : Order κ θ)
    (hSlot : slots[t]? = some (reported report)) :
    goOn (ε := ε) (α := α)
        ⟨⟨clock, pipe, slots, []⟩, .busy e (.start order)
          (.ready (.ask (.poll t) (e.found t order.parse)))⟩ =
      ([], ⟨⟨clock, pipe, taken t slots, []⟩,
        .busy e (.start order)
          (.ready (e.prepare report.surrogate order.parse))⟩) := by
  have hMove :
      (⟨clock, pipe, slots, []⟩ : World (Report κ θ)).startMove
          (.poll t) =
        (.inl (.ready report),
          ⟨clock, pipe, taken t slots, []⟩) :=
    World.startMove_poll_of_filled hSlot
  rw [goOn_of_answered hMove]
  rfl

/- The same if he has to look for the surrogate first. -/
theorem brings_asking
    (e : Engine κ θ)
    (hSlot : slots[t]? = some (reported report))
    (hParse : order.parse = .error error) :
    Brings (ε := ε) (α := α)
      [.resolved slots.length ⟨report.surrogate, .failed error⟩,
        .called (.start order) e (.ok ())
          { e with state := .running slots.length }]
      (taken t slots ++
        [reported ⟨report.surrogate, .failed error⟩])
      { e with state := .running slots.length } 3 slots
      (.busy e (.start order)
        (.ready (.ask (.poll t) (e.found t order.parse)))) := by
  refine ⟨fun _ _ => rfl, fun clock pipe => ?_⟩
  refine ⟨taken t slots, _, [], _,
    goOn_of_reported clock pipe e order hSlot, rfl, ?_⟩
  rw [hParse, ← length_taken t slots]
  exact brings_holding _ e order report.surrogate error

/- A join takes the report that is there. -/
theorem brings_meeting
    (e : Engine κ θ)
    (client : Except ε α)
    (hSlot : slots[t]? = some (reported report)) :
    Brings
      [.called (.join client) e
        (Engine.combine report.outcome client)
        { e with state := .idle report.surrogate }]
      (taken t slots)
      { e with state := .idle report.surrogate } 2 slots
      (.busy e (.join client)
        (.ready (.ask (.wait t e.joinTimeout)
          (e.met t client)))) := by
  refine ⟨fun _ _ => rfl, fun clock pipe => ?_⟩
  refine ⟨slots,
    .busy e (.join client)
      (.held (.wait t e.joinTimeout)
        (.oneshot (Instant.after? clock e.joinTimeout))
        (e.met t client)),
    [], _, rfl, rfl, ?_⟩
  refine ⟨fun _ _ => rfl, fun moment pipe => ?_⟩
  have hMove :
      (⟨moment, pipe, slots, []⟩ : World (Report κ θ)).resumeMove
          (.wait t e.joinTimeout)
          (.oneshot (Instant.after? clock e.joinTimeout)) =
        (.inl (.ready report),
          ⟨moment, pipe, taken t slots, []⟩) :=
    World.resumeMove_wait_of_ready _
      (World.poll_of_filled hSlot)
  refine ⟨taken t slots, _, _, [], ?_, (List.append_nil _).symm,
    rfl, rfl, rfl⟩
  rw [goOn_of_resumed hMove]
  rfl

/- A start of an engine with its surrogate has it in hand. -/
theorem play_start_of_idle
    (w : World (Report κ θ))
    (order : Order κ θ)
    (choices : List (Choice κ θ ε α))
    (hState : e.state = .idle s) :
    play (.call (.start order) :: choices) ⟨w, .free e⟩ =
      play choices
        ⟨w, .busy e (.start order)
          (.ready (e.prepare s order.parse))⟩ := by
  rw [play_cons, Bench.step]
  dsimp only
  rw [Engine.routine_start_of_idle order hState]
  rfl

/- With a run under way it is about to look for the report. -/
theorem play_start_of_running
    (w : World (Report κ θ))
    (order : Order κ θ)
    (choices : List (Choice κ θ ε α))
    (hState : e.state = .running t) :
    play (.call (.start order) :: choices) ⟨w, .free e⟩ =
      play choices
        ⟨w, .busy e (.start order) (.ready
          (.ask (.poll t) (e.found t order.parse)))⟩ := by
  rw [play_cons, Bench.step]
  dsimp only
  rw [Engine.routine_start_of_running order hState]
  rfl

/- So is a join about to wait for it. -/
theorem play_join_of_running
    (w : World (Report κ θ))
    (client : Except ε α)
    (choices : List (Choice κ θ ε α))
    (hState : e.state = .running t) :
    play (.call (.join client) :: choices) ⟨w, .free e⟩ =
      play choices
        ⟨w, .busy e (.join client) (.ready
          (.ask (.wait t e.joinTimeout) (e.met t client)))⟩ := by
  have hJoin : EngineCall.routine e (.join client) = _ :=
    Engine.join_of_running client hState
  rw [play_cons, Bench.step]
  dsimp only
  rw [hJoin]
  rfl

/- An engine between two calls whose run has reported. -/
theorem AtRest.of_report
    (hRest : AtRest log w e)
    (hState : e.state = .running t)
    (hReport : report ∈ reports t log) :
    w.threads = [] ∧ w.slots[t]? = some (reported report) := by
  unfold AtRest at hRest
  rw [hState] at hRest
  cases hRest with
  | lent status hThreads hSlot hNone =>
      rw [hNone] at hReport
      cases hReport
  | left other hThreads hSlot hOther =>
      rw [hOther, List.mem_singleton] at hReport
      cases hReport
      exact ⟨hThreads, hSlot⟩

/-
  An engine between two calls whose surrogate can be had: it
  has it, or its run has left a report. Nobody is at work.
-/
theorem AtRest.of_source
    (hRest : AtRest log w e)
    (hSource : Source log e s) :
    w.threads = [] ∧
      (e.state = .idle s ∨
        ∃ t report, e.state = .running t ∧
          w.slots[t]? = some (reported report) ∧
          report.surrogate = s) := by
  unfold Source at hSource
  cases hState : e.state with
  | idle mine =>
      unfold AtRest at hRest
      rw [hState] at hSource hRest
      exact ⟨hRest, .inl (congrArg _ hSource)⟩
  | lost =>
      rw [hState] at hSource
      exact hSource.elim
  | running t =>
      rw [hState] at hSource
      rcases hSource with ⟨report, hReports, hSame⟩
      have hReport : report ∈ reports t log := by
        rw [hReports]
        exact List.mem_singleton_self report
      rcases hRest.of_report hState hReport with
        ⟨hThreads, hSlot⟩
      exact ⟨hThreads, .inr ⟨t, report, rfl, hSlot, hSame⟩⟩

/-
  Handing in a script that makes no sense: the run is over with
  that, and with the surrogate as it was.
-/
theorem play_start_of_error
    {choices : List (Choice κ θ ε α)}
    (order : Order κ θ)
    (hRest : AtRest log w e)
    (hSource : Source log e s)
    (hParse : order.parse = .error error)
    (hAttended : Attended 3 choices) :
    play (.call (.start order) :: choices) ⟨w, .free e⟩ =
      ([.resolved w.slots.length ⟨s, .failed error⟩,
        .called (.start order) e (.ok ())
          { e with state := .running w.slots.length }],
        ⟨{ elsewhere choices w with
            slots := vacated e w.slots ++
              [reported ⟨s, .failed error⟩] },
          .free
            { e with state := .running w.slots.length }⟩) := by
  rcases hRest.of_source hSource with ⟨hThreads, hState⟩
  rcases w with ⟨clock, pipe, slots, threads⟩
  cases hThreads
  rcases hState with hState | ⟨t, report, hState, hSlot, rfl⟩
  · have hVacated : vacated e slots = slots := by
      unfold vacated
      rw [hState]
    have hBrings :=
      brings_holding (ε := ε) (α := α) slots e order s error
    have hPlay := hBrings.play_eq clock pipe
      ⟨hAttended.1, Nat.le_of_succ_le hAttended.2⟩
    rw [hVacated, play_start_of_idle _ order choices hState,
      hParse]
    exact hPlay
  · have hVacated : vacated e slots = taken t slots := by
      unfold vacated
      rw [hState]
    have hBrings := brings_asking (ε := ε) (α := α) e hSlot hParse
    have hPlay := hBrings.play_eq clock pipe hAttended
    rw [hVacated, play_start_of_running _ order choices hState]
    exact hPlay

/- Joining a run that has left its report. -/
theorem play_join_of_reported
    {choices : List (Choice κ θ ε α)}
    (client : Except ε α)
    (hThreads : w.threads = [])
    (hState : e.state = .running t)
    (hSlot : w.slots[t]? = some (reported report))
    (hAttended : Attended 2 choices) :
    play (.call (.join client) :: choices) ⟨w, .free e⟩ =
      ([.called (.join client) e
          (Engine.combine report.outcome client)
          { e with state := .idle report.surrogate }],
        ⟨{ elsewhere choices w with slots := taken t w.slots },
          .free { e with state := .idle report.surrogate }⟩) := by
  rcases w with ⟨clock, pipe, slots, threads⟩
  cases hThreads
  have hPlay := (brings_meeting e client hSlot).play_eq clock pipe
    hAttended
  rw [play_join_of_running _ client choices hState]
  exact hPlay

end

------------------------------------------------------------
-- While a run is under way
------------------------------------------------------------

/- Choices in which the owner does nothing. -/
def Apart
    (choices : List (Choice κ θ ε α)) : Prop :=
  ∀ choice ∈ choices,
    choice.isCall = false ∧ choice.isGoOn = false

/-
  What others do does not depend on where the owner is, and
  leaves him there.
-/
theorem play_of_apart
    {choices : List (Choice κ θ ε α)}
    (w : World (Report κ θ))
    (desk desk' : Desk κ θ ε α)
    (hApart : Apart choices)
    (hDesk : ∀ w error,
      refuse ⟨w, desk⟩ error = ([], ⟨w, desk⟩))
    (hDesk' : ∀ w error,
      refuse ⟨w, desk'⟩ error = ([], ⟨w, desk'⟩)) :
    ∃ events w',
      play choices ⟨w, desk⟩ = (events, ⟨w', desk⟩) ∧
        play choices ⟨w, desk'⟩ = (events, ⟨w', desk'⟩) := by
  induction choices generalizing w with
  | nil => exact ⟨[], w, rfl, rfl⟩
  | cons choice choices ih =>
      rcases List.forall_mem_cons.mp hApart with
        ⟨⟨hCall, hGoOn⟩, hRest⟩
      -- the first choice comes to the same on both
      have hFirst : ∃ events w',
          Bench.step ⟨w, desk⟩ choice = (events, ⟨w', desk⟩) ∧
            Bench.step ⟨w, desk'⟩ choice =
              (events, ⟨w', desk'⟩) := by
        cases choice with
        | call call => cases hCall
        | goOn => cases hGoOn
        | refuse error =>
            exact ⟨[], w, hDesk w error, hDesk' w error⟩
        | runner i => exact ⟨_, _, rfl, rfl⟩
        | outside pipe clock => exact ⟨_, _, rfl, rfl⟩
      rcases hFirst with ⟨first, w₁, hHere, hHere'⟩
      rcases ih w₁ hRest with ⟨later, w', hLater, hLater'⟩
      refine ⟨first ++ later, w', ?_, ?_⟩
      · rw [play_cons, hHere, hLater]
      · rw [play_cons, hHere', hLater']

section

variable {pipe : Pipe} {surrogate : Surrogate κ θ}
variable {joinTimeout : Duration} {order : Order κ θ}

/-
  A start that finds its run not to have reported is refused,
  and all else is as if it had not been tried.
-/
theorem play_start_of_unreported
    {choices : List (Choice κ θ ε α)}
    (hRun : Run (new pipe surrogate joinTimeout) log
      ⟨w, .free e⟩)
    (hState : e.state = .running t)
    (hApart : Apart choices)
    (hReports : reports t
      (log ++ (play choices ⟨w, .free e⟩).1) = []) :
    play (.call (.start order) :: (choices ++ [.goOn]))
        ⟨w, .free e⟩ =
      ((play choices ⟨w, .free e⟩).1 ++
          [.called (.start order) e (.error .runInFlight) e],
        (play choices ⟨w, .free e⟩).2) := by
  rcases play_of_apart w (.free e)
      (.busy e (.start order) (.ready
        (.ask (.poll t) (e.found t order.parse))))
      hApart (fun _ _ => rfl) (fun _ _ => rfl) with
    ⟨events, w', hFree, hAsking⟩
  have hLater := hRun.append (run_play choices ⟨w, .free e⟩)
  rw [hFree] at hReports hLater ⊢
  -- the run is out, and has not left its report
  have hRest : AtRest (log ++ events) w' e :=
    (inOrder_of_run hLater).seated
  unfold AtRest at hRest
  rw [hState] at hRest
  cases hRest with
  | left report hThreads hSlot hReport =>
      cases hReports.symm.trans hReport
  | lent status hThreads hSlot hNone =>
      have hMove := World.startMove_poll_of_new hSlot
      have hLook :
          goOn (ε := ε) (α := α) ⟨w', .busy e (.start order)
              (.ready (.ask (.poll t)
                (e.found t order.parse)))⟩ =
            ([.called (.start order) e (.error .runInFlight) e],
              ⟨w', .free e⟩) := by
        rw [goOn_of_answered hMove]
        rcases e with ⟨state, d⟩
        cases hState
        rfl
      rw [play_start_of_running _ order _ hState, play_append,
        hAsking, play_cons, Bench.step, hLook]
      rfl

end

------------------------------------------------------------
-- A script that makes no sense
------------------------------------------------------------

/-
  The move with which a start throws away the report of a run
  before, if there is one.
-/
def discard
    (e : Engine κ θ) : List (Choice κ θ ε α) :=
  if e.isRunning then [.goOn] else []

section

variable {literals : List (Literal κ θ)} {error : ScriptError}
variable {s : Surrogate κ θ} {choices later : List (Choice κ θ ε α)}

/- A report of a run is one that was noted. -/
theorem mem_reports_iff
    {report : Report κ θ} :
    report ∈ reports t log ↔ .resolved t report ∈ log := by
  constructor
  · intro hReport
    rcases List.mem_filterMap.mp hReport with
      ⟨event, hEvent, hSome⟩
    cases event with
    | spawned u p => cases hSome
    | called call before result after => cases hSome
    | resolved u other =>
        change (if u = t then some other else none) = _ at hSome
        split at hSome
        · next hTicket =>
            cases hSome
            exact hTicket ▸ hEvent
        · cases hSome
  · intro hEvent
    exact List.mem_filterMap.mpr ⟨_, hEvent, if_pos rfl⟩

/- An engine at rest is so whatever others do. -/
theorem AtRest.elsewhere
    (hRest : AtRest log w e)
    (choices : List (Choice κ θ ε α)) :
    AtRest log (Bench.elsewhere choices w) e := by
  unfold AtRest at hRest ⊢
  split at hRest
  · exact (elsewhere_threads choices w).trans hRest
  · cases hRest with
    | lent status hThreads hSlot hReports =>
        exact .lent status (by simpa using hThreads)
          (by simpa using hSlot) hReports
    | left report hThreads hSlot hReports =>
        exact .left report (by simpa using hThreads)
          (by simpa using hSlot) hReports
  · exact trivial

/-
  Handing in a script that makes no sense, and joining the run:
  what is left is the engine with the surrogate and one more
  one-shot, which is empty.
-/
theorem play_start_join
    (client : Except ε α)
    (hRest : AtRest log w e)
    (hSource : Source log e s)
    (hParse : Script.parse literals = .error error)
    (hAttended : Attended 3 choices)
    (hLater : Attended 2 later) :
    (play (.call (.start (.literals literals)) :: choices ++
        .call (.join client) :: later) ⟨w, .free e⟩).2 =
      ⟨{ elsewhere (choices ++ later) w with
          slots := vacated e w.slots ++
            [⟨⟨none, false, true⟩, some Engine.seat⟩] },
        .free { e with state := .idle s }⟩ := by
  have hStart := play_start_of_error (.literals literals) hRest
    hSource hParse hAttended
  have hThreads := (hRest.of_source hSource).1
  rw [play_append, hStart]
  have hLast :
      (vacated e w.slots ++ [reported ⟨s, .failed error⟩])[
        w.slots.length]? =
          some (reported ⟨s, .failed error⟩) := by
    rw [← length_vacated e w.slots, List.getElem?_concat_length]
  have hTaken :
      taken w.slots.length
          (vacated e w.slots ++ [reported ⟨s, .failed error⟩]) =
        vacated e w.slots ++
          [⟨⟨none, false, true⟩, some Engine.seat⟩] := by
    rw [← length_vacated e w.slots]
    exact modify_concat _ _ _
  have hJoin := play_join_of_reported
    (w := { elsewhere choices w with
      slots := vacated e w.slots ++
        [reported ⟨s, .failed error⟩] })
    (e := { e with state := .running w.slots.length })
    client (by simp [hThreads]) rfl hLast hLater
  dsimp only
  rw [hJoin, hTaken, elsewhere_withSlots, elsewhere_append]

/-
  A bench on which nobody is at work, and one with one more
  one-shot that is empty. The engine of the second has the
  surrogate, that of the first may find it in the report of a
  run: what follows a start looks the same.
-/
theorem indistinct_of_source
    (slot : Slot (Report κ θ))
    (order : Order κ θ)
    (later : List (Choice κ θ ε α))
    (hRest : AtRest log w e)
    (hSource : Source log e s) :
    Indistinct
      (play (.call (.start order) :: (discard e ++ later))
        ⟨w, .free e⟩)
      (play (.call (.start order) :: later)
        ⟨{ w with slots := vacated e w.slots ++ [slot] },
          .free { e with state := .idle s }⟩) := by
  rcases hRest.of_source hSource with ⟨hThreads, hState⟩
  rcases w with ⟨clock, pipe, slots, threads⟩
  rcases e with ⟨state, d⟩
  cases hThreads
  have hNames := World.renames_skip clock pipe
    (vacated ⟨state, d⟩ slots) slot
  rw [play_start_of_idle (e := ⟨.idle s, d⟩) _ order later rfl]
  rcases hState with hState | ⟨t, report, hState, hSlot, rfl⟩
  · cases hState
    have hAlike : Alike (ε := ε) (α := α) _
        ⟨_, .busy ⟨.idle s, d⟩ (.start order)
          (.ready (Engine.prepare _ s order.parse))⟩
        ⟨_, .busy ⟨.idle s, d⟩ (.start order)
          (.ready (Engine.prepare _ s order.parse))⟩ :=
      ⟨hNames, .holding order s rfl⟩
    rw [play_start_of_idle (e := ⟨.idle s, d⟩) _ order _ rfl]
    exact (hAlike.play later).indistinct
  · cases hState
    have hAlike : Alike (ε := ε) (α := α) _
        ⟨_, .busy ⟨.running t, d⟩ (.start order)
          (.ready (Engine.prepare _ report.surrogate
            order.parse))⟩
        ⟨_, .busy ⟨.idle report.surrogate, d⟩ (.start order)
          (.ready (Engine.prepare _ report.surrogate
            order.parse))⟩ :=
      ⟨hNames, .holding order report.surrogate rfl⟩
    rw [play_start_of_running (e := ⟨.running t, d⟩) _ order _
      rfl]
    change Indistinct (play (.goOn :: later) _) _
    rw [play_cons, Bench.step, goOn_of_reported _ _ _ _ hSlot]
    exact (hAlike.play later).indistinct

/-
  What becomes of a written script that makes no sense, by the
  engine to which it is handed in, whatever others do meanwhile.
-/
structure Rejected
    (log : List (Event κ θ ε α))
    (w : World (Report κ θ))
    (e : Engine κ θ)
    (literals : List (Literal κ θ))
    (error : ScriptError) : Prop where
  -- what is wrong names the first entry that makes no sense
  located : ∃ (i : Nat) (literal : Literal κ θ) (flaw : Flaw),
    literals[i]? = some literal ∧
      error = .malformed (i + 1) flaw ∧
      literal.Breaks (literals.take i) flaw
  -- if the surrogate can be had the run is accepted and over at
  -- once: no thread is started, the pipe is as others leave it,
  -- the surrogate is as it was, and the report of a run before
  -- is all that is thrown away
  accepted : ∀ s (choices : List (Choice κ θ ε α)),
    Source log e s → Attended 3 choices →
      play (.call (.start (.literals literals)) :: choices)
          ⟨w, .free e⟩ =
        ([.resolved w.slots.length ⟨s, .failed error⟩,
          .called (.start (.literals literals)) e (.ok ())
            { e with state := .running w.slots.length }],
          ⟨{ elsewhere choices w with
              slots := vacated e w.slots ++
                [reported ⟨s, .failed error⟩] },
            .free
              { e with state := .running w.slots.length }⟩)
  -- the join that meets this run, whenever that is, reports what
  -- was wrong beside the client's error and has the surrogate
  joined : ∀ s (choices : List (Choice κ θ ε α)) log' w' e',
    Source log e s → Attended 3 choices →
      Run (play (.call (.start (.literals literals)) :: choices)
        ⟨w, .free e⟩).2 log' ⟨w', .free e'⟩ →
        e'.state = .running w.slots.length →
          ∀ (client : Except ε α) later, Attended 2 later →
            play (.call (.join client) :: later) ⟨w', .free e'⟩ =
              ([.called (.join client) e'
                  (.error (.failed (some error)
                    (Engine.errorOf client)))
                  { e' with state := .idle s }],
                ⟨{ elsewhere later w' with
                    slots := taken w.slots.length w'.slots },
                  .free { e' with state := .idle s }⟩)
  -- a start after that looks as it does on the bench on which
  -- the script was not handed in, and so does all that follows
  forgotten : ∀ s (client : Except ε α) choices later,
    Source log e s → Attended 3 choices → Attended 2 later →
      ∀ order rest,
        Indistinct
          (play (.call (.start order) :: (discard e ++ rest))
            ⟨elsewhere (choices ++ later) w, .free e⟩)
          (play (.call (.start order) :: rest)
            (play
              (.call (.start (.literals literals)) :: choices ++
                .call (.join client) :: later) ⟨w, .free e⟩).2)
  -- while a run has not reported the script is refused, and all
  -- else is as if it had not been handed in
  inFlight : ∀ t (choices : List (Choice κ θ ε α)),
    e.state = .running t → Apart choices →
      reports t (log ++ (play choices ⟨w, .free e⟩).1) = [] →
        play
            (.call (.start (.literals literals)) ::
              (choices ++ [.goOn])) ⟨w, .free e⟩ =
          ((play choices ⟨w, .free e⟩).1 ++
              [.called (.start (.literals literals)) e
                (.error .runInFlight) e],
            (play choices ⟨w, .free e⟩).2)
  -- without a surrogate it is refused at once
  lost : e.state = .lost →
    Bench.step (ε := ε) (α := α) ⟨w, .free e⟩
        (.call (.start (.literals literals))) =
      ([.called (.start (.literals literals)) e
          (.error .lost) e],
        ⟨w, .free e⟩)

/-
  So it is for every list of literals that makes no sense, on
  every bench to which a new one comes.
-/
theorem rejected_of_run
    {pipe : Pipe}
    {surrogate : Surrogate κ θ}
    {joinTimeout : Duration}
    (hRun : Run (new pipe surrogate joinTimeout) log
      ⟨w, .free e⟩)
    (hParse : Script.parse literals = .error error) :
    Rejected log w e literals error := by
  have hRest : AtRest log w e := (inOrder_of_run hRun).seated
  constructor
  · rcases Script.parse_eq_error_iff.mp hParse with
      ⟨i, literal, flaw, hLiteral, hError, hBreaks, -⟩
    exact ⟨i, literal, flaw, hLiteral, hError, hBreaks⟩
  · intro s choices hSource hAttended
    exact play_start_of_error (.literals literals) hRest hSource
      hParse hAttended
  · intro s choices log' w' e' hSource hAttended hLater hState
      client later hAttended'
    have hWhole :=
      (hRun.append (run_play _ _)).append hLater
    have hRest' : AtRest _ w' e' := (inOrder_of_run hWhole).seated
    have hReport : (⟨s, .failed error⟩ : Report κ θ) ∈
        reports w.slots.length
          (log ++ (play
            (.call (.start (.literals literals)) :: choices)
            ⟨w, .free e⟩).1 ++ log') := by
      rw [play_start_of_error (.literals literals) hRest hSource
        hParse hAttended]
      apply mem_reports_iff.mpr
      simp
    rcases hRest'.of_report hState hReport with
      ⟨hThreads, hSlot⟩
    exact play_join_of_reported client hThreads hState hSlot
      hAttended'
  · intro s client choices later hSource hAttended hLater order
      rest
    have hSame := indistinct_of_source
      ⟨⟨none, false, true⟩, some Engine.seat⟩ order rest
      (hRest.elsewhere (choices ++ later)) hSource
    rw [elsewhere_slots] at hSame
    rw [play_start_join client hRest hSource hParse hAttended
      hLater]
    exact hSame
  · intro t choices hState hApart hReports
    exact play_start_of_unreported hRun hState hApart hReports
  · intro hState
    rw [Bench.step]
    dsimp only
    rw [Engine.routine_start_of_lost _ hState]
    rfl

end

/- A bench whose engine has a report that was not collected. -/
def uncollected :
    List (Event rawDeflate Tls.transparent Unit Nat) ×
      Bench rawDeflate Tls.transparent Unit Nat :=
  play
    [.call (.start (.literals [.bytes [7]])), .goOn, .goOn]
    (new (.pair "client" "server" 4) (.new [13, 10]) .zero)

/- Literals of which the third makes no sense. -/
def garbled : List (Literal rawDeflate Tls.transparent) :=
  [.text "S: hi", .action (.control Control.close), .text "oops"]

theorem rejected_of_run_of_uncollected :
    let w := uncollected.2.world
    let e := uncollected.2.engine
    let error := ScriptError.malformed 3 (.unmarked "oops")
    Script.parse garbled = .error error ∧
      Source uncollected.1 e (.new [13, 10]) ∧
      Rejected uncollected.1 w e garbled error :=
  ⟨rfl, ⟨_, rfl, rfl⟩, rejected_of_run (run_play _ _) rfl⟩

end Bench

end Parley
