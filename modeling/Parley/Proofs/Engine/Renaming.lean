import Parley.Proofs.Engine.Contract
/-
  This file shows that the names of one-shots do not matter. Two
  benches that differ in the names that they give to the
  one-shots in use, and in one-shots that are not in use, stay
  so whatever happens next, and nobody sees a difference between
  them: not in the results of calls, not in what is sent, and
  not in what the threads do.

  Key definitions include:
    * `World.Renames`
    * `Engine.rename`
    * `Bench.Sight`
    * `Bench.Indistinct`
    * `Bench.Mirrors`
    * `Bench.Alike`

  Key theorems include:
    * `World.Renames.stepThread`
    * `Bench.Alike.step`
    * `Bench.Alike.play`
    * `Bench.AlikeKept.indistinct`
-/

namespace Parley

------------------------------------------------------------
-- Worlds under other names
------------------------------------------------------------

/- A thread that knows its one-shot by another name. -/
def Thread.rename
    {V : Type}
    (ρ : Ticket → Ticket)
    (thread : Thread V) : Thread V :=
  { thread with ticket := ρ thread.ticket }

namespace World

variable {V : Type} {ρ : Ticket → Ticket} {w w' : World V}

/-
  A world with the one-shots of another under other names. It
  may have more of them, which no name leads to.
-/
structure Renames
    (ρ : Ticket → Ticket)
    (w w' : World V) : Prop where
  clock : w'.clock = w.clock
  pipe : w'.pipe = w.pipe
  threads : w'.threads = w.threads.map (Thread.rename ρ)
  slots : ∀ t : Ticket, w'.slots[ρ t]? = w.slots[t]?
  fresh : ∀ k, ρ (w.slots.length + k) = w'.slots.length + k
  injective : ∀ t u, ρ t = ρ u → t = u

/- Who waits for a value and waits on has the same limit. -/
theorem hold_of_resumeMove_wait
    (w : World V)
    (t : Ticket)
    (d : Duration)
    (limit : Option Instant) :
    ∀ hold : MainHold,
      (w.resumeMove (.wait t d) (.oneshot limit)).1 = .inr hold →
        hold = .oneshot limit := by
  intro hold hHold
  rcases hPoll : w.poll t with ⟨settled, v⟩
  cases settled with
  | ready value =>
      rw [resumeMove_wait_of_ready limit hPoll] at hHold
      cases hHold
  | abandoned =>
      rw [resumeMove_wait_of_abandoned limit hPoll] at hHold
      cases hHold
  | pending =>
      rcases resumeMove_wait_of_pending (d := d) limit hPoll with
        hMove | hMove
      · rw [hMove] at hHold
        cases hHold
      · rw [hMove] at hHold
        cases hHold
        rfl

namespace Renames

/- The pipe and the clock may change. -/
theorem outside
    (hRenames : Renames ρ w w')
    (pipe : Pipe)
    (clock : Instant) :
    Renames ρ { w with pipe := pipe, clock := clock }
      { w' with pipe := pipe, clock := clock } :=
  { hRenames with clock := rfl, pipe := rfl }

/- So may the threads. -/
theorem withThreads
    {threads threads' : List (Thread V)}
    (hRenames : Renames ρ w w')
    (hThreads : threads' = threads.map (Thread.rename ρ)) :
    Renames ρ { w with threads := threads }
      { w' with threads := threads' } :=
  { hRenames with threads := hThreads }

theorem setThread
    (hRenames : Renames ρ w w')
    (i : Nat)
    (thread : Thread V) :
    Renames ρ (w.setThread i thread)
      (w'.setThread i (thread.rename ρ)) := by
  apply hRenames.withThreads
  rw [hRenames.threads, List.map_set]

theorem removeThread
    (hRenames : Renames ρ w w')
    (i : Nat) :
    Renames ρ (w.removeThread i) (w'.removeThread i) := by
  apply hRenames.withThreads
  rw [hRenames.threads, List.eraseIdx_eq_take_drop_succ,
    List.eraseIdx_eq_take_drop_succ, List.map_append,
    List.map_take, List.map_drop]

/- A change of a one-shot is a change under its other name. -/
theorem modifySlot
    (hRenames : Renames ρ w w')
    (t : Ticket)
    (f : Oneshot V → Oneshot V) :
    Renames ρ (w.modifySlot t f) (w'.modifySlot (ρ t) f) := by
  refine ⟨hRenames.clock, hRenames.pipe, hRenames.threads,
    fun u => ?_, ?_, hRenames.injective⟩
  · unfold World.modifySlot
    dsimp only
    rw [List.getElem?_modify, List.getElem?_modify,
      hRenames.slots u]
    have hName : ρ t = ρ u ↔ t = u :=
      ⟨hRenames.injective t u, congrArg ρ⟩
    simp only [hName]
  · unfold World.modifySlot
    dsimp only
    rw [List.length_modify, List.length_modify]
    exact hRenames.fresh

/- A new one-shot has the next name in both. -/
theorem addSlot
    (hRenames : Renames ρ w w')
    (slot : Slot V) :
    Renames ρ { w with slots := w.slots ++ [slot] }
      { w' with slots := w'.slots ++ [slot] } := by
  refine ⟨hRenames.clock, hRenames.pipe, hRenames.threads,
    fun u => ?_, fun k => ?_, hRenames.injective⟩
  · dsimp only
    rcases Nat.lt_or_ge u w.slots.length with hOld | hNew
    · have hSlot := hRenames.slots u
      rw [List.getElem?_eq_getElem hOld] at hSlot
      have hOld' := (List.getElem?_eq_some_iff.mp hSlot).1
      rw [List.getElem?_append_left hOld,
        List.getElem?_append_left hOld', hRenames.slots u]
    · rcases Nat.exists_eq_add_of_le hNew with ⟨k, rfl⟩
      rw [hRenames.fresh k, List.getElem?_append_right (by omega),
        List.getElem?_append_right (by omega)]
      simp only [Nat.add_sub_cancel_left]
  · dsimp only
    rw [List.length_append, List.length_append,
      List.length_singleton, Nat.add_assoc, Nat.add_assoc]
    exact hRenames.fresh (1 + k)

theorem abandon
    (hRenames : Renames ρ w w')
    (carries : Option Side) :
    Renames ρ (w.abandon carries) (w'.abandon carries) := by
  cases carries with
  | none => exact hRenames
  | some side =>
      refine { hRenames with pipe := ?_ }
      exact congrArg (Pipe.close · side) hRenames.pipe

theorem resolve
    (hRenames : Renames ρ w w')
    (t : Ticket)
    (v : V) :
    Renames ρ (w.resolve t v) (w'.resolve (ρ t) v) := by
  unfold World.resolve
  rw [hRenames.slots t]
  split
  · exact hRenames
  · next slot _ =>
      dsimp only
      split
      · exact hRenames.modifySlot t _
      · exact (hRenames.modifySlot t _).abandon slot.carries

theorem dropPending
    (hRenames : Renames ρ w w')
    (t : Ticket) :
    Renames ρ (w.dropPending t) (w'.dropPending (ρ t)) := by
  unfold World.dropPending
  rw [hRenames.slots t]
  split
  · exact hRenames
  · next slot _ =>
      dsimp only
      split
      · exact (hRenames.modifySlot t _).abandon slot.carries
      · exact hRenames.modifySlot t _

/- A look under the other name finds the same. -/
theorem poll
    (hRenames : Renames ρ w w')
    (t : Ticket) :
    (w'.poll (ρ t)).1 = (w.poll t).1 ∧
      Renames ρ (w.poll t).2 (w'.poll (ρ t)).2 := by
  unfold World.poll
  rw [hRenames.slots t]
  split
  · exact ⟨rfl, hRenames⟩
  · exact ⟨rfl, hRenames.modifySlot t fun o => o.poll.2⟩

/-
  Who waits for a value waits on alike, or goes on with the
  same.
-/
theorem resumeMove_wait
    (hRenames : Renames ρ w w')
    (t : Ticket)
    (d : Duration)
    (limit : Option Instant) :
    (w'.resumeMove (.wait (ρ t) d) (.oneshot limit)).1 =
        (w.resumeMove (.wait t d) (.oneshot limit)).1 ∧
      Renames ρ
        (w.resumeMove (.wait t d) (.oneshot limit)).2
        (w'.resumeMove (.wait (ρ t) d) (.oneshot limit)).2 := by
  rcases hPoll : w.poll t with ⟨settled, v⟩
  rcases hPoll' : w'.poll (ρ t) with ⟨settled', v'⟩
  have hSame := hRenames.poll t
  rw [hPoll, hPoll'] at hSame
  rcases hSame with ⟨hSettled, hAfter⟩
  cases hSettled
  unfold World.resumeMove
  dsimp only
  rw [hPoll, hPoll']
  cases settled with
  | ready value => exact ⟨rfl, hAfter⟩
  | abandoned => exact ⟨rfl, hAfter⟩
  | pending =>
      cases limit with
      | none => exact ⟨rfl, hAfter⟩
      | some moment =>
          dsimp only
          rw [hAfter.clock]
          split
          · exact ⟨rfl, hAfter⟩
          · exact ⟨rfl, hAfter⟩

------------------------------------------------------------
-- Threads
------------------------------------------------------------

/- A call finds the same, and does the same to the pipe. -/
theorem look
    (hRenames : Renames ρ w w')
    (side : Side)
    (call : Call)
    (stage : Call.Stage) :
    (w'.look side call stage).1 = (w.look side call stage).1 ∧
      Renames ρ (w.look side call stage).2
        (w'.look side call stage).2 := by
  unfold World.look
  rw [hRenames.pipe, hRenames.clock]
  split
  · exact ⟨rfl, { hRenames with clock := rfl, pipe := rfl }⟩
  · exact ⟨rfl, { hRenames with clock := rfl, pipe := rfl }⟩

theorem start
    (hRenames : Renames ρ w w')
    (a : Act) :
    (w'.start a).1 = (w.start a).1 ∧
      Renames ρ (w.start a).2 (w'.start a).2 := by
  cases a with
  | on side call =>
      unfold World.start
      dsimp only
      rw [hRenames.pipe, hRenames.clock]
      exact hRenames.look side call _
  | sleep d =>
      unfold World.start
      dsimp only
      rw [hRenames.clock]
      exact ⟨rfl, hRenames⟩

theorem resume
    (hRenames : Renames ρ w w')
    (a : Act)
    (hold : Hold) :
    (w'.resume a hold).1 = (w.resume a hold).1 ∧
      Renames ρ (w.resume a hold).2 (w'.resume a hold).2 := by
  cases a with
  | on side call =>
      cases hold with
      | inCall stage seen => exact hRenames.look side call stage
      | «until» moment =>
          unfold World.resume
          dsimp only
          rw [hRenames.pipe, hRenames.clock]
          exact hRenames.look side call _
  | sleep d => exact ⟨rfl, hRenames⟩

/- A thread goes on alike with what an act has come to. -/
theorem concludeAct
    {a : Act}
    {outcome outcome' : (a.Answer ⊕ Hold) × World V}
    (i : Nat)
    (t : Ticket)
    (k : a.Answer → Routine threadInterface (Option V))
    (hSame : outcome'.1 = outcome.1)
    (hRenames : Renames ρ outcome.2 outcome'.2) :
    Renames ρ (World.concludeAct i t a k outcome)
      (World.concludeAct i (ρ t) a k outcome') := by
  rcases outcome with ⟨answer, w⟩
  rcases outcome' with ⟨answer', w'⟩
  cases hSame
  cases answer with
  | inl r => exact hRenames.setThread i ⟨t, .ready (k r)⟩
  | inr hold => exact hRenames.setThread i ⟨t, .held a hold k⟩

/- So does a thread with any step. -/
theorem stepThread
    (hRenames : Renames ρ w w')
    (i : Nat) :
    (w'.stepThread i).1 =
        (w.stepThread i).1.map (fun (t, v) => (ρ t, v)) ∧
      Renames ρ (w.stepThread i).2 (w'.stepThread i).2 := by
  unfold World.stepThread
  rw [hRenames.threads, List.getElem?_map]
  cases hThread : w.threads[i]? with
  | none => exact ⟨rfl, hRenames⟩
  | some thread =>
      rcases thread with ⟨t, ⟨⟨_ | v⟩ | ⟨a, k⟩ | ⟨body, s, k⟩⟩ |
        ⟨a, hold, k⟩⟩
      · exact ⟨rfl, (hRenames.modifySlot t _).removeThread i⟩
      · exact ⟨rfl, (hRenames.resolve t v).removeThread i⟩
      · have hStart := hRenames.start a
        exact ⟨rfl, concludeAct i t k hStart.1 hStart.2⟩
      · exact ⟨rfl, hRenames.setThread i
          ⟨t, .ready (Routine.unroll body s k)⟩⟩
      · have hResume := hRenames.resume a hold
        exact ⟨rfl, concludeAct i t k hResume.1 hResume.2⟩

end Renames

/- The names when one more one-shot is there, at place `n`. -/
def skip
    (n t : Nat) : Nat :=
  if t < n then t else t + 1

theorem skip_injective
    {n t u : Nat}
    (hSame : skip n t = skip n u) :
    t = u := by
  unfold skip at hSame
  split at hSame <;> split at hSame <;> omega

theorem getElem?_concat_skip
    {β : Type}
    (l : List β)
    (x : β)
    (t : Nat) :
    (l ++ [x])[skip l.length t]? = l[t]? := by
  unfold skip
  split
  · next hOld => exact List.getElem?_append_left hOld
  · next hNew =>
      rw [List.getElem?_eq_none (by simp; omega),
        List.getElem?_eq_none (by omega)]

theorem skip_add
    (n k : Nat) :
    skip n (n + k) = n + 1 + k := by
  unfold skip
  rw [if_neg (by omega)]
  omega

/- It is there behind all others, and nobody uses it. -/
theorem renames_skip
    (clock : Instant)
    (pipe : Pipe)
    (slots : List (Slot V))
    (slot : Slot V) :
    Renames (skip slots.length) ⟨clock, pipe, slots, []⟩
      ⟨clock, pipe, slots ++ [slot], []⟩ where
  clock := rfl
  pipe := rfl
  threads := rfl
  slots := getElem?_concat_skip slots slot
  fresh k := by
    rw [skip_add, List.length_append, List.length_singleton]
  injective _ _ := skip_injective

end World

namespace Engine

variable {κ : Codec} {θ : Tls.Provider}

/- An engine that knows its run by another name. -/
def rename
    (ρ : Ticket → Ticket)
    (e : Engine κ θ) : Engine κ θ :=
  match e.state with
  | .running t => { e with state := .running (ρ t) }
  | _ => e

@[simp] theorem rename_running
    (ρ : Ticket → Ticket)
    (t : Ticket)
    (d : Duration) :
    rename (κ := κ) (θ := θ) ρ ⟨.running t, d⟩ =
      ⟨.running (ρ t), d⟩ :=
  rfl

@[simp] theorem rename_idle
    (ρ : Ticket → Ticket)
    (s : Surrogate κ θ)
    (d : Duration) :
    rename ρ ⟨.idle s, d⟩ = ⟨.idle s, d⟩ :=
  rfl

@[simp] theorem rename_lost
    (ρ : Ticket → Ticket)
    (d : Duration) :
    rename (κ := κ) (θ := θ) ρ ⟨.lost, d⟩ = ⟨.lost, d⟩ :=
  rfl

@[simp] theorem rename_surrogate?
    (ρ : Ticket → Ticket)
    (e : Engine κ θ) :
    (e.rename ρ).surrogate? = e.surrogate? := by
  rcases e with ⟨_ | _ | _, d⟩ <;> rfl

@[simp] theorem rename_isRunning
    (ρ : Ticket → Ticket)
    (e : Engine κ θ) :
    (e.rename ρ).isRunning = e.isRunning := by
  rcases e with ⟨_ | _ | _, d⟩ <;> rfl

end Engine

namespace Bench

variable {κ : Codec} {θ : Tls.Provider} {ε α : Type}
variable {ρ : Ticket → Ticket}
variable {w w' : World (Report κ θ)} {b c : Bench κ θ ε α}
variable {e e' : Engine κ θ}

------------------------------------------------------------
-- What can be seen
------------------------------------------------------------

/-
  What of an event does not depend on the names of one-shots:
  the routine of a thread, a report, or the result of a call
  with what the engine has after it.
-/
inductive Sight (κ : Codec) (θ : Tls.Provider) (ε α : Type) where
  | spawned (p : Routine threadInterface (Option (Report κ θ)))
  | resolved (report : Report κ θ)
  | called
      (call : EngineCall κ θ ε α)
      (result : call.Result)
      (surrogate : Option (Surrogate κ θ))
      (running : Bool)

/- What can be seen of the engine, if no call is under way. -/
def sight
    (b : Bench κ θ ε α) : Option (Option (Surrogate κ θ) × Bool) :=
  match b.desk with
  | .free e => some (e.surrogate?, e.isRunning)
  | .busy _ _ _ => none

/- What can be seen of an event. -/
def Event.sight : Event κ θ ε α → Sight κ θ ε α
  | .spawned _ p => .spawned p
  | .resolved _ report => .resolved report
  | .called call _ result after =>
    .called call result after.surrogate? after.isRunning

/-
  Two runs between which nobody sees a difference: not in what
  has happened, nor in what the pipe, the clock, the threads and
  the engine are like.
-/
structure Indistinct
    (left right : List (Event κ θ ε α) × Bench κ θ ε α) : Prop where
  events : right.1.map Event.sight = left.1.map Event.sight
  pipe : right.2.world.pipe = left.2.world.pipe
  clock : right.2.world.clock = left.2.world.clock
  threads : right.2.world.threads.map Thread.status =
    left.2.world.threads.map Thread.status
  engine : right.2.sight = left.2.sight

------------------------------------------------------------
-- Benches under other names
------------------------------------------------------------

/-
  Two owners who are at the same place, but know the one-shot
  there by different names. How their engines were before a call
  that is under way matters only for how long they wait.
-/
inductive Mirrors
    (ρ : Ticket → Ticket) :
    Desk κ θ ε α → Desk κ θ ε α → Prop where
  | free
      (e : Engine κ θ) :
      Mirrors ρ (.free e) (.free (e.rename ρ))
  | asking
      {e e' : Engine κ θ}
      (order : Order κ θ)
      (t : Ticket)
      (hTimeout : e'.joinTimeout = e.joinTimeout) :
      Mirrors ρ
        (.busy e (.start order)
          (.ready (.ask (.poll t) (e.found t order.parse))))
        (.busy e' (.start order)
          (.ready (.ask (.poll (ρ t))
            (e'.found (ρ t) order.parse))))
  | holding
      {e e' : Engine κ θ}
      (order : Order κ θ)
      (s : Surrogate κ θ)
      (hTimeout : e'.joinTimeout = e.joinTimeout) :
      Mirrors ρ
        (.busy e (.start order)
          (.ready (e.prepare s order.parse)))
        (.busy e' (.start order)
          (.ready (e'.prepare s order.parse)))
  | launching
      {e e' : Engine κ θ}
      (order : Order κ θ)
      (s : Surrogate κ θ)
      (t : Ticket)
      (hTimeout : e'.joinTimeout = e.joinTimeout) :
      Mirrors ρ
        (.busy e (.start order)
          (.ready ({ e with state := .lost }.launch
            s order.parse t)))
        (.busy e' (.start order)
          (.ready ({ e' with state := .lost }.launch
            s order.parse (ρ t))))
  | meeting
      {e e' : Engine κ θ}
      (client : Except ε α)
      (t : Ticket)
      (hTimeout : e'.joinTimeout = e.joinTimeout) :
      Mirrors ρ
        (.busy e (.join client)
          (.ready (.ask (.wait t e.joinTimeout)
            (e.met t client))))
        (.busy e' (.join client)
          (.ready (.ask (.wait (ρ t) e'.joinTimeout)
            (e'.met (ρ t) client))))
  | waiting
      {e e' : Engine κ θ}
      (client : Except ε α)
      (t : Ticket)
      (limit : Option Instant)
      (hTimeout : e'.joinTimeout = e.joinTimeout) :
      Mirrors ρ
        (.busy e (.join client)
          (.held (.wait t e.joinTimeout) (.oneshot limit)
            (e.met t client)))
        (.busy e' (.join client)
          (.held (.wait (ρ t) e'.joinTimeout) (.oneshot limit)
            (e'.met (ρ t) client)))
  | leaving
      {e e' : Engine κ θ}
      (client : Except ε α)
      (t : Ticket)
      (hTimeout : e'.joinTimeout = e.joinTimeout) :
      Mirrors ρ
        (.busy e (.join client)
          (.ready (e.met t client .pending)))
        (.busy e' (.join client)
          (.ready (e'.met (ρ t) client .pending)))

/- Two benches that differ only in the names of one-shots. -/
structure Alike
    (ρ : Ticket → Ticket)
    (b c : Bench κ θ ε α) : Prop where
  world : World.Renames ρ b.world c.world
  desk : Mirrors ρ b.desk c.desk

/- They still do after a step each, which look the same. -/
structure AlikeKept
    (ρ : Ticket → Ticket)
    (left right : List (Event κ θ ε α) × Bench κ θ ε α) : Prop where
  sights : right.1.map Event.sight = left.1.map Event.sight
  alike : Alike ρ left.2 right.2

/- A step that changes nothing on either of them. -/
theorem Alike.kept
    (hAlike : Alike ρ b c) :
    AlikeKept ρ ([], b) ([], c) :=
  ⟨rfl, hAlike⟩

/- What is noted before may be different as well. -/
theorem AlikeKept.append
    {events events' : List (Event κ θ ε α)}
    {left right : List (Event κ θ ε α) × Bench κ θ ε α}
    (hSights :
      events'.map Event.sight = events.map Event.sight)
    (hKept : AlikeKept ρ left right) :
    AlikeKept ρ (events ++ left.1, left.2)
      (events' ++ right.1, right.2) := by
  refine ⟨?_, hKept.alike⟩
  rw [List.map_append, List.map_append, hSights, hKept.sights]

/- Two calls that are over with the same result. -/
theorem kept_called
    {call : EngineCall κ θ ε α}
    {result : call.Result}
    (after : Engine κ θ)
    (hRenames : World.Renames ρ w w') :
    AlikeKept ρ
      ([.called call e result after], ⟨w, .free after⟩)
      ([.called call e' result (after.rename ρ)],
        ⟨w', .free (after.rename ρ)⟩) := by
  refine ⟨?_, hRenames, .free after⟩
  simp only [List.map_cons, List.map_nil, Event.sight,
    Engine.rename_surrogate?, Engine.rename_isRunning]

/- The same with something noted just before. -/
theorem kept_noted_called
    {events events' : List (Event κ θ ε α)}
    {call : EngineCall κ θ ε α}
    {result : call.Result}
    (after : Engine κ θ)
    (hSights :
      events'.map Event.sight = events.map Event.sight)
    (hRenames : World.Renames ρ w w') :
    AlikeKept ρ
      (events ++ [.called call e result after],
        ⟨w, .free after⟩)
      (events' ++ [.called call e' result (after.rename ρ)],
        ⟨w', .free (after.rename ρ)⟩) :=
  (kept_called after hRenames).append hSights

/- Two calls that go on. -/
theorem kept_conclude
    {call : EngineCall κ θ ε α}
    {status status' :
      World.MainStatus (Report κ θ) (call.Result × Engine κ θ)}
    (hRenames : World.Renames ρ w w')
    (hMirrors : Mirrors ρ
      (.busy e call status) (.busy e' call status')) :
    AlikeKept ρ (conclude w e call status)
      (conclude w' e' call status') := by
  have hConclude :
      conclude w e call status =
          ([], ⟨w, .busy e call status⟩) ∧
        conclude w' e' call status' =
          ([], ⟨w', .busy e' call status'⟩) := by
    cases hMirrors with
    | launching order s t hTimeout =>
        unfold Engine.launch
        cases order.parse <;> exact ⟨rfl, rfl⟩
    | asking => exact ⟨rfl, rfl⟩
    | holding => exact ⟨rfl, rfl⟩
    | meeting => exact ⟨rfl, rfl⟩
    | waiting => exact ⟨rfl, rfl⟩
    | leaving => exact ⟨rfl, rfl⟩
  rw [hConclude.1, hConclude.2]
  exact Alike.kept ⟨hRenames, hMirrors⟩

------------------------------------------------------------
-- Steps of the owner
------------------------------------------------------------

/- A call is made on both. -/
theorem Alike.call
    (hRenames : World.Renames ρ w w')
    (e : Engine κ θ)
    (call : EngineCall κ θ ε α) :
    AlikeKept ρ
      (conclude w e call (.ready (call.routine e)))
      (conclude w' (e.rename ρ) call
        (.ready (call.routine (e.rename ρ)))) := by
  rcases e with ⟨s | t | _, d⟩
  · rw [Engine.rename_idle]
    cases call with
    | start order =>
        rw [Engine.routine_start_of_idle order rfl]
        exact kept_conclude hRenames (.holding order s rfl)
    | join client => exact kept_called _ hRenames
    | surrogate => exact kept_called _ hRenames
  · rw [Engine.rename_running]
    cases call with
    | start order =>
        rw [Engine.routine_start_of_running order rfl,
          Engine.routine_start_of_running order rfl]
        exact kept_conclude hRenames (.asking order t rfl)
    | join client =>
        have hJoin : ∀ t : Ticket,
            EngineCall.routine ⟨.running t, d⟩ (.join client) =
              .ask (I := mainInterface (Report κ θ)) (.wait t d)
                (Engine.met ⟨.running t, d⟩ t client) :=
          fun t =>
            Engine.join_of_running (e := ⟨.running t, d⟩)
              client rfl
        rw [hJoin t, hJoin (ρ t)]
        exact kept_conclude hRenames (.meeting client t rfl)
    | surrogate =>
        exact kept_called ⟨.running t, d⟩ hRenames
  · rw [Engine.rename_lost]
    cases call with
    | start order =>
        rw [Engine.routine_start_of_lost order rfl]
        exact kept_called _ hRenames
    | join client => exact kept_called _ hRenames
    | surrogate => exact kept_called _ hRenames

/-
  The owner goes on with a start: he looks for the report of the
  run before.
-/
theorem Alike.goOn_asking
    (hRenames : World.Renames ρ w w')
    (order : Order κ θ)
    (t : Ticket)
    (hTimeout : e'.joinTimeout = e.joinTimeout) :
    AlikeKept (ε := ε) (α := α) ρ
      (goOn ⟨w, .busy e (.start order)
        (.ready (.ask (.poll t) (e.found t order.parse)))⟩)
      (goOn ⟨w', .busy e' (.start order)
        (.ready (.ask (.poll (ρ t))
          (e'.found (ρ t) order.parse)))⟩) := by
  rcases e with ⟨state, d⟩
  rcases e' with ⟨state', d'⟩
  cases hTimeout
  have hPoll := hRenames.poll t
  have hMove : w.startMove (.poll t) =
      (.inl (w.poll t).1, (w.poll t).2) :=
    rfl
  have hMove' : w'.startMove (.poll (ρ t)) =
      (.inl (w.poll t).1, (w'.poll (ρ t)).2) := by
    rw [← hPoll.1]
    rfl
  rw [goOn_of_answered hMove, goOn_of_answered hMove']
  apply AlikeKept.append rfl
  cases (w.poll t).1 with
  | ready report =>
      exact kept_conclude hPoll.2
        (.holding order report.surrogate rfl)
  | pending => exact kept_called ⟨.running t, d⟩ hPoll.2
  | abandoned => exact kept_called ⟨.lost, d⟩ hPoll.2

/- He makes a one-shot for the run. -/
theorem Alike.goOn_holding
    (hRenames : World.Renames ρ w w')
    (order : Order κ θ)
    (s : Surrogate κ θ)
    (hTimeout : e'.joinTimeout = e.joinTimeout) :
    AlikeKept (ε := ε) (α := α) ρ
      (goOn ⟨w, .busy e (.start order)
        (.ready (e.prepare s order.parse))⟩)
      (goOn ⟨w', .busy e' (.start order)
        (.ready (e'.prepare s order.parse))⟩) := by
  have hMove : ∀ w : World (Report κ θ),
      w.startMove (.oneshot (some Engine.seat)) =
        (.inl w.slots.length,
          { w with
            slots := w.slots ++ [⟨.new, some Engine.seat⟩] }) :=
    fun _ => rfl
  have hName : w'.slots.length = ρ w.slots.length :=
    (hRenames.fresh 0).symm
  unfold Engine.prepare
  rw [goOn_of_answered (hMove w), goOn_of_answered (hMove w'),
    hName]
  apply AlikeKept.append rfl
  exact kept_conclude (hRenames.addSlot _)
    (.launching order s w.slots.length hTimeout)

/- A launch starts a thread for the script. -/
theorem goOn_launch_ok
    (w : World (Report κ θ))
    (before e : Engine κ θ)
    (order : Order κ θ)
    (s : Surrogate κ θ)
    (script : Script κ θ)
    (t : Ticket) :
    goOn (ε := ε) (α := α) ⟨w, .busy before (.start order)
        (.ready (e.launch s (.ok script) t))⟩ =
      ([.spawned t (Engine.runner s script)] ++
          [.called (.start order) before (.ok ())
            { e with state := .running t }],
        ⟨{ w with
            threads := w.threads ++
              [⟨t, .ready (Engine.runner s script)⟩] },
          .free { e with state := .running t }⟩) :=
  rfl

/- For one that makes no sense the run is over at once. -/
theorem goOn_launch_error
    (w : World (Report κ θ))
    (before e : Engine κ θ)
    (order : Order κ θ)
    (s : Surrogate κ θ)
    (error : ScriptError)
    (t : Ticket) :
    goOn (ε := ε) (α := α) ⟨w, .busy before (.start order)
        (.ready (e.launch s (.error error) t))⟩ =
      ([.resolved t ⟨s, .failed error⟩] ++
          [.called (.start order) before (.ok ())
            { e with state := .running t }],
        ⟨w.resolve t ⟨s, .failed error⟩,
          .free { e with state := .running t }⟩) :=
  rfl

/- He launches the run. -/
theorem Alike.goOn_launching
    (hRenames : World.Renames ρ w w')
    (order : Order κ θ)
    (s : Surrogate κ θ)
    (t : Ticket)
    (hTimeout : e'.joinTimeout = e.joinTimeout) :
    AlikeKept (ε := ε) (α := α) ρ
      (goOn ⟨w, .busy e (.start order)
        (.ready ({ e with state := .lost }.launch
          s order.parse t))⟩)
      (goOn ⟨w', .busy e' (.start order)
        (.ready ({ e' with state := .lost }.launch
          s order.parse (ρ t)))⟩) := by
  rcases e with ⟨state, d⟩
  rcases e' with ⟨state', d'⟩
  cases hTimeout
  cases order.parse with
  | ok script =>
      have hThreads : World.Renames ρ
          { w with
            threads := w.threads ++
              [⟨t, .ready (Engine.runner s script)⟩] }
          { w' with
            threads := w'.threads ++
              [⟨ρ t, .ready (Engine.runner s script)⟩] } := by
        apply hRenames.withThreads
        rw [hRenames.threads, List.map_append]
        rfl
      rw [goOn_launch_ok, goOn_launch_ok]
      exact kept_noted_called ⟨.running t, d⟩ rfl hThreads
  | error error =>
      rw [goOn_launch_error, goOn_launch_error]
      exact kept_noted_called ⟨.running t, d⟩ rfl
        (hRenames.resolve t _)

/- A join begins to wait. -/
theorem Alike.goOn_meeting
    (hRenames : World.Renames ρ w w')
    (client : Except ε α)
    (t : Ticket)
    (hTimeout : e'.joinTimeout = e.joinTimeout) :
    AlikeKept ρ
      (goOn ⟨w, .busy e (.join client)
        (.ready (.ask (.wait t e.joinTimeout)
          (e.met t client)))⟩)
      (goOn ⟨w', .busy e' (.join client)
        (.ready (.ask (.wait (ρ t) e'.joinTimeout)
          (e'.met (ρ t) client)))⟩) := by
  have hMove : w.startMove (.wait t e.joinTimeout) =
      (.inr (.oneshot
        (Instant.after? w.clock e.joinTimeout)), w) :=
    rfl
  have hMove' : w'.startMove (.wait (ρ t) e'.joinTimeout) =
      (.inr (.oneshot
        (Instant.after? w.clock e.joinTimeout)), w') := by
    rw [← hRenames.clock, ← hTimeout]
    rfl
  rw [goOn_of_held hMove, goOn_of_held hMove']
  exact kept_conclude hRenames (.waiting client t _ hTimeout)

/- A join that waits looks for the report. -/
theorem Alike.goOn_waiting
    (hRenames : World.Renames ρ w w')
    (client : Except ε α)
    (t : Ticket)
    (limit : Option Instant)
    (hTimeout : e'.joinTimeout = e.joinTimeout) :
    AlikeKept ρ
      (goOn ⟨w, .busy e (.join client)
        (.held (.wait t e.joinTimeout) (.oneshot limit)
          (e.met t client))⟩)
      (goOn ⟨w', .busy e' (.join client)
        (.held (.wait (ρ t) e'.joinTimeout) (.oneshot limit)
          (e'.met (ρ t) client))⟩) := by
  rcases e with ⟨state, d⟩
  rcases e' with ⟨state', d'⟩
  cases hTimeout
  have hResume := hRenames.resumeMove_wait t d limit
  have hHold := World.hold_of_resumeMove_wait w t d limit
  rcases hMove : w.resumeMove (.wait t d) (.oneshot limit) with
    ⟨answer, v⟩
  rcases hMove' :
    w'.resumeMove (.wait (ρ t) d) (.oneshot limit) with
    ⟨answer', v'⟩
  rw [hMove, hMove'] at hResume
  rw [hMove] at hHold
  rcases hResume with ⟨hSame, hAfter⟩
  cases hSame
  cases answer with
  | inr hold =>
      obtain rfl := hHold hold rfl
      rw [goOn_of_waiting hMove, goOn_of_waiting hMove']
      exact kept_conclude hAfter (.waiting client t limit rfl)
  | inl settled =>
      rw [goOn_of_resumed hMove, goOn_of_resumed hMove']
      cases settled with
      | ready report =>
          exact kept_called ⟨.idle report.surrogate, d⟩ hAfter
      | abandoned => exact kept_called ⟨.lost, d⟩ hAfter
      | pending =>
          exact kept_conclude hAfter (.leaving client t rfl)

/- A join that has waited in vain gives the run up. -/
theorem Alike.goOn_leaving
    (hRenames : World.Renames ρ w w')
    (client : Except ε α)
    (t : Ticket)
    (hTimeout : e'.joinTimeout = e.joinTimeout) :
    AlikeKept ρ
      (goOn ⟨w, .busy e (.join client)
        (.ready (e.met t client .pending))⟩)
      (goOn ⟨w', .busy e' (.join client)
        (.ready (e'.met (ρ t) client .pending))⟩) := by
  rcases e with ⟨state, d⟩
  rcases e' with ⟨state', d'⟩
  cases hTimeout
  exact kept_called ⟨.lost, d⟩ (hRenames.dropPending t)

/- The owner goes on with a call. -/
theorem Alike.goOn
    (hAlike : Alike ρ b c) :
    AlikeKept ρ b.goOn c.goOn := by
  rcases b with ⟨w, desk⟩
  rcases c with ⟨w', desk'⟩
  rcases hAlike with ⟨hRenames, hDesk⟩
  cases hDesk with
  | free e => exact Alike.kept ⟨hRenames, .free e⟩
  | asking order t hTimeout =>
      exact Alike.goOn_asking hRenames order t hTimeout
  | holding order s hTimeout =>
      exact Alike.goOn_holding hRenames order s hTimeout
  | launching order s t hTimeout =>
      exact Alike.goOn_launching hRenames order s t hTimeout
  | meeting client t hTimeout =>
      exact Alike.goOn_meeting hRenames client t hTimeout
  | waiting client t limit hTimeout =>
      exact Alike.goOn_waiting hRenames client t limit hTimeout
  | leaving client t hTimeout =>
      exact Alike.goOn_leaving hRenames client t hTimeout

/- No thread can be started. -/
theorem Alike.refuse
    (hAlike : Alike ρ b c)
    (error : IoError) :
    AlikeKept ρ (b.refuse error) (c.refuse error) := by
  have hSame := hAlike.kept
  rcases b with ⟨w, desk⟩
  rcases c with ⟨w', desk'⟩
  rcases hAlike with ⟨hRenames, hDesk⟩
  cases hDesk with
  | @launching e e' order s t hTimeout =>
      rcases e with ⟨state, d⟩
      rcases e' with ⟨state', d'⟩
      cases hTimeout
      generalize order.parse = parsed at hSame ⊢
      cases parsed with
      | error error => exact hSame
      | ok script =>
          exact kept_called ⟨.lost, d⟩
            ((hRenames.modifySlot t _).abandon _)
  | free e => exact hSame
  | asking order t hTimeout => exact hSame
  | holding order s hTimeout => exact hSame
  | meeting client t hTimeout => exact hSame
  | waiting client t limit hTimeout => exact hSame
  | leaving client t hTimeout => exact hSame

------------------------------------------------------------
-- All steps
------------------------------------------------------------

/- A thread goes on. -/
theorem Alike.runner
    (hAlike : Alike ρ b c)
    (i : Nat) :
    AlikeKept ρ (b.step (.runner i)) (c.step (.runner i)) := by
  have hThread := hAlike.world.stepThread i
  refine ⟨?_, hThread.2, hAlike.desk⟩
  change (resolutions (c.world.stepThread i).1).map _ =
    (resolutions (b.world.stepThread i).1).map _
  rw [hThread.1]
  rcases (b.world.stepThread i).1 with _ | ⟨t, report⟩ <;> rfl

/- Whatever happens, two benches that are alike stay so. -/
theorem Alike.step
    (hAlike : Alike ρ b c)
    (choice : Choice κ θ ε α) :
    AlikeKept ρ (b.step choice) (c.step choice) := by
  cases choice with
  | goOn => exact hAlike.goOn
  | refuse error => exact hAlike.refuse error
  | runner i => exact hAlike.runner i
  | outside pipe clock =>
      exact Alike.kept
        ⟨hAlike.world.outside pipe clock, hAlike.desk⟩
  | call call =>
      have hSame := hAlike.kept
      rcases b with ⟨w, desk⟩
      rcases c with ⟨w', desk'⟩
      rcases hAlike with ⟨hRenames, hDesk⟩
      cases hDesk with
      | free e => exact Alike.call hRenames e call
      | asking order t hTimeout => exact hSame
      | holding order s hTimeout => exact hSame
      | launching order s t hTimeout => exact hSame
      | meeting client t hTimeout => exact hSame
      | waiting client t limit hTimeout => exact hSame
      | leaving client t hTimeout => exact hSame

/- So it is with any number of steps. -/
theorem Alike.play
    (hAlike : Alike ρ b c)
    (choices : List (Choice κ θ ε α)) :
    AlikeKept ρ (b.play choices) (c.play choices) := by
  induction choices generalizing b c with
  | nil => exact hAlike.kept
  | cons choice choices ih =>
      have hStep := hAlike.step choice
      exact (ih hStep.alike).append hStep.sights

/- And nobody sees a difference. -/
theorem AlikeKept.indistinct
    {left right : List (Event κ θ ε α) × Bench κ θ ε α}
    (hKept : AlikeKept ρ left right) :
    Indistinct left right where
  events := hKept.sights
  pipe := hKept.alike.world.pipe
  clock := hKept.alike.world.clock
  threads := by
    rw [hKept.alike.world.threads, List.map_map]
    rfl
  engine := by
    rcases left with ⟨log, w, desk⟩
    rcases right with ⟨log', w', desk'⟩
    cases hKept.alike.desk with
    | free e => simp [sight]
    | _ => rfl

end Bench

end Parley
