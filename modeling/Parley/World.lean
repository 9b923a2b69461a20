import Parley.Pipe.Call
import Parley.Oneshot
import Parley.Failure
/-
  This file gives the world in which routines run: a clock, a
  pipe, one-shots, and threads that share them.

  The clock moves only when nothing else can: every operation
  takes no time, a thread runs until it has to wait, and when
  all wait the clock goes on to the first moment at which one
  of them need not wait any longer.

  Key definitions include:
    * `Act`
    * `threadInterface`
    * `Move`
    * `mainInterface`
    * `MainRoutine`
    * `MainRoutine.beside`
    * `World`
    * `World.new`
    * `World.run`
    * `World.play`
-/

namespace Parley

------------------------------------------------------------
-- What threads can do
------------------------------------------------------------

/-
  What every thread can do: use an endpoint, or let time pass.
-/
inductive Act where
  | on (side : Side) (call : Call)
  | sleep (d : Duration)

/- The answer to each act. -/
abbrev Act.Answer : Act → Type
  | on _ call => call.Answer
  | sleep _ => Unit

/- The interface of a thread. -/
def threadInterface : Interface where
  Op := Act
  Answer := Act.Answer

/-
  A routine over an endpoint, carried out at one side of the
  pipe.
-/
def Routine.atSide
    {α : Type}
    (side : Side)
    (p : Routine endpointInterface α) : Routine threadInterface α :=
  p.through (J := threadInterface) fun call => .call (I := threadInterface) (.on side call)

/- One-shots are known by number. -/
abbrev Ticket :=
  Nat

/-
  What the main thread can do besides: make one-shots and use
  both of their ends, and start threads. A thread takes over the
  resolver of a one-shot and resolves it with its result, or
  drops it if it has none. A one-shot may say that the endpoint
  of a side travels with its value.
-/
inductive Move (V : Type) where
  | act (a : Act)
  | oneshot (carries : Option Side)
  | resolve (t : Ticket) (v : V)
  | dropResolver (t : Ticket)
  | spawn (t : Ticket) (p : Routine threadInterface (Option V))
  | poll (t : Ticket)
  | wait (t : Ticket) (timeout : Duration)
  | dropPending (t : Ticket)

/- The answer to each move. -/
abbrev Move.Answer
    {V : Type} : Move V → Type
  | act a => a.Answer
  | oneshot _ => Ticket
  | spawn _ _ => Except IoError Unit
  | poll _ => Settled V
  | wait _ _ => Settled V
  | _ => Unit

/- The interface of the main thread. -/
def mainInterface
    (V : Type) : Interface where
  Op := Move V
  Answer := Move.Answer

/-
  What the main thread does, where other threads give back
  values of type `V`.
-/
abbrev MainRoutine (V α : Type) :=
  Routine (mainInterface V) α

namespace MainRoutine

variable {V α : Type}

/- Make a move. -/
def move
    (m : Move V) : MainRoutine V m.Answer :=
  .call (I := mainInterface V) m

/- What any thread could do, done by the main thread. -/
def ofThread
    (p : Routine threadInterface α) : MainRoutine V α :=
  p.through (J := mainInterface V) fun a => move (.act a)

/- Do something at one side of the pipe. -/
def atSide
    (side : Side)
    (p : Routine endpointInterface α) : MainRoutine V α :=
  ofThread (p.atSide side)

/- Let some time pass; no time at all is no pause. -/
def pause
    (d : Duration) : MainRoutine V Unit :=
  if d = .zero then .done () else move (.act (.sleep d))

/- A span beyond the last instant, which limits nothing. -/
def always : Duration :=
  .ofSeconds Instant.secondsLimit

/-
  Do something on a thread of its own and, after a pause,
  something else here; go on when both are over.
-/
def beside
    (there : Routine threadInterface V)
    (delay : Duration)
    (here : MainRoutine V α) : MainRoutine V (Settled V × α) :=
  (move (.oneshot none)).bind fun t =>
    (move (.spawn t (there.bind fun v => .done (some v)))).bind fun _ =>
      (pause delay).bind fun () =>
        here.bind fun a => (move (.wait t always)).bind fun v => .done (v, a)

end MainRoutine

------------------------------------------------------------
-- The world
------------------------------------------------------------

/-
  Why a thread waits: for a signal on the pipe beyond those it
  has seen, or for a moment.
-/
inductive Hold where
  | inCall (stage : Call.Stage) (seen : Nat)
  | until (moment : Instant)

/- What a thread is about to do. -/
inductive Status (V : Type) where
  | ready (p : Routine threadInterface (Option V))
  | held (a : Act) (hold : Hold) (k : a.Answer → Routine threadInterface (Option V))

/- A thread, with the one-shot that it resolves in the end. -/
structure Thread (V : Type) where
  ticket : Ticket
  status : Status V

/-
  A one-shot, and the side whose endpoint travels with its
  value.
-/
structure Slot (V : Type) where
  oneshot : Oneshot V
  carries : Option Side

/- Everything that the threads share. -/
structure World (V : Type) where
  clock : Instant
  pipe : Pipe
  slots : List (Slot V)
  threads : List (Thread V)

namespace World

variable {V α : Type}

/- A world with nothing in it but a pipe. -/
def new
    (pipe : Pipe) : World V where
  clock := 0
  pipe := pipe
  slots := []
  threads := []

------------------------------------------------------------
-- Acts
------------------------------------------------------------

/-
  Look at the pipe for a call; if that gives no answer, wait for
  the next signal.
-/
def look
    (w : World V)
    (side : Side)
    (call : Call)
    (stage : Call.Stage) : (call.Answer ⊕ Hold) × World V :=
  match call.look stage w.pipe side w.clock with
  | (.answer r, pipe) => (.inl r, { w with pipe := pipe })
  | (.wait stage, pipe) =>
    (.inr (.inCall stage (pipe.signals.get (call.waitsFor side))), { w with pipe := pipe })

/- Begin an act. -/
def start
    (w : World V)
    (a : Act) : (a.Answer ⊕ Hold) × World V :=
  match a with
  | .on side call => w.look side call (call.begin w.pipe side w.clock)
  | .sleep d => (.inr (.until (w.clock + d.nanos)), w)

/- Whether an act need not wait any longer. -/
def isDue
    (w : World V)
    (a : Act)
    (hold : Hold) : Bool :=
  match a, hold with
  | .on side call, .inCall stage seen =>
    w.pipe.signals.get (call.waitsFor side) != seen || stage.timer.hasExpired w.clock
  | _, .until moment => decide (moment ≤ w.clock)
  | .sleep _, .inCall _ _ => true

/- Go on with an act. -/
def resume
    (w : World V)
    (a : Act)
    (hold : Hold) : (a.Answer ⊕ Hold) × World V :=
  match a, hold with
  | .on side call, .inCall stage _ => w.look side call stage
  | .on side call, .until _ => w.look side call (call.begin w.pipe side w.clock)
  | .sleep _, _ => (.inl (), w)

/- The moment at which waiting ends by itself. -/
def alarm : Hold → Option Instant
  | .inCall stage _ => stage.timer.expiry
  | .until moment => some moment

------------------------------------------------------------
-- One-shots
------------------------------------------------------------

/- An endpoint that is left behind closes. -/
def abandon
    (w : World V)
    (carries : Option Side) : World V :=
  match carries with
  | some side => { w with pipe := w.pipe.close side }
  | none => w

/- Change a one-shot. -/
def modifySlot
    (w : World V)
    (t : Ticket)
    (f : Oneshot V → Oneshot V) : World V :=
  { w with slots := w.slots.modify t fun s => { s with oneshot := f s.oneshot } }

/-
  Resolve a one-shot; a value that nobody waits for leaves its
  endpoint behind.
-/
def resolve
    (w : World V)
    (t : Ticket)
    (v : V) : World V :=
  match w.slots[t]? with
  | none => w
  | some slot =>
    let w := w.modifySlot t (·.resolve v)
    if slot.oneshot.hasPending then w else w.abandon slot.carries

/- Look for the value of a one-shot. -/
def poll
    (w : World V)
    (t : Ticket) : Settled V × World V :=
  match w.slots[t]? with
  | none => (.abandoned, w)
  | some slot =>
    let (answer, _) := slot.oneshot.poll
    (answer, w.modifySlot t fun o => o.poll.2)

/-
  Give up the reading end of a one-shot; a value that waits
  there leaves its endpoint behind.
-/
def dropPending
    (w : World V)
    (t : Ticket) : World V :=
  match w.slots[t]? with
  | none => w
  | some slot =>
    let w := w.modifySlot t Oneshot.dropPending
    if slot.oneshot.value.isSome then w.abandon slot.carries else w

------------------------------------------------------------
-- Threads
------------------------------------------------------------

/- Whether a thread can go on. -/
def canRun
    (w : World V)
    (t : Thread V) : Bool :=
  match t.status with
  | .ready _ => true
  | .held a hold _ => w.isDue a hold

/-
  Run a thread until it has to wait or has ended; `none` when
  the fuel is gone.
-/
def advance : Nat → World V → Thread V → Option (World V × Option (Thread V))
  | 0, _, _ => none
  | fuel + 1, w, t =>
    match t.status with
    | .held a hold k =>
      match w.resume a hold with
      | (.inl r, w) => advance fuel w { t with status := .ready (k r) }
      | (.inr hold, w) => some (w, some { t with status := .held a hold k })
    | .ready (.done (some v)) => some (w.resolve t.ticket v, none)
    | .ready (.done none) => some (w.modifySlot t.ticket Oneshot.dropResolver, none)
    | .ready (.loop body s k) =>
      advance fuel w { t with status := .ready (Routine.unroll body s k) }
    | .ready (.ask a k) =>
      match w.start a with
      | (.inl r, w) => advance fuel w { t with status := .ready (k r) }
      | (.inr hold, w) => some (w, some { t with status := .held a hold k })

/-
  Let the first thread that can go on do so; `none` in the
  middle when none can.
-/
def advanceFirst
    (fuel : Nat)
    (w : World V) : Option (Option (World V)) :=
  match w.threads.findIdx? (w.canRun ·) with
  | none => some none
  | some i =>
    match w.threads[i]? with
    | none => some none
    | some t =>
      match advance fuel w t with
      | none => none
      | some (w, none) => some (some { w with threads := w.threads.eraseIdx i })
      | some (w, some t) => some (some { w with threads := w.threads.set i t })

/- The alarm of a thread that waits. -/
def alarmOf
    (t : Thread V) : Option Instant :=
  match t.status with
  | .ready _ => none
  | .held _ hold _ => alarm hold

/- The first of two moments, where either may be missing. -/
def earlier
    (x y : Option Instant) : Option Instant :=
  match x, y with
  | some a, some b => some (min a b)
  | some a, none => some a
  | none, y => y

/-
  The first moment at which a thread need not wait any longer.
-/
def nextAlarm
    (w : World V) : Option Instant :=
  w.threads.foldl (fun acc t => earlier acc (alarmOf t)) none

------------------------------------------------------------
-- The main thread
------------------------------------------------------------

/-
  Why the main thread waits: in an act, or for a one-shot with a
  limit.
-/
inductive MainHold where
  | act (hold : Hold)
  | oneshot (limit : Option Instant)

/- Begin a move. -/
def startMove
    (w : World V)
    (m : Move V) : (m.Answer ⊕ MainHold) × World V :=
  match m with
  | .act a =>
    match w.start a with
    | (.inl r, w) => (.inl r, w)
    | (.inr hold, w) => (.inr (.act hold), w)
  | .oneshot carries =>
    (.inl w.slots.length, { w with slots := w.slots ++ [⟨.new, carries⟩] })
  | .resolve t v => (.inl (), w.resolve t v)
  | .dropResolver t => (.inl (), w.modifySlot t Oneshot.dropResolver)
  | .spawn t p => (.inl (.ok ()), { w with threads := w.threads ++ [⟨t, .ready p⟩] })
  | .poll t =>
    let (answer, w) := w.poll t
    (.inl answer, w)
  | .wait _ timeout => (.inr (.oneshot (Instant.after? w.clock timeout)), w)
  | .dropPending t => (.inl (), w.dropPending t)

/- Go on with a move if that is possible now. -/
def resumeMove
    (w : World V)
    (m : Move V)
    (hold : MainHold) : (m.Answer ⊕ MainHold) × World V :=
  match m, hold with
  | .act a, .act hold =>
    if w.isDue a hold then
      match w.resume a hold with
      | (.inl r, w) => (.inl r, w)
      | (.inr hold, w) => (.inr (.act hold), w)
    else (.inr (.act hold), w)
  | .wait t _, .oneshot limit =>
    match w.poll t with
    | (.pending, w) =>
      match limit with
      | some moment =>
        if moment ≤ w.clock then (.inl .pending, w) else (.inr (.oneshot limit), w)
      | none => (.inr (.oneshot limit), w)
    | (answer, w) => (.inl answer, w)
  | _, hold => (.inr hold, w)

/- The alarm of the main thread. -/
def mainAlarm : MainHold → Option Instant
  | .act hold => alarm hold
  | .oneshot limit => limit

/- What the main thread is about to do. -/
inductive MainStatus (V α : Type) where
  | ready (p : MainRoutine V α)
  | held (m : Move V) (hold : MainHold) (k : m.Answer → MainRoutine V α)

/-
  Run the main thread, and the others whenever it waits. There
  is no result when everyone waits for something that cannot
  come, or when the fuel is gone.
-/
def run : Nat → World V → MainStatus V α → Option (α × World V)
  | 0, _, _ => none
  | _ + 1, w, .ready (.done a) => some (a, w)
  | fuel + 1, w, .ready (.loop body s k) => run fuel w (.ready (Routine.unroll body s k))
  | fuel + 1, w, .ready (.ask m k) =>
    match w.startMove m with
    | (.inl r, w) => run fuel w (.ready (k r))
    | (.inr hold, w) => run fuel w (.held m hold k)
  | fuel + 1, w, .held m hold k =>
    match w.resumeMove m hold with
    | (.inl r, w) => run fuel w (.ready (k r))
    | (.inr hold, w) =>
      match w.advanceFirst fuel with
      | none => none
      | some (some w) => run fuel w (.held m hold k)
      | some none =>
        match earlier (mainAlarm hold) w.nextAlarm with
        | none => none
        | some moment =>
          if moment ≤ w.clock then none else run fuel { w with clock := moment } (.held m hold k)

/- More steps than any conversation takes. -/
def budget : Nat :=
  1000000000000

/- Run a conversation over a pipe. -/
def play
    (pipe : Pipe)
    (p : MainRoutine V α) : Option α :=
  (run budget (new pipe) (.ready p)).map (·.1)

end World

end Parley
