import Parley.Conversation.Play
/-
  This file gives conversations about a single one-shot: its
  two ends are used on the main thread, and once by a thread
  that resolves it later.

  Key definitions include:
    * `OneshotStep`
    * `OneshotEnds`
    * `OneshotEnds.turn`
    * `OneshotEnds.play`
-/

namespace Parley

/-
  A step on a one-shot. `waitResolve` hands the resolver to a
  thread that uses it after a delay, or drops it if there is no
  value, and waits for what comes of it.
-/
inductive OneshotStep where
  | resolve (v : String)
  | dropResolver
  | dropPending
  | poll
  | wait (timeout : Duration)
  | waitResolve (v : Option String) (delay timeout : Duration)
deriving DecidableEq, Repr

/- The ends of a one-shot that are still in hand. -/
structure OneshotEnds where
  ticket : Ticket
  hasResolver : Bool := true
  hasPending : Bool := true
deriving DecidableEq, Repr

namespace OneshotEnds

/- What the thread does that resolves the one-shot later. -/
def resolveLater
    (v : Option String)
    (delay : Duration) : Routine threadInterface (Option String) :=
  (Routine.call (I := threadInterface) (.sleep delay)).bind fun () => .done v

/- Take a step of which each end it needs is in hand. -/
def take
    (o : OneshotEnds) : OneshotStep → MainRoutine String (Reply × OneshotEnds)
  | .resolve v =>
    (MainRoutine.move (.resolve o.ticket v)).bind fun () =>
      .done (.ok, { o with hasResolver := false })
  | .dropResolver =>
    (MainRoutine.move (.dropResolver o.ticket)).bind fun () =>
      .done (.ok, { o with hasResolver := false })
  | .dropPending =>
    (MainRoutine.move (.dropPending o.ticket)).bind fun () =>
      .done (.ok, { o with hasPending := false })
  | .poll => (MainRoutine.move (.poll o.ticket)).bind fun r => .done (.settled r, o)
  | .wait timeout =>
    (MainRoutine.move (.wait o.ticket timeout)).bind fun r => .done (.settled r, o)
  | .waitResolve v delay timeout =>
    (MainRoutine.move (.spawn o.ticket (resolveLater v delay))).bind fun _ =>
      (MainRoutine.move (.wait o.ticket timeout)).bind fun r =>
        (MainRoutine.move (.act (.sleep delay))).bind fun () =>
          .done (.settled r, { o with hasResolver := false })

/- Whether a step needs the resolver. -/
def needsResolver : OneshotStep → Bool
  | .resolve _ => true
  | .dropResolver => true
  | .waitResolve _ _ _ => true
  | _ => false

/- Whether a step needs the reading end. -/
def needsPending : OneshotStep → Bool
  | .resolve _ => false
  | .dropResolver => false
  | _ => true

/-
  Take a turn; a missing resolver is noticed before a missing
  reading end.
-/
def turn
    (o : OneshotEnds)
    (step : OneshotStep) : MainRoutine String (Entry × OneshotEnds) :=
  (if needsResolver step && !o.hasResolver then .done (.spent, o)
    else if needsPending step && !o.hasPending then .done (.gone, o)
    else o.take step).bind fun (r, o) => .done (.single r, o)

/- Play a conversation about a new one-shot. -/
def play
    (steps : List OneshotStep) : Option (List (Entry × Unit)) :=
  World.play (Pipe.pair "" "" 0)
    ((MainRoutine.move (V := String) (.oneshot none)).bind fun t =>
      (Routine.forEach turn { ticket := t } steps).bind fun (entries, _) =>
        .done (entries.map fun entry => (entry, ())))

end OneshotEnds

end Parley
