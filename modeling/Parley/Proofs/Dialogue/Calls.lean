import Parley.Proofs.Dialogue.Keeping
import Parley.Proofs.Pipe.Steady
/-
  This file follows a call of a party that keeps to a plan
  through one hold of the lock, in an open pipe without time
  limits: the call is answered as the plan foresees, or waits
  having brought some more of its bytes on their way.

  Key definitions include:
    * `Dialogue.UnderWay`
    * `Dialogue.GoesOn`

  Key theorems include:
    * `Dialogue.UnderWay.begins`
    * `Dialogue.UnderWay.listening`
    * `Dialogue.UnderWay.speaking`
    * `Dialogue.UnderWay.goesOn`
-/

namespace Parley

/- The bytes that a call is to put into the pipe. -/
def Call.payload :
    (call : Call) → Bytes
  | .send src => src
  | _ => []

namespace Dialogue

variable {ι : Type} {plan : List Turn} {r : Role}
variable {got gave : Bytes}

------------------------------------------------------------
-- Calls under way
------------------------------------------------------------

/-
  A call that the plan allowed when it began, when so many of
  its bytes were not yet given out.
-/
structure UnderWay
    (plan : List Turn)
    (r : Role)
    (call : Call)
    (stage : Call.Stage)
    (next : call.Answer → Bytes → Bytes → Prop)
    (got gave : Bytes) : Prop where
  timer : stage.timer = {}
  written_le :
    stage.sending.written ≤ call.payload.length
  rest :
    stage.sending.rest = call.payload.drop stage.sending.written
  asks :
    ∃ earlier,
      gave = earlier ++ call.payload.take stage.sending.written ∧
      Asks plan r call got earlier next

/- A call that waits has bytes left, if it is a send at all. -/
def BytesLeft
    (call : Call)
    (stage : Call.Stage) : Prop :=
  ∀ src, call = .send src → stage.sending.rest ≠ []

/-
  What comes of a call by one hold of the lock: its answer is
  one that its routine is prepared for, or it is under way as
  before. What was delivered and accepted is accounted for.
-/
structure GoesOn
    (plan : List Turn)
    (r : Role)
    (v : Visit ι)
    (next : v.call.Answer → Bytes → Bytes → Prop)
    (got gave : Bytes) : Prop where
  call_ne : v.call ≠ .clear
  not_closes : ∀ s, ¬ v.closes s
  limits : v.after.limits = v.before.limits
  gave_isPrefix : gave ++ v.accepted v.side.other <+: said plan r
  outcome :
    match v.outcome.1 with
    | .answer a =>
      next a (got ++ v.delivered v.side)
        (gave ++ v.accepted v.side.other)
    | .wait stage =>
      UnderWay plan r v.call stage next
        (got ++ v.delivered v.side)
        (gave ++ v.accepted v.side.other) ∧
      BytesLeft v.call stage

/- A call that the plan allows is under way when it begins. -/
theorem UnderWay.begins
    {call : Call}
    {next : call.Answer → Bytes → Bytes → Prop}
    {p : Pipe}
    {s : Side}
    {began : Instant}
    (hLimits : p.limits = ⟨{}, {}⟩)
    (hAsks : Asks plan r call got gave next) :
    UnderWay plan r call (call.begin p s began) next
      got gave := by
  have hTimer := call.timer_begin hLimits s began
  cases call with
  | recv room =>
      refine ⟨hTimer, Nat.le_refl 0, rfl, gave, ?_, hAsks⟩
      simp [Call.payload]
  | send src =>
      refine ⟨hTimer, Nat.zero_le _, rfl, gave, ?_, hAsks⟩
      simp [Call.begin]
  | _ => exact hAsks.elim

/- What is under way stays within what the plan has said. -/
theorem Speaking.said_isPrefix
    {src : Bytes}
    (hSpeaking : Speaking plan r src got gave) :
    gave ++ src <+: said plan r := by
  rcases hSpeaking with ⟨past, turn, hPlan, -, -, hSaid⟩
  exact hSaid.trans (Dialogue.said_isPrefix hPlan r)

/- A read under way is in a turn of the other party. -/
theorem UnderWay.listening
    {room : Nat}
    {stage : Call.Stage}
    {next : (Call.recv room).Answer → Bytes → Bytes → Prop}
    (hUnderWay :
      UnderWay plan r (.recv room) stage next got gave) :
    Listening plan r got gave := by
  rcases hUnderWay.asks with
    ⟨earlier, hGave, -, hListening, -⟩
  simp only [Call.payload, List.take_nil, List.append_nil]
    at hGave
  rw [hGave]
  exact hListening

/-
  A send under way that has bytes left is in a turn of its own
  party, and not all of that turn has been given.
-/
theorem UnderWay.speaking
    {src : Bytes}
    {stage : Call.Stage}
    {next : (Call.send src).Answer → Bytes → Bytes → Prop}
    (hUnderWay :
      UnderWay plan r (.send src) stage next got gave)
    (hLeft : BytesLeft (.send src) stage) :
    ∃ past turn,
      past ++ [turn] <+: plan ∧
      turn.speaker = r ∧
      Past past r got gave ∧
      gave.length < (said (past ++ [turn]) r).length := by
  rcases hUnderWay with
    ⟨-, -, hRest, earlier, hGave, hSpeaking, -⟩
  rcases hSpeaking with
    ⟨past, turn, hPlan, hSpeaker, hPast, hSaid⟩
  have hSome : stage.sending.written < src.length := by
    have hNonempty := hLeft src rfl
    rw [hRest, Call.payload, ne_eq, List.drop_eq_nil_iff]
      at hNonempty
    exact Nat.lt_of_not_le hNonempty
  have hTurn := hSaid.length_le
  have hLength := congrArg List.length hGave
  rw [List.length_append] at hTurn
  rw [Call.payload, List.length_append, List.length_take]
    at hLength
  have hSaidBefore := hPast.said_le
  refine ⟨past, turn, hPlan, hSpeaker,
    ⟨by omega, hPast.heard_le⟩, by omega⟩

------------------------------------------------------------
-- One hold of the lock
------------------------------------------------------------

/- A read that keeps to the plan goes on. -/
theorem UnderWay.goesOn_recv
    {party : ι}
    {side : Side}
    {room : Nat}
    {stage : Call.Stage}
    {now : Instant}
    {pipe : Pipe}
    {next : (Call.recv room).Answer → Bytes → Bytes → Prop}
    (hUnderWay :
      UnderWay plan r (.recv room) stage next got gave)
    (hSound : pipe.Sound)
    (hEof : (pipe.queues.get side).eof = false)
    (hGave : gave <+: said plan r)
    (hHeard :
      got ++ (pipe.queues.get side).unread <+:
        said plan r.other) :
    GoesOn plan r
      (Visit.mk party side (.recv room) stage now pipe) next
      got gave := by
  rcases hUnderWay.asks with
    ⟨earlier, hEarlier, hRoom, -, hMore⟩
  simp only [Call.payload, List.take_nil, List.append_nil]
    at hEarlier
  subst hEarlier
  rcases Visit.steady_recv party now hUnderWay.timer hSound hEof
    hRoom with hSteady | ⟨chunk, hSome, hFits, hThere, hSteady⟩
  · refine ⟨hSteady.call_ne, hSteady.not_closes, hSteady.limits,
      ?_, ?_⟩
    · rw [hSteady.accepted_eq, List.append_nil]
      exact hGave
    · rw [hSteady.outcome_eq, hSteady.delivered_eq,
        hSteady.accepted_eq, List.append_nil, List.append_nil]
      refine ⟨hUnderWay, ?_⟩
      intro src hCall
      cases hCall
  · refine ⟨hSteady.call_ne, hSteady.not_closes, hSteady.limits,
      ?_, ?_⟩
    · rw [hSteady.accepted_eq, List.append_nil]
      exact hGave
    · rw [hSteady.outcome_eq, hSteady.delivered_eq,
        hSteady.accepted_eq, List.append_nil]
      apply hMore chunk hSome hFits
      have hTaken :
          got ++ chunk <+:
            got ++ (pipe.queues.get side).unread :=
        (List.prefix_append_right_inj got).mpr hThere
      exact hTaken.trans hHeard

/- A send that keeps to the plan goes on. -/
theorem UnderWay.goesOn_send
    {party : ι}
    {side : Side}
    {src : Bytes}
    {stage : Call.Stage}
    {now : Instant}
    {pipe : Pipe}
    {next : (Call.send src).Answer → Bytes → Bytes → Prop}
    (hUnderWay :
      UnderWay plan r (.send src) stage next got gave)
    (hSound : pipe.Sound)
    (hEof : (pipe.queues.get side.other).eof = false) :
    GoesOn plan r
      (Visit.mk party side (.send src) stage now pipe) next
      got gave := by
  rcases hUnderWay with
    ⟨hTimer, hWritten, hRest, earlier, hGave, hSpeaking, hNext⟩
  rcases stage with ⟨timer, written, rest⟩
  simp only [Call.payload] at hTimer hWritten hRest hGave
  subst hTimer hRest hGave
  rcases Visit.steady_send party now hWritten hSound hEof with
    hSteady | ⟨count, hLeft, hSteady⟩
  · -- All its bytes are on their way now.
    refine ⟨hSteady.call_ne, hSteady.not_closes, hSteady.limits,
      ?_, ?_⟩
    · rw [hSteady.accepted_eq, List.append_assoc,
        List.take_append_drop]
      exact hSpeaking.said_isPrefix
    · rw [hSteady.outcome_eq, hSteady.delivered_eq,
        hSteady.accepted_eq, List.append_nil, List.append_assoc,
        List.take_append_drop]
      exact hNext
  · -- Some bytes are, maybe none, and others are left.
    have hGiven :
        earlier ++ src.take written ++
            (src.drop written).take count =
          earlier ++ src.take (written + count) := by
      rw [List.append_assoc, ← List.take_add]
    have hPart :
        earlier ++ src.take (written + count) <+:
          earlier ++ src :=
      (List.prefix_append_right_inj earlier).mpr
        (List.take_prefix _ src)
    refine ⟨hSteady.call_ne, hSteady.not_closes, hSteady.limits,
      ?_, ?_⟩
    · rw [hSteady.accepted_eq, hGiven]
      exact hPart.trans hSpeaking.said_isPrefix
    · rw [hSteady.outcome_eq, hSteady.delivered_eq,
        hSteady.accepted_eq, List.append_nil, hGiven]
      refine ⟨⟨rfl, Nat.le_of_lt hLeft, rfl, earlier, rfl,
        hSpeaking, hNext⟩, ?_⟩
      intro _ _
      rw [ne_eq, List.drop_eq_nil_iff]
      exact Nat.not_le_of_lt hLeft

/- A call that keeps to the plan goes on. -/
theorem UnderWay.goesOn
    {v : Visit ι}
    {next : v.call.Answer → Bytes → Bytes → Prop}
    (hUnderWay : UnderWay plan r v.call v.stage next got gave)
    (hSound : v.before.Sound)
    (hEof : ∀ s, (v.before.queues.get s).eof = false)
    (hGave : gave <+: said plan r)
    (hHeard :
      got ++ (v.before.queues.get v.side).unread <+:
        said plan r.other) :
    GoesOn plan r v next got gave := by
  rcases v with ⟨party, side, call, stage, now, pipe⟩
  cases call with
  | recv room =>
      exact hUnderWay.goesOn_recv hSound (hEof side) hGave hHeard
  | send src =>
      exact hUnderWay.goesOn_send hSound (hEof side.other)
  | _ =>
      rcases hUnderWay.asks with ⟨_, -, hAsks⟩
      exact hAsks.elim

end Dialogue

end Parley
