import Parley.Proofs.Environment
import Parley.Proofs.Dialogue.Exchange
import Parley.Proofs.Pipe.Steady
/-
  This file lets two parties talk over a pipe on terms: what
  each of them may have said when it has heard so much. A party
  honours the terms if it says no more than it may, as long as
  the other says no more than that one may. If both honour the
  terms, then what each ends with is as promised, in every run.

  Nothing is said about the order in which they speak and
  listen, and nothing about whether they ever come to an end.

  Key definitions include:
    * `Dialogue.Terms`
    * `Dialogue.Terms.honouring`
    * `Dialogue.Honours`
    * `Dialogue.OnTerms`

  Key theorems include:
    * `Dialogue.Pending.honoured`
    * `Dialogue.OnTerms.visit`
    * `Dialogue.onTerms_of_run`
-/

namespace Parley

namespace Dialogue

open Routine Traffic

------------------------------------------------------------
-- Terms
------------------------------------------------------------

/-
  What a party may have said when it has heard so much. To hear
  more takes nothing of that back, and a first part of what may
  be said may be said.
-/
structure Terms where
  may : Role → Bytes → Bytes → Prop
  may_nil : ∀ r, may r [] []
  may_of_heard :
    ∀ {r heard more said},
      heard <+: more → may r heard said → may r more said
  may_of_said :
    ∀ {r heard said more},
      said <+: more → may r heard more → may r heard said

/-
  Where a party on these terms is, by what it got and gave: it
  may receive at any time, up to `limit` bytes all in all, and
  send what it may say. It gets what the other may say.
-/
def Terms.honouring
    (terms : Terms)
    (limit : Nat)
    (r : Role) :
    Environment endpointInterface (Bytes × Bytes) where
  admits w call :=
    match call with
    | .recv room => 0 < room
    | .send src => terms.may r w.1 (w.2 ++ src)
    | _ => False
  answers w call a w' :=
    match call, a with
    | .recv room, a => ∃ more : Bytes,
      a = .ok more ∧ more ≠ [] ∧ more.length ≤ room ∧
        terms.may r.other w.2 (w.1 ++ more) ∧
        (w.1 ++ more).length ≤ limit ∧
        w' = (w.1 ++ more, w.2)
    | .send src, a => a = .ok src.length ∧ w' = (w.1, w.2 ++ src)
    | _, _ => False

section

variable {α : Type} {terms : Terms} {r : Role}
variable {post : α → Bytes → Bytes → Prop} {got gave : Bytes}

/-
  From here on a party says what it may and ends as `post` says,
  however much it may come to hear.
-/
def Honours
    (terms : Terms)
    (r : Role)
    (post : α → Bytes → Bytes → Prop)
    (p : Routine endpointInterface α)
    (got gave : Bytes) : Prop :=
  ∀ limit, got.length ≤ limit →
    Yields (terms.honouring limit r)
      (fun a w => post a w.1 w.2) p (got, gave)

namespace Honours

/- A party that is done ends as promised. -/
theorem post_of_done
    {a : α}
    (hHonours : Honours terms r post (.done a) got gave) :
    post a got gave :=
  (hHonours _ (Nat.le_refl _)).post_of_done

/- A party goes on with its next round as before. -/
theorem unroll
    {σ β : Type}
    {body : σ → Routine endpointInterface (σ ⊕ β)}
    {s : σ}
    {k : β → Routine endpointInterface α}
    (hHonours : Honours terms r post (.loop body s k) got gave) :
    Honours terms r post (Routine.unroll body s k) got gave :=
  fun limit hLimit => (hHonours limit hLimit).unroll

/- A read has room, and any answer on the terms is prepared for. -/
theorem of_recv
    {room : Nat}
    {k : (Call.recv room).Answer → Routine endpointInterface α}
    (hHonours :
      Honours terms r post
        (.ask (I := endpointInterface) (Call.recv room) k)
        got gave) :
    0 < room ∧
      ∀ chunk : Bytes,
        chunk ≠ [] → chunk.length ≤ room →
        terms.may r.other gave (got ++ chunk) →
        Honours terms r post (k (.ok chunk)) (got ++ chunk)
          gave := by
  constructor
  · exact (hHonours _ (Nat.le_refl _)).of_ask.1
  · intro chunk hSome hFits hMay limit hLimit
    have hEarlier : got.length ≤ limit := by
      rw [List.length_append] at hLimit
      omega
    exact (hHonours limit hEarlier).of_ask.2 _ _
      ⟨chunk, rfl, hSome, hFits, hMay, hLimit, rfl⟩

/- A send is on the terms, and is prepared for its answer. -/
theorem of_send
    {src : Bytes}
    {k : (Call.send src).Answer → Routine endpointInterface α}
    (hHonours :
      Honours terms r post
        (.ask (I := endpointInterface) (Call.send src) k)
        got gave) :
    terms.may r got (gave ++ src) ∧
      Honours terms r post (k (.ok src.length)) got
        (gave ++ src) := by
  constructor
  · exact (hHonours _ (Nat.le_refl _)).of_ask.1
  · intro limit hLimit
    exact (hHonours limit hLimit).of_ask.2 _ _ ⟨rfl, rfl⟩

end Honours

------------------------------------------------------------
-- Calls under way
------------------------------------------------------------

/-
  A call of a party that honoured the terms when it asked for
  it, when so many of its bytes were not yet given out.
-/
structure Pending
    (terms : Terms)
    (r : Role)
    (post : α → Bytes → Bytes → Prop)
    (call : Call)
    (stage : Call.Stage)
    (k : call.Answer → Routine endpointInterface α)
    (got gave : Bytes) : Prop where
  timer : stage.timer = {}
  written_le : stage.sending.written ≤ call.payload.length
  rest :
    stage.sending.rest = call.payload.drop stage.sending.written
  honours :
    ∃ earlier,
      gave = earlier ++ call.payload.take stage.sending.written ∧
        Honours terms r post
          (.ask (I := endpointInterface) call k) got earlier

/-
  What comes of such a call by one hold of the lock: the party
  is prepared for its answer, or the call is under way as
  before, and what was said by then was on the terms.
-/
structure Honoured
    {ι : Type}
    (terms : Terms)
    (r : Role)
    (post : α → Bytes → Bytes → Prop)
    (v : Visit ι)
    (k : v.call.Answer → Routine endpointInterface α)
    (got gave : Bytes) : Prop where
  call_ne : v.call ≠ .clear
  not_closes : ∀ s, ¬ v.closes s
  limits : v.after.limits = v.before.limits
  may :
    terms.may r (got ++ v.delivered v.side)
      (gave ++ v.accepted v.side.other)
  outcome :
    match v.outcome.1 with
    | .answer a =>
      Honours terms r post (k a)
        (got ++ v.delivered v.side)
        (gave ++ v.accepted v.side.other)
    | .wait stage =>
      Pending terms r post v.call stage k
        (got ++ v.delivered v.side)
        (gave ++ v.accepted v.side.other)

namespace Pending

/- A call is under way when it begins. -/
theorem begins
    {call : Call}
    {k : call.Answer → Routine endpointInterface α}
    {p : Pipe}
    {s : Side}
    {began : Instant}
    (hLimits : p.limits = ⟨{}, {}⟩)
    (hHonours :
      Honours terms r post
        (.ask (I := endpointInterface) call k) got gave) :
    Pending terms r post call (call.begin p s began) k
      got gave := by
  have hTimer := call.timer_begin hLimits s began
  have hAdmits := (hHonours _ (Nat.le_refl _)).of_ask.1
  cases call with
  | recv room =>
      refine ⟨hTimer, Nat.le_refl 0, rfl, gave, ?_, hHonours⟩
      simp [Call.payload]
  | send src =>
      refine ⟨hTimer, Nat.zero_le _, rfl, gave, ?_, hHonours⟩
      simp [Call.begin]
  | _ => exact hAdmits.elim

/- A read that honours the terms goes on to do so. -/
theorem honoured_recv
    {ι : Type}
    {party : ι}
    {side : Side}
    {room : Nat}
    {stage : Call.Stage}
    {now : Instant}
    {pipe : Pipe}
    {k : (Call.recv room).Answer → Routine endpointInterface α}
    (hPending :
      Pending terms r post (.recv room) stage k got gave)
    (hSound : pipe.Sound)
    (hEof : (pipe.queues.get side).eof = false)
    (hMay : terms.may r got gave)
    (hHeard :
      terms.may r.other gave
        (got ++ (pipe.queues.get side).unread)) :
    Honoured terms r post
      (Visit.mk party side (.recv room) stage now pipe) k
      got gave := by
  rcases hPending.honours with ⟨earlier, hEarlier, hHonours⟩
  simp only [Call.payload, List.take_nil, List.append_nil]
    at hEarlier
  subst hEarlier
  rcases hHonours.of_recv with ⟨hRoom, hAnswered⟩
  rcases Visit.steady_recv party now
    hPending.timer hSound hEof hRoom with
    hSteady | ⟨chunk, hSome, hFits, hThere, hSteady⟩
  · refine ⟨hSteady.call_ne, hSteady.not_closes, hSteady.limits,
      ?_, ?_⟩
    · rw [hSteady.delivered_eq, hSteady.accepted_eq,
        List.append_nil, List.append_nil]
      exact hMay
    · rw [hSteady.outcome_eq, hSteady.delivered_eq,
        hSteady.accepted_eq, List.append_nil, List.append_nil]
      exact hPending
  · refine ⟨hSteady.call_ne, hSteady.not_closes, hSteady.limits,
      ?_, ?_⟩
    · rw [hSteady.delivered_eq, hSteady.accepted_eq,
        List.append_nil]
      exact terms.may_of_heard (List.prefix_append _ _) hMay
    · rw [hSteady.outcome_eq, hSteady.delivered_eq,
        hSteady.accepted_eq, List.append_nil]
      apply hAnswered chunk hSome hFits
      apply terms.may_of_said _ hHeard
      exact (List.prefix_append_right_inj got).mpr hThere

/- A send that honours the terms goes on to do so. -/
theorem honoured_send
    {ι : Type}
    {party : ι}
    {side : Side}
    {src : Bytes}
    {stage : Call.Stage}
    {now : Instant}
    {pipe : Pipe}
    {k : (Call.send src).Answer → Routine endpointInterface α}
    (hPending :
      Pending terms r post (.send src) stage k got gave)
    (hSound : pipe.Sound)
    (hEof : (pipe.queues.get side.other).eof = false) :
    Honoured terms r post
      (Visit.mk party side (.send src) stage now pipe) k
      got gave := by
  rcases hPending with
    ⟨hTimer, hWritten, hRest, earlier, hGave, hHonours⟩
  rcases stage with ⟨timer, written, rest⟩
  simp only [Call.payload] at hTimer hWritten hRest hGave
  subst hTimer hRest hGave
  rcases hHonours.of_send with ⟨hMay, hAnswered⟩
  rcases Visit.steady_send party now hWritten
    hSound hEof with hSteady | ⟨count, hLeft, hSteady⟩
  · refine ⟨hSteady.call_ne, hSteady.not_closes, hSteady.limits,
      ?_, ?_⟩
    · rw [hSteady.delivered_eq, hSteady.accepted_eq,
        List.append_nil, List.append_assoc, List.take_append_drop]
      exact hMay
    · rw [hSteady.outcome_eq, hSteady.delivered_eq,
        hSteady.accepted_eq, List.append_nil, List.append_assoc,
        List.take_append_drop]
      exact hAnswered
  · have hGiven :
        earlier ++ src.take written ++
            (src.drop written).take count =
          earlier ++ src.take (written + count) := by
      rw [List.append_assoc, ← List.take_add]
    refine ⟨hSteady.call_ne, hSteady.not_closes, hSteady.limits,
      ?_, ?_⟩
    · rw [hSteady.delivered_eq, hSteady.accepted_eq,
        List.append_nil, hGiven]
      apply terms.may_of_said _ hMay
      exact (List.prefix_append_right_inj earlier).mpr
        (List.take_prefix _ src)
    · rw [hSteady.outcome_eq, hSteady.delivered_eq,
        hSteady.accepted_eq, List.append_nil, hGiven]
      exact ⟨rfl, Nat.le_of_lt hLeft, rfl, earlier, rfl,
        hHonours⟩

/- A call that honours the terms goes on to do so. -/
theorem honoured
    {ι : Type}
    {v : Visit ι}
    {k : v.call.Answer → Routine endpointInterface α}
    (hPending : Pending terms r post v.call v.stage k got gave)
    (hSound : v.before.Sound)
    (hEof : ∀ s, (v.before.queues.get s).eof = false)
    (hMay : terms.may r got gave)
    (hHeard :
      terms.may r.other gave
        (got ++ (v.before.queues.get v.side).unread)) :
    Honoured terms r post v k got gave := by
  rcases v with ⟨party, side, call, stage, now, pipe⟩
  cases call with
  | recv room =>
      exact hPending.honoured_recv hSound (hEof side) hMay hHeard
  | send src => exact hPending.honoured_send hSound (hEof side.other)
  | _ =>
      rcases hPending.honours with ⟨_, -, hHonours⟩
      exact ((hHonours _ (Nat.le_refl _)).of_ask.1).elim

end Pending

/-
  A party honours the terms from where it is: in what is left of
  its routine, or in the call that it waits in.
-/
def PartyHonours
    (terms : Terms)
    (r : Role)
    (post : α → Bytes → Bytes → Prop)
    (got gave : Bytes) :
    (party : Party α) → Prop
  | .ready p => Honours terms r post p got gave
  | .held call stage _ k =>
    Pending terms r post call stage k got gave

end

------------------------------------------------------------
-- Two parties on terms
------------------------------------------------------------

variable {R : Role → Type} {terms : Terms} {home : Side}
variable {post : (r : Role) → R r → Bytes → Bytes → Prop}
variable {log : List (Visit Role)} {t : Traffic R}

/-
  What every step keeps: nothing was closed or cleared, no time
  limit is set, and each party has said no more than it may, by
  what it heard, and honours the terms.
-/
structure OnTerms
    (terms : Terms)
    (home : Side)
    (post : (r : Role) → R r → Bytes → Bytes → Prop)
    (log : List (Visit Role))
    (t : Traffic R) : Prop where
  call_ne : ∀ v ∈ log, v.call ≠ .clear
  not_closes : ∀ v ∈ log, ∀ s, ¬ v.closes s
  limits : t.pipe.limits = ⟨{}, {}⟩
  may : ∀ r,
    terms.may r (delivered (r.seat home) log)
      (accepted (r.seat home).other log)
  honours : ∀ r,
    PartyHonours terms r (post r)
      (delivered (r.seat home) log)
      (accepted (r.seat home).other log) (t.parties r)

namespace OnTerms

/-
  A hold of the lock by a call that is under way keeps all of
  this. What the other party may have said by what it heard, it
  may have said by what was on its way to it.
-/
theorem visit
    {v : Visit Role}
    {k : v.call.Answer → Routine endpointInterface (R v.party)}
    (hOnTerms : OnTerms terms home post log t)
    (hSound : t.pipe.Sound)
    (hEof : ∀ s, (t.pipe.queues.get s).eof = false)
    (hBooks : ∀ s,
      delivered s log ++ (t.pipe.queues.get s).unread =
        accepted s log)
    (hBefore : v.before = t.pipe)
    (hSide : v.side = v.party.seat home)
    (hPending :
      Pending terms v.party (post v.party) v.call v.stage k
        (delivered v.side log) (accepted v.side.other log)) :
    OnTerms terms home post (log ++ [v]) (t.conclude v k) := by
  have hMay := hOnTerms.may v.party
  have hHeard := hOnTerms.may v.party.other
  rw [Role.seat_other, Side.other_other, ← hSide] at hHeard
  rw [← hSide] at hMay
  have hOnItsWay :
      terms.may v.party.other (accepted v.side.other log)
        (accepted v.side log) := by
    apply terms.may_of_heard _ hHeard
    rw [← hBooks v.side.other]
    exact List.prefix_append _ _
  rw [← hBooks v.side, ← hBefore] at hOnItsWay
  rw [← hBefore] at hSound hEof
  have hHonoured := hPending.honoured hSound hEof hMay hOnItsWay
  refine ⟨?_, ?_, ?_, ?_, ?_⟩
  · rw [List.forall_mem_append, List.forall_mem_singleton]
    exact ⟨hOnTerms.call_ne, hHonoured.call_ne⟩
  · rw [List.forall_mem_append, List.forall_mem_singleton]
    exact ⟨hOnTerms.not_closes, hHonoured.not_closes⟩
  · have hLimits := hHonoured.limits
    rw [hBefore, hOnTerms.limits] at hLimits
    exact hLimits
  · intro r
    rcases r.eq_or_eq_other v.party with rfl | rfl
    · rw [← hSide, accepted_concat, delivered_concat]
      exact hHonoured.may
    · rw [Role.seat_other, ← hSide, Side.other_other,
        accepted_concat_side, delivered_concat_other]
      exact hHeard
  · intro r
    rcases r.eq_or_eq_other v.party with rfl | rfl
    · have hOutcome := hHonoured.outcome
      rw [conclude_parties_self, ← hSide, accepted_concat,
        delivered_concat]
      cases hLook : v.outcome.1 with
      | answer a =>
          rw [hLook] at hOutcome
          exact hOutcome
      | wait stage =>
          rw [hLook] at hOutcome
          exact hOutcome
    · have hOther := hOnTerms.honours v.party.other
      rw [conclude_parties_of_ne t v k v.party.other_ne]
      rw [Role.seat_other, ← hSide, Side.other_other] at hOther ⊢
      rw [accepted_concat_side, delivered_concat_other]
      exact hOther

/- A party that begins the next round of a loop keeps it. -/
theorem around
    {r : Role}
    {σ β : Type}
    {body : σ → Routine endpointInterface (σ ⊕ β)}
    {s : σ}
    {k : β → Routine endpointInterface (R r)}
    (hOnTerms : OnTerms terms home post log t)
    (hParty : t.parties r = .ready (.loop body s k)) :
    OnTerms terms home post log
      { t with
        parties := Function.update t.parties r
          (.ready (Routine.unroll body s k)) } := by
  refine ⟨hOnTerms.call_ne, hOnTerms.not_closes,
    hOnTerms.limits, hOnTerms.may, ?_⟩
  intro q
  by_cases hSame : q = r
  · subst hSame
    have hLoop := hOnTerms.honours q
    rw [hParty] at hLoop
    simp only [Function.update_self]
    exact Honours.unroll hLoop
  · simp only [Function.update_of_ne hSame]
    exact hOnTerms.honours q

/- A party that is done has come to what was promised. -/
theorem post_of_done
    {r : Role}
    {a : R r}
    (hOnTerms : OnTerms terms home post log t)
    (hDone : t.parties r = .ready (.done a)) :
    post r a (delivered (r.seat home) log)
      (accepted (r.seat home).other log) := by
  have hParty := hOnTerms.honours r
  rw [hDone] at hParty
  exact Honours.post_of_done hParty

end OnTerms

/- Two routines that honour the terms do so in every run. -/
theorem onTerms_of_run
    {nameA nameB : String}
    {capacity : Nat}
    {routines : (r : Role) → Routine endpointInterface (R r)}
    (hRun :
      Run (Role.seat home)
        (new (.pair nameA nameB capacity) routines) log t)
    (hHonours : ∀ r,
      Honours terms r (post r) (routines r) [] []) :
    OnTerms terms home post log t := by
  induction hRun with
  | refl =>
      refine ⟨?_, ?_, rfl, terms.may_nil, hHonours⟩
      · simp
      · simp
  | @advance log t r began now _ _ hRun ih =>
      have hSound := hRun.sound (.pair nameA nameB capacity)
      have hEof := hRun.eof_eq_false ih.not_closes
      have hBooks : ∀ s,
          delivered s log ++ (t.pipe.queues.get s).unread =
            accepted s log :=
        hRun.delivered_append_unread ih.call_ne ih.not_closes
      have hParty := ih.honours r
      have hStep := t.advanced_advance (Role.seat home) r began now
      generalize t.advance (Role.seat home) r began now = step
        at hStep ⊢
      cases hStep with
      | rests =>
          rw [List.append_nil]
          exact ih
      | around body s k hThere =>
          rw [List.append_nil]
          exact ih.around hThere
      | begins call k hThere =>
          rw [hThere] at hParty
          apply ih.visit hSound hEof hBooks rfl rfl
          exact Pending.begins ih.limits hParty
      | resumes call stage seen k hThere =>
          rw [hThere] at hParty
          exact ih.visit hSound hEof hBooks rfl rfl hParty

end Dialogue

end Parley
