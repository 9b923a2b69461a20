import Parley.Pipe.Call
import Parley.Proofs.Dialogue.Plan
/-
  This file says what it means that a routine keeps to a plan:
  it gives out what the plan has it say, asks for bytes only in
  a turn of the other party that it has not heard to its end,
  and ends with a given property of its result, of what it got
  and of what it gave. It may count on getting what the plan
  has the other party say.

  The property is a weakest precondition by recursion on the
  routine. A loop keeps to a plan by an invariant.

  Key definitions include:
    * `Dialogue.Listening`
    * `Dialogue.Speaking`
    * `Dialogue.Asks`
    * `Dialogue.Keeps`

  Key theorems include:
    * `Dialogue.Keeps.mono`
    * `Dialogue.keeps_bind`
    * `Dialogue.Keeps.unroll`
-/

namespace Parley

namespace Dialogue

------------------------------------------------------------
-- Calls that the plan allows
------------------------------------------------------------

/- The other party speaks, and not all of it has been heard. -/
def Listening
    (plan : List Turn)
    (r : Role)
    (got gave : Bytes) : Prop :=
  ∃ past turn,
    past ++ [turn] <+: plan ∧
    turn.speaker = r.other ∧
    Past past r got gave ∧
    got.length < (said (past ++ [turn]) r.other).length

/- The turn is the party's own, and `src` is what comes next. -/
def Speaking
    (plan : List Turn)
    (r : Role)
    (src got gave : Bytes) : Prop :=
  ∃ past turn,
    past ++ [turn] <+: plan ∧
    turn.speaker = r ∧
    Past past r got gave ∧
    gave ++ src <+: said (past ++ [turn]) r

/-
  A call that the plan allows. The routine must go on well with
  whatever bytes of the plan may come, and with the answer to a
  send that was not cut short; no other call is allowed.
-/
def Asks
    (plan : List Turn)
    (r : Role)
    (call : Call)
    (got gave : Bytes)
    (next : call.Answer → Bytes → Bytes → Prop) : Prop :=
  match call with
  | .recv room =>
    0 < room ∧
    Listening plan r got gave ∧
    ∀ more : Bytes,
      more ≠ [] → more.length ≤ room →
      got ++ more <+: said plan r.other →
      next (.ok more) (got ++ more) gave
  | .send src =>
    Speaking plan r src got gave ∧
    next (.ok src.length) got (gave ++ src)
  | _ => False

/- What is asked for does not depend on how it is gone on. -/
theorem Asks.mono
    {plan : List Turn}
    {r : Role}
    {call : Call}
    {got gave : Bytes}
    {next next' : call.Answer → Bytes → Bytes → Prop}
    (hNext : ∀ a got gave, next a got gave → next' a got gave)
    (hAsks : Asks plan r call got gave next) :
    Asks plan r call got gave next' := by
  cases call with
  | recv room =>
      rcases hAsks with ⟨hRoom, hListening, hMore⟩
      refine ⟨hRoom, hListening, ?_⟩
      intro more hSome hFits hPlan
      exact hNext _ _ _ (hMore more hSome hFits hPlan)
  | send src =>
      rcases hAsks with ⟨hSpeaking, hSent⟩
      exact ⟨hSpeaking, hNext _ _ _ hSent⟩
  | _ => exact hAsks

------------------------------------------------------------
-- Routines that keep to the plan
------------------------------------------------------------

/- Keep to the plan from here on, and end as `post` says. -/
def Keeps
    (plan : List Turn)
    (r : Role) :
    {α : Type} →
    (p : Routine endpointInterface α) →
    (post : α → Bytes → Bytes → Prop) →
    (got gave : Bytes) → Prop
  | _, .done a, post, got, gave => post a got gave
  | _, .ask call k, post, got, gave =>
    Asks plan r call got gave fun a => Keeps plan r (k a) post
  | _, .loop (σ := σ) body s k, post, got, gave =>
    ∃ inv : σ → Bytes → Bytes → Prop,
      inv s got gave ∧
      ∀ s got gave, inv s got gave →
        Keeps plan r (body s)
          (fun
            | .inl s => inv s
            | .inr b => Keeps plan r (k b) post)
          got gave

section

variable {plan : List Turn} {r : Role} {α β : Type}

/- It does no harm to promise less of the end. -/
theorem Keeps.mono
    {p : Routine endpointInterface α}
    {post post' : α → Bytes → Bytes → Prop}
    {got gave : Bytes}
    (hPost : ∀ a got gave, post a got gave → post' a got gave)
    (hKeeps : Keeps plan r p post got gave) :
    Keeps plan r p post' got gave := by
  induction p generalizing got gave with
  | done a => exact hPost a got gave hKeeps
  | ask call k ih =>
      exact Asks.mono (fun a _ _ => ih a hPost) hKeeps
  | loop body s k ihBody ih =>
      rcases hKeeps with ⟨inv, hInv, hBody⟩
      refine ⟨inv, hInv, fun s got gave hInv => ?_⟩
      apply ihBody s _ (hBody s got gave hInv)
      rintro (s | b) got gave hRound
      · exact hRound
      · exact ih b hPost hRound

/- A sequence keeps to the plan when its second part does. -/
theorem keeps_bind
    (p : Routine endpointInterface α)
    (f : α → Routine endpointInterface β)
    (post : β → Bytes → Bytes → Prop) :
    Keeps plan r (p.bind f) post =
      Keeps plan r p fun a => Keeps plan r (f a) post := by
  induction p with
  | done a => rfl
  | ask call k ih =>
      funext got gave
      simp only [Routine.bind, Keeps]
      exact congrArg (Asks plan r call got gave)
        (funext fun a => ih a f)
  | loop body s k _ ih =>
      funext got gave
      simp only [Routine.bind, Keeps, ih]

/- A loop that keeps to the plan does so round by round. -/
theorem Keeps.unroll
    {σ : Type}
    {body : σ → Routine endpointInterface (σ ⊕ β)}
    {s : σ}
    {k : β → Routine endpointInterface α}
    {post : α → Bytes → Bytes → Prop}
    {got gave : Bytes}
    (hKeeps : Keeps plan r (.loop body s k) post got gave) :
    Keeps plan r (Routine.unroll body s k) post got gave := by
  rcases hKeeps with ⟨inv, hInv, hBody⟩
  rw [Routine.unroll, keeps_bind]
  apply (hBody s got gave hInv).mono
  rintro (s | b) got gave hRound
  · exact ⟨inv, hRound, hBody⟩
  · exact hRound

end

end Dialogue

end Parley
