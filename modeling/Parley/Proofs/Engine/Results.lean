import Parley.Engine.Basic
/-
  This file says with which results a routine can end, whatever
  it is answered, and applies it to the routine of a run: such a
  run always reports, and what it reports is the surrogate and
  the outcome of carrying out its script.

  Key definitions include:
    * `Routine.Gives`
    * `Routine.resultBy`
    * `Routine.Always`

  Key theorems include:
    * `Routine.gives_of_resultBy`
    * `Routine.gives_bind`
    * `Routine.gives_ifOk`
    * `Routine.always_iterate`
    * `Routine.gives_atSide`
    * `Engine.report_of_gives_runner`
-/

universe u

namespace Parley

namespace Routine

section

variable {I : Interface.{u}} {α β : Type}

/- A routine can end with a result, by some answers to it. -/
inductive Gives : {α : Type} → Routine I α → α → Prop where
  | done
      {α : Type}
      (a : α) :
      Gives (.done a) a
  | ask
      {α : Type}
      {op : I.Op}
      {k : I.Answer op → Routine I α}
      {a : α}
      (r : I.Answer op)
      (hGives : Gives (k r) a) :
      Gives (.ask op k) a
  | loop
      {σ β α : Type}
      {body : σ → Routine I (σ ⊕ β)}
      {s : σ}
      {k : β → Routine I α}
      {a : α}
      (hGives : Gives (unroll body s k) a) :
      Gives (.loop body s k) a

/-
  What a routine ends with if each operation is always answered
  alike. It is given up after so many operations and rounds.
-/
def resultBy
    (answer : (op : I.Op) → I.Answer op) :
    {α : Type} → Nat → Routine I α → Option α
  | _, _, .done a => some a
  | _, 0, _ => none
  | _, fuel + 1, .ask op k => resultBy answer fuel (k (answer op))
  | _, fuel + 1, .loop body s k =>
    resultBy answer fuel (unroll body s k)

/- That is an ending that it can come to. -/
theorem gives_of_resultBy
    {answer : (op : I.Op) → I.Answer op}
    {fuel : Nat}
    {p : Routine I α}
    {a : α}
    (hResult : p.resultBy answer fuel = some a) :
    Gives p a := by
  induction fuel generalizing p with
  | zero =>
      cases p with
      | done b =>
          cases hResult
          exact .done _
      | ask op k => cases hResult
      | loop body s k => cases hResult
  | succ fuel ih =>
      cases p with
      | done b =>
          cases hResult
          exact .done _
      | ask op k => exact .ask (answer op) (ih hResult)
      | loop body s k => exact .loop (ih hResult)

/- A sequence ends with what its second part gives. -/
theorem gives_bind
    {p : Routine I α}
    {f : α → Routine I β}
    {b : β}
    (hGives : Gives (p.bind f) b) :
    ∃ a, Gives p a ∧ Gives (f a) b := by
  generalize hWhole : p.bind f = q at hGives
  induction hGives generalizing p with
  | done b =>
      cases p with
      | done a =>
          refine ⟨a, .done a, ?_⟩
          rw [done_bind] at hWhole
          rw [hWhole]
          exact .done b
      | ask op k => cases hWhole
      | loop body s k => cases hWhole
  | ask r hGives ih =>
      cases p with
      | done a =>
          refine ⟨a, .done a, ?_⟩
          rw [done_bind] at hWhole
          rw [hWhole]
          exact .ask r hGives
      | ask op k =>
          cases hWhole
          rcases ih rfl with ⟨a, hFirst, hSecond⟩
          exact ⟨a, .ask r hFirst, hSecond⟩
      | loop body s k => cases hWhole
  | loop hGives ih =>
      cases p with
      | done a =>
          refine ⟨a, .done a, ?_⟩
          rw [done_bind] at hWhole
          rw [hWhole]
          exact .loop hGives
      | ask op k => cases hWhole
      | loop body s k =>
          cases hWhole
          rcases ih (unroll_bind _ _ _ _) with
            ⟨a, hFirst, hSecond⟩
          exact ⟨a, .loop hFirst, hSecond⟩

/- What its parts give in turn is given by a sequence. -/
theorem Gives.bind
    {p : Routine I α}
    {f : α → Routine I β}
    {a : α}
    {b : β}
    (hFirst : Gives p a)
    (hSecond : Gives (f a) b) :
    Gives (p.bind f) b := by
  induction hFirst with
  | done a => exact hSecond
  | ask r _ ih => exact .ask r (ih hSecond)
  | loop _ ih =>
      refine .loop ?_
      rw [← unroll_bind]
      exact ih hSecond

/-
  A routine that goes on with a value has failed in its first
  part, or has come to its second part.
-/
theorem gives_ifOk
    {ε σ : Type}
    {p : Routine I (Except ε α × σ)}
    {f : α → σ → Routine I (Except ε β × σ)}
    {r : Except ε β}
    {s' : σ}
    (hGives : (p.ifOk f).Gives (r, s')) :
    (∃ e, r = .error e ∧ p.Gives (.error e, s')) ∨
      ∃ a s, p.Gives (.ok a, s) ∧ (f a s).Gives (r, s') := by
  rcases gives_bind hGives with ⟨⟨e | a, s⟩, hFirst, hSecond⟩
  · cases hSecond
    exact .inl ⟨e, rfl, hFirst⟩
  · exact .inr ⟨a, s, hFirst, hSecond⟩

/-
  A routine can only end as `post` says, whatever it is
  answered. It need not end.
-/
def Always
    (p : Routine I α)
    (post : α → Prop) : Prop :=
  ∀ a, Gives p a → post a

section

variable {p : Routine I α} {post : α → Prop} {mid : β → Prop}

theorem always_done
    {a : α}
    (hPost : post a) :
    (done a : Routine I α).Always post := by
  intro b hGives
  cases hGives
  exact hPost

/- It does no harm to promise less of the end. -/
theorem Always.mono
    {post' : α → Prop}
    (hAlways : p.Always post)
    (hPost : ∀ a, post a → post' a) :
    p.Always post' :=
  fun a hGives => hPost a (hAlways a hGives)

/- A sequence ends as its second part does after its first. -/
theorem Always.bind
    {q : Routine I β}
    {f : β → Routine I α}
    (hFirst : q.Always mid)
    (hThen : ∀ b, mid b → (f b).Always post) :
    (q.bind f).Always post := by
  intro a hGives
  rcases gives_bind hGives with ⟨b, hHere, hOn⟩
  exact hThen b (hFirst b hHere) a hOn

/- Nothing is asked of a first part of which nothing is said. -/
theorem always_bind
    {q : Routine I β}
    {f : β → Routine I α}
    (hThen : ∀ b, (f b).Always post) :
    (q.bind f).Always post := by
  have hAny : q.Always fun _ => True := fun _ _ => trivial
  exact hAny.bind fun b _ => hThen b

/-
  What is left of a round of a loop, and the rounds behind it,
  end as the rounds do that keep an invariant.
-/
theorem post_of_gives_rounds
    {σ : Type}
    {body : σ → Routine I (σ ⊕ α)}
    {rest : Routine I (σ ⊕ α)}
    {inv : σ → Prop}
    {a : α}
    (hRound : ∀ s, inv s → (body s).Always (Sum.elim inv post))
    (hRest : rest.Always (Sum.elim inv post))
    (hGives : Gives
      (rest.bind fun
        | .inl s => .loop body s .done
        | .inr b => .done b) a) :
    post a := by
  generalize hWhole : rest.bind _ = whole at hGives
  induction hGives with
  | done a =>
      rcases rest with (s | b) | ⟨op, k⟩ | ⟨inner, s, k⟩
      · cases hWhole
      · cases hWhole
        exact hRest _ (.done _)
      · cases hWhole
      · cases hWhole
  | ask r _ ih =>
      rcases rest with (s | b) | ⟨op, k⟩ | ⟨inner, s, k⟩
      · cases hWhole
      · cases hWhole
      · cases hWhole
        exact ih hRound (fun c hGives => hRest c (.ask r hGives)) rfl
      · cases hWhole
  | loop _ ih =>
      rcases rest with (s | b) | ⟨op, k⟩ | ⟨inner, s, k⟩
      · cases hWhole
        exact ih hRound (hRound s (hRest _ (.done _))) rfl
      · cases hWhole
      · cases hWhole
      · cases hWhole
        exact ih hRound (fun c hGives => hRest c (.loop hGives))
          (unroll_bind _ _ _ _)

/- A loop ends as its rounds do that keep an invariant. -/
theorem always_iterate
    {σ : Type}
    {body : σ → Routine I (σ ⊕ α)}
    {s : σ}
    (inv : σ → Prop)
    (hInv : inv s)
    (hRound : ∀ s, inv s → (body s).Always (Sum.elim inv post)) :
    (iterate s body).Always post := by
  intro a hGives
  cases hGives with
  | loop hGives =>
      exact post_of_gives_rounds hRound (hRound s hInv) hGives

end

end

/- A round of a loop at a side is a round of the loop there. -/
theorem unroll_atSide
    {σ α γ : Type}
    (side : Side)
    (body : σ → Routine endpointInterface (σ ⊕ γ))
    (s : σ)
    (k : γ → Routine endpointInterface α) :
    (unroll body s k).atSide side =
      unroll (fun s => (body s).atSide side) s
        fun c => (k c).atSide side := by
  apply (through_bind _ _ _).trans
  rw [unroll]
  congr 1
  funext next
  cases next <;> rfl

/- A routine gives at its side what it gives anywhere. -/
theorem gives_atSide
    {side : Side}
    {α : Type}
    {p : Routine endpointInterface α}
    {a : α}
    (hGives : Gives (p.atSide side) a) :
    Gives p a := by
  generalize hWhole : p.atSide side = q at hGives
  induction hGives with
  | done a =>
      cases p with
      | done b =>
          cases hWhole
          exact .done _
      | ask call k => cases hWhole
      | loop body s k => cases hWhole
  | ask r hGives ih =>
      cases p with
      | done b => cases hWhole
      | ask call k =>
          cases hWhole
          exact .ask r (ih rfl)
      | loop body s k => cases hWhole
  | loop hGives ih =>
      cases p with
      | done b => cases hWhole
      | ask call k => cases hWhole
      | loop body s k =>
          cases hWhole
          exact .loop (ih (unroll_atSide side _ _ _))

end Routine

namespace Engine

variable {κ : Codec} {θ : Tls.Provider}

/-
  A run always reports. The report is the surrogate as the
  script leaves it and the outcome of carrying it out.
-/
theorem report_of_gives_runner
    {s : Surrogate κ θ}
    {script : Script κ θ}
    {answer : Option (Report κ θ)}
    (hGives : (runner s script).Gives answer) :
    ∃ r s',
      (script.execute s).Gives (r, s') ∧
        answer = some ⟨s', Outcome.ofResult r⟩ := by
  rcases Routine.gives_bind (Routine.gives_atSide hGives) with
    ⟨⟨r, s'⟩, hScript, hReport⟩
  refine ⟨r, s', hScript, ?_⟩
  cases hReport
  rfl

end Engine

end Parley
