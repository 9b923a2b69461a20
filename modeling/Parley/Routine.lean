/-
  This file gives routines: descriptions of what a thread does
  that say which operation it asks for next and how it goes on
  with the answer. A routine runs nothing itself, so one and
  the same routine can be run on a clock with other threads, on
  a fixed list of answers, or be reasoned about under every
  order of events.

  Key definitions include:
    * `Interface`
    * `Routine`
    * `Routine.bind`
    * `Routine.unroll`
    * `Routine.through`
    * `Routine.ifOk`
    * `Routine.forEach`
    * `Routine.eval`

  Key theorems include:
    * `Routine.bind_assoc`
    * `Routine.ifOk_assoc`
    * `Routine.unroll_bind`
    * `Routine.through_bind`
    * `Routine.forEach_append`
-/

universe u v

namespace Parley

------------------------------------------------------------
-- Interfaces
------------------------------------------------------------

/-
  The operations that may be asked for, each with the type of
  its answer.
-/
structure Interface where
  Op : Type u
  Answer : Op → Type

/- The interface without operations. -/
def Interface.none : Interface where
  Op := Empty
  Answer := Empty.elim

------------------------------------------------------------
-- Routines
------------------------------------------------------------

/-
  A routine ends with a result, asks for an operation, or
  repeats a part of itself: `loop body s k` runs `body s`,
  starts over while that gives a next state, and goes on with
  `k` once it gives a result.
-/
inductive Routine (I : Interface.{u}) : Type → Type (max 1 u) where
  | done {α : Type} (a : α) : Routine I α
  | ask
      {α : Type}
      (op : I.Op)
      (k : I.Answer op → Routine I α) :
      Routine I α
  | loop
      {σ β α : Type}
      (body : σ → Routine I (σ ⊕ β))
      (s : σ)
      (k : β → Routine I α) :
      Routine I α

namespace Routine

variable {I : Interface.{u}} {J : Interface.{v}} {α β γ : Type}

/-
  Run one routine and then another that depends on its result.
-/
def bind : Routine I α → (α → Routine I β) → Routine I β
  | .done a, f => f a
  | .ask op k, f => .ask op fun r => (k r).bind f
  | .loop body s k, f => .loop body s fun b => (k b).bind f

instance : Monad (Routine I) where
  pure := .done
  bind := bind

/- Ask for one operation and return its answer. -/
def call
    (op : I.Op) : Routine I (I.Answer op) :=
  .ask op .done

/- Repeat `body` from `s` until it gives a result. -/
def iterate
    {σ : Type}
    (s : σ)
    (body : σ → Routine I (σ ⊕ β)) : Routine I β :=
  .loop body s .done

/- One round of a loop, with the rest of the loop behind it. -/
def unroll
    {σ : Type}
    (body : σ → Routine I (σ ⊕ β))
    (s : σ)
    (k : β → Routine I α) : Routine I α :=
  (body s).bind fun
    | .inl s => .loop body s k
    | .inr b => k b

/-
  Carry out every operation by a routine over another interface.
-/
def through
    (f : (op : I.Op) → Routine J (I.Answer op)) :
    {α : Type} → Routine I α → Routine J α
  | _, .done a => .done a
  | _, .ask op k => (f op).bind fun r => (k r).through f
  | _, .loop body s k =>
    .loop (fun s => (body s).through f) s
      fun b => (k b).through f

/-
  Go on with the value of a routine that keeps a state; a
  failure ends the whole and keeps the state as it was when the
  failure came.
-/
def ifOk
    {ε σ : Type}
    (p : Routine I (Except ε α × σ))
    (f : α → σ → Routine I (Except ε β × σ)) :
    Routine I (Except ε β × σ) :=
  p.bind fun
    | (.ok a, s) => f a s
    | (.error e, s) => .done (.error e, s)

/-
  Do something for every entry of a list in order, passing a
  state along, and list the results.
-/
def forEach
    {θ : Type v}
    {ρ σ : Type}
    (f : σ → θ → Routine I (ρ × σ)) :
    σ → List θ → Routine I (List ρ × σ)
  | s, [] => .done ([], s)
  | s, t :: rest =>
    (f s t).bind fun (r, s) =>
      (forEach f s rest).bind fun (rs, s) => .done (r :: rs, s)

------------------------------------------------------------
-- Running without operations
------------------------------------------------------------

/-
  The result of a routine that asks for nothing, found within
  `fuel` rounds of loops.
-/
def eval
    {α : Type} : Nat → Routine Interface.none α → Option α
  | _, .done a => some a
  | _, .ask op _ => nomatch (op : Empty)
  | 0, .loop _ _ _ => none
  | fuel + 1, .loop body s k => eval fuel (unroll body s k)

------------------------------------------------------------
-- Laws
------------------------------------------------------------

@[simp] theorem pure_eq
    (a : α) :
    (pure a : Routine I α) = .done a :=
  rfl

@[simp] theorem bind_eq
    (p : Routine I α)
    (f : α → Routine I β) :
    p >>= f = p.bind f :=
  rfl

@[simp] theorem done_bind
    (a : α)
    (f : α → Routine I β) :
    (done a).bind f = f a :=
  rfl

@[simp] theorem ask_bind
    (op : I.Op)
    (k : I.Answer op → Routine I α)
    (f : α → Routine I β) :
    (ask op k).bind f = ask op fun r => (k r).bind f :=
  rfl

/- Ending right after a routine changes nothing. -/
theorem bind_done
    (p : Routine I α) :
    p.bind done = p := by
  induction p with
  | done a => rfl
  | ask op k ih =>
      simp only [bind]
      congr 1
      funext r
      exact ih r
  | loop body s k _ ih =>
      simp only [bind]
      congr 1
      funext b
      exact ih b

/- How three routines in a row are grouped does not matter. -/
theorem bind_assoc
    (p : Routine I α)
    (f : α → Routine I β)
    (g : β → Routine I γ) :
    (p.bind f).bind g = p.bind fun a => (f a).bind g := by
  induction p with
  | done a => rfl
  | ask op k ih =>
      simp only [bind]
      congr 1
      funext r
      exact ih r f
  | loop body s k _ ih =>
      simp only [bind]
      congr 1
      funext b
      exact ih b f

/- Going on twice is going on with a part that goes on. -/
theorem ifOk_assoc
    {ε σ : Type}
    (p : Routine I (Except ε α × σ))
    (f : α → σ → Routine I (Except ε β × σ))
    (g : β → σ → Routine I (Except ε γ × σ)) :
    (p.ifOk f).ifOk g = p.ifOk fun a s => (f a s).ifOk g := by
  unfold ifOk
  rw [bind_assoc]
  congr 1
  funext next
  rcases next with ⟨e | a, s⟩ <;> rfl

/- A round of a loop in a sequence is one of the loop alone. -/
theorem unroll_bind
    {σ : Type}
    (body : σ → Routine I (σ ⊕ γ))
    (s : σ)
    (k : γ → Routine I α)
    (f : α → Routine I β) :
    (unroll body s k).bind f =
      unroll body s fun c => (k c).bind f := by
  rw [unroll, unroll, bind_assoc]
  congr 1
  funext next
  cases next <;> rfl

/- Changing the interface goes through sequences. -/
theorem through_bind
    (f : (op : I.Op) → Routine J (I.Answer op))
    (p : Routine I α)
    (g : α → Routine I β) :
    (p.bind g).through f =
      (p.through f).bind fun a => (g a).through f := by
  induction p with
  | done a => rfl
  | ask op k ih =>
      simp only [bind, through, bind_assoc]
      congr 1
      funext r
      exact ih r g
  | loop body s k _ ih =>
      simp only [bind, through]
      congr 1
      funext b
      exact ih b g

/- A list can be worked off in two parts. -/
theorem forEach_append
    {θ : Type v}
    {ρ σ : Type}
    (f : σ → θ → Routine I (ρ × σ))
    (s : σ)
    (xs ys : List θ) :
    forEach f s (xs ++ ys) =
      (forEach f s xs).bind fun (rs, s) =>
        (forEach f s ys).bind fun (rs', s) => .done (rs ++ rs', s) := by
  induction xs generalizing s with
  | nil => exact (bind_done _).symm
  | cons t rest ih => simp [forEach, bind_assoc, ih]

end Routine

end Parley
