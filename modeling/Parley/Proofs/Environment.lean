import Parley.Stream
/-
  This file runs a routine in an environment: something with a
  state of its own that says what it lets itself be asked for,
  and how it may answer. Which of the answers it gives is open.

  A routine yields something in an environment if, whatever it
  is answered, it asks only for what it may, comes to an end
  after finitely many steps, and ends as promised.

  Key definitions include:
    * `Environment`
    * `Environment.Fixed`
    * `Routine.Ends`
    * `Routine.Yields`

  Key theorems include:
    * `Routine.ends_bind_iff`
    * `Routine.Ends.unique`
    * `Routine.Yields.of_ends`
    * `Routine.Yields.exists_ends`
    * `Routine.Yields.along`
    * `Routine.Yields.bind`
    * `Routine.yields_loop`
    * `Routine.Yields.ifOk_of_ok`
    * `ByteStream.yields_writeAll`
-/

universe u v

namespace Parley

------------------------------------------------------------
-- Environments
------------------------------------------------------------

/-
  What an environment lets itself be asked for, and which
  answers it may give, each with the state that it is in then.
-/
structure Environment
    (I : Interface.{u})
    (W : Type v) where
  admits : W → I.Op → Prop
  answers : W → (op : I.Op) → I.Answer op → W → Prop

/- An environment in which nothing is open has one answer only. -/
def Environment.Fixed
    {I : Interface.{u}}
    {W : Type v}
    (env : Environment I W) : Prop :=
  ∀ w op r r' w' w'',
    env.answers w op r w' → env.answers w op r' w'' →
      r = r' ∧ w' = w''

namespace Routine

variable {I : Interface.{u}} {W : Type v} {α β : Type}
variable {env : Environment I W}

/- A routine can end with a result in an environment. -/
inductive Ends
    (env : Environment I W)
    {α : Type} : Routine I α → W → α → W → Prop where
  | done
      (a : α)
      (w : W) :
      Ends env (.done a) w a w
  | ask
      {op : I.Op}
      {k : I.Answer op → Routine I α}
      {r : I.Answer op}
      {a : α}
      {w w' w'' : W}
      (hAnswers : env.answers w op r w')
      (hEnds : Ends env (k r) w' a w'') :
      Ends env (.ask op k) w a w''
  | loop
      {σ β : Type}
      {body : σ → Routine I (σ ⊕ β)}
      {s : σ}
      {k : β → Routine I α}
      {a : α}
      {w w' : W}
      (hEnds : Ends env (unroll body s k) w a w') :
      Ends env (.loop body s k) w a w'

/-
  Whatever it is answered, a routine asks only for what it may,
  and ends, as `post` says.
-/
inductive Yields
    (env : Environment I W)
    {α : Type}
    (post : α → W → Prop) : Routine I α → W → Prop where
  | done
      {a : α}
      {w : W}
      (hPost : post a w) :
      Yields env post (.done a) w
  | ask
      {op : I.Op}
      {k : I.Answer op → Routine I α}
      {w : W}
      (hAdmits : env.admits w op)
      (hGoesOn : ∀ r w',
        env.answers w op r w' → Yields env post (k r) w') :
      Yields env post (.ask op k) w
  | loop
      {σ β : Type}
      {body : σ → Routine I (σ ⊕ β)}
      {s : σ}
      {k : β → Routine I α}
      {w : W}
      (hRound : Yields env post (unroll body s k) w) :
      Yields env post (.loop body s k) w

------------------------------------------------------------
-- What it means to end
------------------------------------------------------------

/- What its parts end with in turn is what a sequence ends with. -/
theorem Ends.bind
    {p : Routine I α}
    {f : α → Routine I β}
    {a : α}
    {b : β}
    {w w' w'' : W}
    (hFirst : Ends env p w a w')
    (hSecond : Ends env (f a) w' b w'') :
    Ends env (p.bind f) w b w'' := by
  induction hFirst with
  | done a w => exact hSecond
  | ask hAnswers _ ih => exact .ask hAnswers (ih hSecond)
  | loop _ ih =>
      refine .loop ?_
      rw [← unroll_bind]
      exact ih hSecond

/- A sequence ends in no other way. -/
theorem ends_bind_iff
    {p : Routine I α}
    {f : α → Routine I β}
    {b : β}
    {w w'' : W} :
    Ends env (p.bind f) w b w'' ↔
      ∃ a w', Ends env p w a w' ∧ Ends env (f a) w' b w'' := by
  constructor
  · intro hEnds
    generalize hWhole : p.bind f = q at hEnds
    induction hEnds generalizing p with
    | done b w =>
        cases p with
        | done a =>
            rw [done_bind] at hWhole
            exact ⟨a, w, .done a w, hWhole ▸ .done b w⟩
        | ask op k => cases hWhole
        | loop body s k => cases hWhole
    | ask hAnswers hEnds ih =>
        cases p with
        | done a =>
            rw [done_bind] at hWhole
            exact ⟨a, _, .done a _, hWhole ▸ .ask hAnswers hEnds⟩
        | ask op k =>
            cases hWhole
            rcases ih rfl with ⟨a, w', hFirst, hSecond⟩
            exact ⟨a, w', .ask hAnswers hFirst, hSecond⟩
        | loop body s k => cases hWhole
    | loop hEnds ih =>
        cases p with
        | done a =>
            rw [done_bind] at hWhole
            exact ⟨a, _, .done a _, hWhole ▸ .loop hEnds⟩
        | ask op k => cases hWhole
        | loop body s k =>
            cases hWhole
            rcases ih (unroll_bind _ _ _ _) with
              ⟨a, w', hFirst, hSecond⟩
            exact ⟨a, w', .loop hFirst, hSecond⟩
  · rintro ⟨a, w', hFirst, hSecond⟩
    exact hFirst.bind hSecond

/- Where nothing is open a routine has one end. -/
theorem Ends.unique
    {p : Routine I α}
    {a a' : α}
    {w w' w'' : W}
    (hFixed : env.Fixed)
    (hEnds : Ends env p w a w')
    (hEnds' : Ends env p w a' w'') :
    a = a' ∧ w' = w'' := by
  induction hEnds with
  | done a w =>
      cases hEnds'
      exact ⟨rfl, rfl⟩
  | ask hAnswers _ ih =>
      cases hEnds' with
      | ask hAnswers' hEnds' =>
          rcases hFixed _ _ _ _ _ _ hAnswers hAnswers' with
            ⟨rfl, rfl⟩
          exact ih hEnds'
  | loop _ ih =>
      cases hEnds' with
      | loop hEnds' => exact ih hEnds'

------------------------------------------------------------
-- What it means to yield something
------------------------------------------------------------

/- What a routine yields that is over is there. -/
theorem Yields.post_of_done
    {post : α → W → Prop}
    {a : α}
    {w : W}
    (hYields : Yields env post (.done a) w) :
    post a w := by
  cases hYields with
  | done hPost => exact hPost

/- What a routine asks for it may ask for, and it is prepared. -/
theorem Yields.of_ask
    {post : α → W → Prop}
    {op : I.Op}
    {k : I.Answer op → Routine I α}
    {w : W}
    (hYields : Yields env post (.ask op k) w) :
    env.admits w op ∧
      ∀ r w', env.answers w op r w' →
        Yields env post (k r) w' := by
  cases hYields with
  | ask hAdmits hGoesOn => exact ⟨hAdmits, hGoesOn⟩

/- What can end in an environment can in one that answers more. -/
theorem Ends.mono
    {env' : Environment I W}
    {p : Routine I α}
    {a : α}
    {w w' : W}
    (hAnswers : ∀ w op r w',
      env.answers w op r w' → env'.answers w op r w')
    (hEnds : Ends env p w a w') :
    Ends env' p w a w' := by
  induction hEnds with
  | done a w => exact .done a w
  | ask hAnswer _ ih => exact .ask (hAnswers _ _ _ _ hAnswer) ih
  | loop _ ih => exact .loop ih

/- A loop yields what its first round and the rest of it do. -/
theorem Yields.unroll
    {σ : Type}
    {body : σ → Routine I (σ ⊕ β)}
    {s : σ}
    {k : β → Routine I α}
    {post : α → W → Prop}
    {w : W}
    (hYields : Yields env post (.loop body s k) w) :
    Yields env post (Routine.unroll body s k) w := by
  cases hYields with
  | loop hRound => exact hRound

/- Wherever a routine can end, it ends as promised. -/
theorem Yields.of_ends
    {post : α → W → Prop}
    {p : Routine I α}
    {a : α}
    {w w' : W}
    (hYields : Yields env post p w)
    (hEnds : Ends env p w a w') :
    post a w' := by
  induction hEnds with
  | done a w => exact hYields.post_of_done
  | ask hAnswers _ ih => exact ih (hYields.of_ask.2 _ _ hAnswers)
  | loop _ ih => exact ih hYields.unroll

/-
  In an environment that answers whatever it lets itself be
  asked for, a routine does end.
-/
theorem Yields.exists_ends
    {post : α → W → Prop}
    {p : Routine I α}
    {w : W}
    (hYields : Yields env post p w)
    (hServes : ∀ w op, env.admits w op →
      ∃ r w', env.answers w op r w') :
    ∃ a w', Ends env p w a w' := by
  induction hYields with
  | done _ => exact ⟨_, _, .done _ _⟩
  | ask hAdmits _ ih =>
      rcases hServes _ _ hAdmits with ⟨r, w', hAnswers⟩
      rcases ih r w' hAnswers with ⟨a, w'', hEnds⟩
      exact ⟨a, w'', .ask hAnswers hEnds⟩
  | loop _ ih =>
      rcases ih with ⟨a, w', hEnds⟩
      exact ⟨a, w', .loop hEnds⟩

/- It does no harm to promise less of the end. -/
theorem Yields.mono
    {post post' : α → W → Prop}
    {p : Routine I α}
    {w : W}
    (hYields : Yields env post p w)
    (hPost : ∀ a w, post a w → post' a w) :
    Yields env post' p w := by
  induction hYields with
  | done hEnd => exact .done (hPost _ _ hEnd)
  | ask hAdmits _ ih => exact .ask hAdmits ih
  | loop _ ih => exact .loop ih

/-
  What a routine yields in one environment it yields in another
  that lets itself be asked for as much and answers nothing else.
  Here `view` ties the states of the two.
-/
theorem Yields.along
    {V : Type v}
    {post : α → W → Prop}
    {p : Routine I α}
    {w : W}
    {v : V}
    (outer : Environment I V)
    (view : V → W → Prop)
    (hAdmits : ∀ v w op,
      view v w → env.admits w op → outer.admits v op)
    (hAnswers : ∀ v w op r v',
      view v w → env.admits w op → outer.answers v op r v' →
        ∃ w', env.answers w op r w' ∧ view v' w')
    (hYields : Yields env post p w)
    (hView : view v w) :
    Yields outer (fun a v => ∃ w, view v w ∧ post a w) p v := by
  induction hYields generalizing v with
  | done hPost => exact .done ⟨_, hView, hPost⟩
  | ask hAsked _ ih =>
      refine .ask (hAdmits _ _ _ hView hAsked) ?_
      intro r v' hAnswer
      rcases hAnswers _ _ _ _ _ hView hAsked hAnswer with
        ⟨w', hInner, hNext⟩
      exact ih r w' hInner hNext
  | loop _ ih => exact .loop (ih hView)

------------------------------------------------------------
-- Sequences and loops
------------------------------------------------------------

/- A sequence yields what its second part does after its first. -/
theorem Yields.bind
    {mid : α → W → Prop}
    {post : β → W → Prop}
    {p : Routine I α}
    {f : α → Routine I β}
    {w : W}
    (hFirst : Yields env mid p w)
    (hSecond : ∀ a w, mid a w → Yields env post (f a) w) :
    Yields env post (p.bind f) w := by
  induction hFirst with
  | done hMid => exact hSecond _ _ hMid
  | ask hAdmits _ ih => exact .ask hAdmits ih
  | @loop σ γ body s k w _ ih =>
      rw [unroll_bind] at ih
      exact .loop ih

/-
  A loop ends if what is true before every round is true after
  it with a lower rank.
-/
theorem yields_loop
    {σ : Type}
    {body : σ → Routine I (σ ⊕ β)}
    {s : σ}
    {k : β → Routine I α}
    {post : α → W → Prop}
    {w : W}
    (inv : Nat → σ → W → Prop)
    (rank : Nat)
    (hInv : inv rank s w)
    (hBody : ∀ rank s w, inv rank s w →
      Yields env
        (fun next w => match next with
          | .inl s => ∃ lower < rank, inv lower s w
          | .inr b => Yields env post (k b) w)
        (body s) w) :
    Yields env post (.loop body s k) w := by
  induction rank using Nat.strongRecOn generalizing s w with
  | ind rank ih =>
      apply Yields.loop
      apply (hBody rank s w hInv).bind
      rintro (s | b) w hNext
      · rcases hNext with ⟨lower, hLower, hInv⟩
        exact ih lower hLower hInv
      · exact hNext

/-
  Going on with a value: either the first part has failed, or
  the second part has what it needs.
-/
theorem Yields.ifOk
    {ε σ : Type}
    {mid : Except ε α × σ → W → Prop}
    {post : Except ε β × σ → W → Prop}
    {p : Routine I (Except ε α × σ)}
    {f : α → σ → Routine I (Except ε β × σ)}
    {w : W}
    (hFirst : Yields env mid p w)
    (hFailed : ∀ e s w, mid (.error e, s) w → post (.error e, s) w)
    (hSecond : ∀ a s w, mid (.ok a, s) w →
      Yields env post (f a s) w) :
    Yields env post (p.ifOk f) w := by
  apply hFirst.bind
  rintro ⟨e | a, s⟩ w hMid
  · exact .done (hFailed e s w hMid)
  · exact hSecond a s w hMid

/- Going on with the value of a first part that never fails. -/
theorem Yields.ifOk_of_ok
    {ε σ : Type}
    {a : α}
    {mid : σ → W → Prop}
    {post : Except ε β × σ → W → Prop}
    {p : Routine I (Except ε α × σ)}
    {f : α → σ → Routine I (Except ε β × σ)}
    {w : W}
    (hFirst :
      Yields env (fun (r, s) w => r = .ok a ∧ mid s w) p w)
    (hSecond : ∀ s w, mid s w → Yields env post (f a s) w) :
    Yields env post (p.ifOk f) w := by
  apply hFirst.ifOk
  · intro e s w hFailed
    cases hFailed.1
  · intro b s w hMid
    rcases hMid with ⟨hValue, hMid⟩
    cases hValue
    exact hSecond s w hMid

end Routine

------------------------------------------------------------
-- Writing all there is
------------------------------------------------------------

namespace ByteStream

open Routine

variable {I : Interface.{u}} {W : Type v} {τ : Type}
variable [ByteStream I τ] {env : Environment I W}

/-
  If every write takes some of its bytes, then writing all does
  so. Here `wrote` says of a stream which bytes of the whole
  were written to it by then.
-/
theorem yields_writeAll
    (wrote : τ → Bytes → W → Prop)
    {whole : Bytes}
    (hWrite : ∀ t before w rest,
      wrote t before w → before ++ rest = whole → rest ≠ [] →
      Yields env
        (fun (r, t) w => ∃ n,
          r = .ok n ∧ 0 < n ∧ n ≤ rest.length ∧
            wrote t (before ++ rest.take n) w)
        (write t rest) w)
    {t : τ}
    {before src : Bytes}
    {w : W}
    (hWrote : wrote t before w)
    (hWhole : before ++ src = whole) :
    Yields env
      (fun (r, t) w => r = .ok () ∧ wrote t whole w)
      (writeAll t src) w := by
  -- What was written in earlier rounds and what is left make up
  -- the whole; there is less left after every round.
  apply yields_loop
    (fun rank (u : τ × Bytes) w => ∃ done,
      rank = u.2.length ∧ done ++ u.2 = whole ∧
        wrote u.1 done w)
    src.length ⟨before, rfl, hWhole, hWrote⟩
  rintro rank ⟨t, rest⟩ w ⟨done, rfl, hAll, hWrote⟩
  simp only
  split
  · next hNone =>
      subst hNone
      rw [List.append_nil] at hAll
      exact .done (.done ⟨rfl, hAll ▸ hWrote⟩)
  · next hSome =>
      apply (hWrite t done w rest hWrote hAll hSome).bind
      rintro ⟨r, t'⟩ w' ⟨n, rfl, hMoved, hFits, hWrote'⟩
      obtain ⟨m, rfl⟩ := Nat.exists_eq_add_of_lt hMoved
      rw [Nat.zero_add] at hFits hWrote' ⊢
      refine .done ⟨(rest.drop (m + 1)).length, ?_,
        done ++ rest.take (m + 1), rfl, ?_, hWrote'⟩
      · rw [List.length_drop]
        omega
      · rw [List.append_assoc, List.take_append_drop, hAll]

end ByteStream

end Parley
