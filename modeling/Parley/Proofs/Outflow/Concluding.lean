import Parley.Proofs.Engine.Results
import Parley.Proofs.Outflow.Offering
/-
  This file adds to what a routine offers while its sends may be
  cut short. What it can end with by itself it also ends with
  then; what is said of it by itself is said of it behind
  whatever was given before; and things that are each true of
  it are true together.

  Key definitions include:
    * `Outflow.Concludes`
    * `Outflow.Finishes`

  Key theorems include:
    * `Outflow.offers_forall`
    * `Outflow.Offers.behind`
    * `Outflow.Finishes.post`
    * `Outflow.offers_grows`
    * `Outflow.Offers.and_always`
    * `Outflow.concludes_of_always`
    * `Outflow.concludes_iterate`
-/

namespace Parley

namespace Outflow

open Traffic

variable {α β : Type}

------------------------------------------------------------
-- Offers put together and put behind others
------------------------------------------------------------

/- What a routine promises for each number it promises for all. -/
theorem offers_forall
    {always : Bytes → Prop}
    {p : Routine endpointInterface α}
    {post : Nat → α → Bytes → Prop}
    {gave : Bytes}
    (hOffers : ∀ n, Offers always p (post n) gave) :
    Offers always p (fun a out => ∀ n, post n a out) gave := by
  induction p generalizing gave with
  | done a => exact hOffers
  | ask call k ih =>
      cases call with
      | send src =>
          refine ⟨(hOffers 0).1, ih _ fun n => (hOffers n).2.1, ?_⟩
          intro m hFits e
          exact ih _ fun n => (hOffers n).2.2 m hFits e
      | _ => exact fun a => ih a fun n => hOffers n a
  | loop body s k ihBody ih =>
      choose inv hInv hBody using hOffers
      refine ⟨fun s out => ∀ n, inv n s out, hInv,
        fun s out hNow => ?_⟩
      apply (ihBody s fun n => hBody n s out (hNow n)).mono
      rintro (s | b) out hNext
      · exact hNext
      · exact ih b hNext

/-
  A routine offers the same behind what was given before, if
  that may be there before what it offers.
-/
theorem Offers.behind
    {always always' : Bytes → Prop}
    {p : Routine endpointInterface α}
    {post : α → Bytes → Prop}
    {before gave : Bytes}
    (hAlways : ∀ out, always out → always' (before ++ out))
    (hOffers : Offers always p post gave) :
    Offers always' p
      (fun a out => ∃ new, out = before ++ new ∧ post a new)
      (before ++ gave) := by
  induction p generalizing gave with
  | done a => exact ⟨gave, rfl, hOffers⟩
  | ask call k ih =>
      cases call with
      | send src =>
          rcases hOffers with ⟨hNow, hSent, hShort⟩
          refine ⟨fun n hFits => ?_, ?_, fun n hFits e => ?_⟩
          · rw [List.append_assoc]
            exact hAlways _ (hNow n hFits)
          · rw [List.append_assoc]
            exact ih _ hSent
          · rw [List.append_assoc]
            exact ih _ (hShort n hFits e)
      | _ => exact fun a => ih a (hOffers a)
  | loop body s k ihBody ih =>
      rcases hOffers with ⟨inv, hInv, hBody⟩
      refine ⟨fun s out => ∃ new, out = before ++ new ∧ inv s new,
        ⟨gave, rfl, hInv⟩, ?_⟩
      rintro s _ ⟨new, rfl, hNow⟩
      apply (ihBody s (hBody s new hNow)).mono
      rintro (s | b) _ ⟨more, rfl, hNext⟩
      · exact ⟨more, rfl, hNext⟩
      · exact ih b hNext

------------------------------------------------------------
-- How routines end
------------------------------------------------------------

/-
  A routine can only end as `post` says, however much of its
  sends is accepted and whatever else it is answered.
-/
def Concludes
    (p : Routine endpointInterface α)
    (post : α → Prop) : Prop :=
  ∀ gave, Offers (fun _ => True) p (fun a _ => post a) gave

/-
  A routine comes to an end in some run: a party carries it out
  at one end of a pipe, whatever there was on the pipe before
  and whatever clients do at the other end. It ends with `a`,
  and `out` is what the pipe has accepted from it by then.
-/
def Finishes
    (p : Routine endpointInterface α)
    (a : α)
    (out : Bytes) : Prop :=
  ∃ (ι : Type) (_ : DecidableEq ι) (R : ι → Type) (home : Side)
    (t₀ t : Traffic (Result α R)) (log : List (Visit (Option ι))),
    Run (seat home) t₀ log t ∧
      t₀.pipe.Sound ∧
      t₀.parties none = .ready p ∧
      t.parties none = .ready (.done a) ∧
      accepted home.other log = out

/- What it offers in any case, it has offered in that run. -/
theorem Finishes.post
    {p : Routine endpointInterface α}
    {post : α → Bytes → Prop}
    {a : α}
    {out : Bytes}
    (hFinishes : Finishes p a out)
    (hOffers : Offers (fun _ => True) p post []) :
    post a out := by
  rcases hFinishes with
    ⟨ι, _, R, home, t₀, t, log, hRun, hSound, hHere, hDone, rfl⟩
  exact (given_of_run_from hRun hSound hHere trivial hOffers).2
    a hDone

/- Whatever a routine does, it takes back nothing that it gave. -/
theorem offers_grows
    (p : Routine endpointInterface α)
    (gave : Bytes) :
    Offers (fun _ => True) p (fun _ out => gave <+: out) gave := by
  -- What is given in several parts begins with the first.
  have hFrom : ∀ before, gave <+: before →
      Offers (fun _ => True) p (fun _ out => gave <+: out)
        before := by
    induction p with
    | done a => exact fun _ hBefore => hBefore
    | ask call k ih =>
        intro before hBefore
        cases call with
        | send src =>
            exact ⟨fun _ _ => trivial,
              ih _ _ (hBefore.trans (List.prefix_append _ _)),
              fun _ _ _ =>
                ih _ _ (hBefore.trans (List.prefix_append _ _))⟩
        | _ => exact fun a => ih a before hBefore
    | loop body s k ihBody ih =>
        intro before hBefore
        refine ⟨fun _ out => gave <+: out, hBefore,
          fun s out hOut => ?_⟩
        apply (ihBody s out hOut).mono
        rintro (s | b) out hNext
        · exact hNext
        · exact ih b out hNext
  exact hFrom gave List.prefix_rfl

/- Nothing is asked of a routine of which nothing is said. -/
theorem concludes_trivial
    (p : Routine endpointInterface α) :
    Concludes p fun _ => True :=
  fun gave => (offers_grows p gave).mono fun _ _ _ => trivial

/-
  What a routine gives and the results that it can end with are
  two sides of one thing.
-/
theorem Offers.and_always
    {always : Bytes → Prop}
    {p : Routine endpointInterface α}
    {post : α → Bytes → Prop}
    {ends : α → Prop}
    {gave : Bytes}
    (hOffers : Offers always p post gave)
    (hAlways : p.Always ends) :
    Offers always p (fun a out => post a out ∧ ends a) gave := by
  induction p generalizing gave with
  | done a => exact ⟨hOffers, hAlways a (.done a)⟩
  | ask call k ih =>
      have hGoesOn : ∀ a, (k a).Always ends :=
        fun a b hGives => hAlways b (.ask a hGives)
      exact Adds.mono (fun a _ hNext => ih a hNext (hGoesOn a))
        hOffers
  | loop body s k ihBody ih =>
      rcases hOffers with ⟨inv, hInv, hBody⟩
      refine ⟨fun s out =>
        inv s out ∧ (Routine.loop body s k).Always ends,
        ⟨hInv, hAlways⟩, ?_⟩
      rintro s out ⟨hInv, hRest⟩
      have hRound : (body s).Always
          (Sum.elim (fun s => (Routine.loop body s k).Always ends)
            fun b => (k b).Always ends) := by
        rintro (s | b) hHere a hGives
        · exact hRest a (.loop (hHere.bind hGives))
        · exact hRest a (.loop (hHere.bind hGives))
      apply (ihBody s (hBody s out hInv) hRound).mono
      rintro (s | b) out ⟨hPost, hNext⟩
      · exact ⟨hPost, hNext⟩
      · exact ih b hPost hNext

/- A routine that can only end like that concludes so. -/
theorem concludes_of_always
    {p : Routine endpointInterface α}
    {post : α → Prop}
    (hAlways : p.Always post) :
    Concludes p post :=
  fun gave => ((concludes_trivial p gave).and_always hAlways).mono
    fun _ _ hEnds => hEnds.2

/- The parts of a sequence conclude one after the other. -/
theorem Concludes.bind
    {p : Routine endpointInterface α}
    {f : α → Routine endpointInterface β}
    {mid : α → Prop}
    {post : β → Prop}
    (hFirst : Concludes p mid)
    (hThen : ∀ a, mid a → Concludes (f a) post) :
    Concludes (p.bind f) post := by
  intro gave
  rw [offers_bind]
  exact (hFirst gave).mono fun a out hMid => hThen a hMid out

/- A loop concludes as its rounds do that keep an invariant. -/
theorem concludes_iterate
    {σ : Type}
    {body : σ → Routine endpointInterface (σ ⊕ β)}
    {s : σ}
    {post : β → Prop}
    (inv : σ → Prop)
    (hInv : inv s)
    (hRound : ∀ s, inv s →
      Concludes (body s) (Sum.elim inv post)) :
    Concludes (.iterate s body) post := by
  intro gave
  refine ⟨fun s _ => inv s, hInv, fun s gave hInv => ?_⟩
  apply (hRound s hInv gave).mono
  rintro (s | b) out hNext
  · exact hNext
  · exact hNext

end Outflow

end Parley
