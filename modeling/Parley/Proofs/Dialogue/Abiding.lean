import Parley.Proofs.Environment
import Parley.Proofs.Dialogue.Keeping
/-
  This file turns a plan into an environment: it lets itself be
  asked for what the plan allows and answers as the plan
  foresees. What yields something in it keeps to the plan. So
  what is known of a routine in every environment of some kind
  can be used for a party of a dialogue.

  Key definitions include:
    * `Dialogue.abiding`

  Key theorems include:
    * `Routine.Yields.of_bind`
    * `Dialogue.keeps_of_yields`
-/

universe u v

namespace Parley

/- A sequence that yields something does so in two parts. -/
theorem Routine.Yields.of_bind
    {I : Interface.{u}}
    {W : Type v}
    {α β : Type}
    {env : Environment I W}
    {post : β → W → Prop}
    {p : Routine I α}
    {f : α → Routine I β}
    {w : W}
    (hYields : Yields env post (p.bind f) w) :
    Yields env (fun a w => Yields env post (f a) w) p w := by
  generalize hWhole : p.bind f = q at hYields
  induction hYields generalizing p with
  | done hPost =>
      cases p with
      | done a =>
          rw [done_bind] at hWhole
          exact .done (hWhole ▸ .done hPost)
      | ask op k => cases hWhole
      | loop body s k => cases hWhole
  | ask hAdmits hGoesOn ih =>
      cases p with
      | done a =>
          rw [done_bind] at hWhole
          exact .done (hWhole ▸ .ask hAdmits hGoesOn)
      | ask op k =>
          cases hWhole
          exact .ask hAdmits fun r w' hAnswers =>
            ih r w' hAnswers rfl
      | loop body s k => cases hWhole
  | loop hRound ih =>
      cases p with
      | done a =>
          rw [done_bind] at hWhole
          exact .done (hWhole ▸ .loop hRound)
      | ask op k => cases hWhole
      | loop body s k =>
          cases hWhole
          exact .loop (ih (unroll_bind _ _ _ _))

namespace Dialogue

open Routine

variable {plan : List Turn} {r : Role} {α : Type}

/-
  Where one party of a dialogue is, by what it got and gave: it
  may receive and send as the plan has it, gets any part of what
  is to be heard, and all it sends is taken.
-/
def abiding
    (plan : List Turn)
    (r : Role) :
    Environment endpointInterface (Bytes × Bytes) where
  admits w call :=
    match call with
    | .recv room => 0 < room ∧ Listening plan r w.1 w.2
    | .send src => Speaking plan r src w.1 w.2
    | _ => False
  answers w call a w' :=
    match call, a with
    | .recv room, a => ∃ more : Bytes,
      a = .ok more ∧ more ≠ [] ∧ more.length ≤ room ∧
        w.1 ++ more <+: said plan r.other ∧
        w' = (w.1 ++ more, w.2)
    | .send src, a => a = .ok src.length ∧ w' = (w.1, w.2 ++ src)
    | _, _ => False

/- What yields something there keeps to the plan. -/
theorem keeps_of_yields
    {p : Routine endpointInterface α}
    {post : α → Bytes → Bytes → Prop}
    {got gave : Bytes}
    (hYields :
      Yields (abiding plan r) (fun a w => post a w.1 w.2) p
        (got, gave)) :
    Keeps plan r p post got gave := by
  induction p generalizing got gave with
  | done a => exact hYields.post_of_done
  | ask call k ih =>
      rcases hYields.of_ask with ⟨hAdmits, hGoesOn⟩
      cases call with
      | recv room =>
          refine ⟨hAdmits.1, hAdmits.2, ?_⟩
          intro more hSome hFits hMore
          exact ih _ (hGoesOn _ (got ++ more, gave)
            ⟨more, rfl, hSome, hFits, hMore, rfl⟩)
      | send src =>
          exact ⟨hAdmits,
            ih _ (hGoesOn _ (got, gave ++ src) ⟨rfl, rfl⟩)⟩
      | _ => exact hAdmits.elim
  | @loop σ β α body s k ihBody ih =>
      -- Before every round the rest of the loop yields the end.
      refine ⟨fun s got gave =>
        Yields (abiding plan r) (fun a w => post a w.1 w.2)
          (.loop body s k) (got, gave), hYields, ?_⟩
      intro s got gave hLoop
      have hRound :
          Keeps plan r (body s)
            (fun next got gave =>
              Yields (abiding plan r) (fun a w => post a w.1 w.2)
                (next.elim (.loop body · k) k) (got, gave))
            got gave := by
        apply ihBody s
        apply hLoop.unroll.of_bind.mono
        rintro (s | b) w hNext
        · exact hNext
        · exact hNext
      apply hRound.mono
      rintro (s | b) got gave hNext
      · exact hNext
      · exact ih b hNext

end Dialogue

end Parley
