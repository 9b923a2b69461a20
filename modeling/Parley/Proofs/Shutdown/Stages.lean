import Parley.Proofs.Engine.Results
import Parley.Proofs.Traffic.Parts
/-
  This file goes back to earlier moments of a run: a party that
  is over with a sequence of routines was at the end of each of
  them before, with a result that this one can give, and made
  every call that it went on from.

  Key definitions include:
    * `Party.Gives`

  Key theorems include:
    * `Traffic.Run.bind_cases`
    * `Traffic.Run.exists_end_of_bind`
    * `Traffic.Run.gives_of_done`
    * `Traffic.Run.exists_visit_of_ask`
-/

namespace Parley

------------------------------------------------------------
-- What a party can come to
------------------------------------------------------------

namespace Party

variable {ι α : Type} {party : Party α} {a : α}

/- A party can end with a result, by some answers to it. -/
def Gives
    (party : Party α)
    (a : α) : Prop :=
  match party with
  | .ready p => p.Gives a
  | .held _ _ _ k => ∃ r, (k r).Gives a

/- What a party can end with after a hold of the lock. -/
theorem exists_gives_of_conclude
    {v : Visit ι}
    {k : v.call.Answer → Routine endpointInterface α}
    (hGives : (conclude v k).Gives a) :
    ∃ r, (k r).Gives a := by
  unfold conclude at hGives
  split at hGives
  · exact ⟨_, hGives⟩
  · exact hGives

/- What it can end with after a step it can end with before. -/
theorem gives_of_advance
    {i : ι}
    {s : Side}
    {p : Pipe}
    {began now : Instant}
    (hGives : (party.advance i s p began now).2.Gives a) :
    party.Gives a := by
  cases party with
  | ready q =>
      cases q with
      | done b => exact hGives
      | ask call k =>
          rcases exists_gives_of_conclude hGives with ⟨r, hNext⟩
          exact .ask r hNext
      | loop body x k => exact .loop hGives
  | held call stage seen k => exact exists_gives_of_conclude hGives

/- A part that is not over does not look as if it were. -/
theorem bind_ne_done
    {β : Type}
    (party : Party α)
    (hUndone : party.result? = none)
    (f : α → Routine endpointInterface β)
    (b : β) :
    party.bind f ≠ .ready (.done b) := by
  intro hDone
  cases party with
  | ready p =>
      cases p with
      | done a => cases hUndone
      | ask call k => cases hDone
      | loop body s k => cases hDone
  | held call stage seen k => cases hDone

end Party

------------------------------------------------------------
-- Earlier moments of a run
------------------------------------------------------------

namespace Traffic

variable {ι : Type} {R : ι → Type} [DecidableEq ι] {α : Type}
variable {seat : ι → Side} {i : ι} {t₀ t : Traffic R}
variable {log : List (Visit ι)}

/-
  A party that has begun with a part of its routine is still at
  that part, or has come to the end of it at some moment of the
  run and goes on with its result.
-/
theorem Run.bind_cases
    {p : Routine endpointInterface α}
    {f : α → Routine endpointInterface (R i)}
    (hRun : Run seat t₀ log t)
    (hHere : t₀.parties i = .ready (p.bind f)) :
    (∃ part : Party α,
      part.result? = none ∧
        (∀ a, part.Gives a → p.Gives a) ∧
        t.parties i = part.bind f) ∨
    ∃ a earlier mid later,
      p.Gives a ∧
        log = earlier ++ later ∧
        Run seat t₀ earlier mid ∧
        mid.parties i = .ready (f a) ∧
        Run seat mid later t := by
  induction hRun with
  | refl =>
      cases hResult : (Party.ready p).result? with
      | none =>
          exact .inl ⟨.ready p, hResult, fun _ => id, hHere⟩
      | some a =>
          cases Party.eq_ready_of_result? hResult
          exact .inr ⟨a, [], t₀, [], .done a, rfl, .refl, hHere,
            .refl⟩
  | @advance log t j began now hBegan hNow hRun ih =>
      rcases ih with
        ⟨part, hUndone, hLeads, hParty⟩ |
        ⟨a, earlier, mid, later, hGives, rfl, hFirst, hThere,
          hLater⟩
      · have hStep := hRun.advance j began now hBegan hNow
        by_cases hSame : j = i
        · subst hSame
          have hNext :=
            (advance_of_bind seat hParty hUndone began now).2
          have hStill : ∀ a,
              (part.advance j (seat j) t.pipe began now).2.Gives a →
              p.Gives a :=
            fun a hGives => hLeads a (Party.gives_of_advance hGives)
          generalize (part.advance j (seat j) t.pipe began now).2 =
            part' at hNext hStill
          cases hResult : part'.result? with
          | none => exact .inl ⟨part', hResult, hStill, hNext⟩
          | some a =>
              cases Party.eq_ready_of_result? hResult
              exact .inr ⟨a, _, _, [], hStill a (.done a),
                (List.append_nil _).symm, hStep, hNext, .refl⟩
        · left
          refine ⟨part, hUndone, hLeads, ?_⟩
          rw [advance_parties_of_ne (Ne.symm hSame)]
          exact hParty
      · exact .inr ⟨a, earlier, mid, _, hGives,
          List.append_assoc _ _ _, hFirst, hThere,
          hLater.advance j began now hBegan hNow⟩

/- A party that is over came to the end of each of its parts. -/
theorem Run.exists_end_of_bind
    {p : Routine endpointInterface α}
    {f : α → Routine endpointInterface (R i)}
    {b : R i}
    (hRun : Run seat t₀ log t)
    (hHere : t₀.parties i = .ready (p.bind f))
    (hDone : t.parties i = .ready (.done b)) :
    ∃ a earlier mid later,
      p.Gives a ∧
        log = earlier ++ later ∧
        Run seat t₀ earlier mid ∧
        mid.parties i = .ready (f a) ∧
        Run seat mid later t := by
  rcases hRun.bind_cases hHere with
    ⟨part, hUndone, -, hParty⟩ | hPast
  · rw [hDone] at hParty
    exact absurd hParty.symm (part.bind_ne_done hUndone f b)
  · exact hPast

/- What a party ends with is a result of its routine. -/
theorem Run.gives_of_done
    {p : Routine endpointInterface (R i)}
    {a : R i}
    (hRun : Run seat t₀ log t)
    (hHere : t₀.parties i = .ready p)
    (hDone : t.parties i = .ready (.done a)) :
    p.Gives a := by
  have hLeads : ∀ b, (t.parties i).Gives b → p.Gives b := by
    clear hDone
    induction hRun with
    | refl =>
        rw [hHere]
        exact fun _ => id
    | @advance log t j began now _ _ _ ih =>
        by_cases hSame : j = i
        · subst hSame
          rw [(t.advance_self seat j began now).2]
          exact fun b hGives => ih b (Party.gives_of_advance hGives)
        · rw [advance_parties_of_ne (Ne.symm hSame)]
          exact ih
  apply hLeads
  rw [hDone]
  exact .done a

/- A party that went on from a call has made that call. -/
theorem Run.exists_visit_of_ask
    {call : Call}
    {k : call.Answer → Routine endpointInterface (R i)}
    {b : R i}
    (hRun : Run seat t₀ log t)
    (hHere : t₀.parties i = .ready (.ask call k))
    (hDone : t.parties i = .ready (.done b)) :
    ∃ v ∈ log, v.side = seat i ∧ v.call = call := by
  have hCalls :
      t.parties i = .ready (.ask call k) ∨
        ∃ v ∈ log, v.side = seat i ∧ v.call = call := by
    clear hDone
    induction hRun with
    | refl => exact .inl hHere
    | @advance log t j began now _ _ _ ih =>
        rcases ih with hParty | ⟨v, hMember, hCall⟩
        · by_cases hSame : j = i
          · subst hSame
            have hStep := (t.advance_self seat j began now).1
            rw [hParty] at hStep
            right
            rw [hStep]
            exact ⟨_, List.mem_append_right _
              (List.mem_singleton_self _), rfl, rfl⟩
          · rw [advance_parties_of_ne (Ne.symm hSame)]
            exact .inl hParty
        · exact .inr ⟨v, List.mem_append_left _ hMember, hCall⟩
  rcases hCalls with hParty | hCall
  · rw [hDone] at hParty
    cases hParty
  · exact hCall

end Traffic

end Parley
