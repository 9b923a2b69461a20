import Parley.Bytes
/-
  This file gives the plan that two parties of a dialogue share:
  turns in order, in each of which one of them speaks and the
  other listens. It shows that two parties that both keep to
  the order of the plan are never stuck at different turns.

  Key definitions include:
    * `Dialogue.Role`
    * `Dialogue.Turn`
    * `Dialogue.said`
    * `Dialogue.Past`
    * `Dialogue.Halted`

  Key theorems include:
    * `Dialogue.said_isPrefix`
    * `Dialogue.Halted.not_passed`
    * `Dialogue.Halted.eq_plan`
-/

namespace Parley

namespace Dialogue

------------------------------------------------------------
-- Plans
------------------------------------------------------------

/- The two parties of a dialogue. -/
inductive Role where
  | client
  | surrogate
deriving DecidableEq, Repr

namespace Role

/- The party at the far end. -/
def other : Role → Role
  | client => surrogate
  | surrogate => client

@[simp] theorem other_other
    (r : Role) :
    r.other.other = r := by
  cases r <;> rfl

theorem other_ne
    (r : Role) :
    r.other ≠ r := by
  cases r <;> simp [other]

theorem eq_or_eq_other
    (r s : Role) :
    r = s ∨ r = s.other := by
  cases r <;> cases s <;> simp [other]

end Role

/- One party speaks, the other is to hear the same bytes. -/
structure Turn where
  speaker : Role
  bytes : Bytes
deriving DecidableEq, Repr

/- All that one party says in these turns, in order. -/
def said
    (turns : List Turn)
    (r : Role) : Bytes :=
  turns.flatMap fun turn =>
    if turn.speaker = r then turn.bytes else []

@[simp] theorem said_append
    (past rest : List Turn)
    (r : Role) :
    said (past ++ rest) r = said past r ++ said rest r :=
  List.flatMap_append

@[simp] theorem said_singleton
    (turn : Turn)
    (r : Role) :
    said [turn] r =
      if turn.speaker = r then turn.bytes else [] := by
  simp [said]

/- What is said first is said of the whole. -/
theorem said_isPrefix
    {past plan : List Turn}
    (hPlan : past <+: plan)
    (r : Role) :
    said past r <+: said plan r := by
  rcases hPlan with ⟨rest, rfl⟩
  rw [said_append]
  exact List.prefix_append _ _

theorem length_said_le
    {past plan : List Turn}
    (hPlan : past <+: plan)
    (r : Role) :
    (said past r).length ≤ (said plan r).length :=
  (said_isPrefix hPlan r).length_le

------------------------------------------------------------
-- Places in a plan
------------------------------------------------------------

/-
  A party that has taken in `got` and given out `gave` has come
  past these turns: it has said and heard all of them.
-/
structure Past
    (past : List Turn)
    (r : Role)
    (got gave : Bytes) : Prop where
  said_le : (said past r).length ≤ gave.length
  heard_le : (said past r.other).length ≤ got.length

/- The turn that follows what is past is fixed by the plan. -/
theorem turn_eq
    {past plan : List Turn}
    {turn next : Turn}
    (hTurn : past ++ [turn] <+: plan)
    (hNext : past ++ [next] <+: plan) :
    turn = next := by
  have hSame : past ++ [turn] = past ++ [next] := by
    apply (List.prefix_of_prefix_length_le hTurn hNext
      ?_).eq_of_length
    · simp
    · simp
  simpa using hSame

theorem not_concat_isPrefix
    (plan : List Turn)
    (turn : Turn) :
    ¬ plan ++ [turn] <+: plan := by
  intro hPlan
  have hLength := hPlan.length_le
  rw [List.length_append, List.length_singleton] at hLength
  omega

/-
  A party goes no further: it is past the whole plan, or the
  next turn needs bytes while none are incoming, or the next
  turn is its own while outgoing bytes are in its way.
-/
inductive Halted
    (plan : List Turn)
    (r : Role)
    (got gave incoming outgoing : Bytes) :
    List Turn → Prop where
  | atEnd
      (hPast : Past plan r got gave) :
      Halted plan r got gave incoming outgoing plan
  | listening
      {past : List Turn}
      (turn : Turn)
      (hPlan : past ++ [turn] <+: plan)
      (hSpeaker : turn.speaker = r.other)
      (hPast : Past past r got gave)
      (hShort :
        got.length < (said (past ++ [turn]) r.other).length)
      (hIncoming : incoming = []) :
      Halted plan r got gave incoming outgoing past
  | speaking
      {past : List Turn}
      (turn : Turn)
      (hPlan : past ++ [turn] <+: plan)
      (hSpeaker : turn.speaker = r)
      (hPast : Past past r got gave)
      (hShort : gave.length < (said (past ++ [turn]) r).length)
      (hOutgoing : outgoing ≠ []) :
      Halted plan r got gave incoming outgoing past

namespace Halted

variable {plan past past' : List Turn} {r : Role}
variable {got gave got' gave' incoming outgoing : Bytes}

/- Where a party halts, it is past what lies behind it. -/
theorem past_spec
    (hHalted : Halted plan r got gave incoming outgoing past) :
    past <+: plan ∧ Past past r got gave := by
  cases hHalted with
  | atEnd hPast => exact ⟨List.prefix_rfl, hPast⟩
  | listening turn hPlan _ hPast =>
      exact ⟨(List.prefix_append past [turn]).trans hPlan, hPast⟩
  | speaking turn hPlan _ hPast =>
      exact ⟨(List.prefix_append past [turn]).trans hPlan, hPast⟩

/-
  The other party cannot be past the turn at which a party
  halts: a listener would have got that turn's bytes, and those
  of a speaker cannot have been heard before they were given.
-/
theorem not_passed
    {turn : Turn}
    (hHalted : Halted plan r got gave incoming outgoing past)
    (hPlan : past ++ [turn] <+: plan)
    (hPassed : past ++ [turn] <+: past')
    (hOther : Past past' r.other got' gave')
    (hIncoming : got ++ incoming = gave')
    (hOutgoing : got' ++ outgoing = gave) :
    False := by
  have hSaid := length_said_le hPassed r
  have hHeard := length_said_le hPassed r.other
  have hSaidThere := hOther.said_le
  have hHeardThere := hOther.heard_le
  rw [Role.other_other] at hHeardThere
  cases hHalted with
  | atEnd => exact not_concat_isPrefix plan turn hPlan
  | listening next hNext _ _ hShort hNone =>
      have hSame := turn_eq hPlan hNext
      subst hSame
      rw [hNone, List.append_nil] at hIncoming
      rw [← hIncoming] at hSaidThere
      omega
  | speaking next hNext _ _ hShort =>
      have hSame := turn_eq hPlan hNext
      subst hSame
      rw [← hOutgoing, List.length_append] at hShort
      omega

/- Two parties that both halt are past the same turns. -/
theorem past_eq
    (hHalted : Halted plan r got gave incoming outgoing past)
    (hOther :
      Halted plan r.other got' gave' outgoing incoming past')
    (hIncoming : got ++ incoming = gave')
    (hOutgoing : got' ++ outgoing = gave) :
    past = past' := by
  rcases hHalted.past_spec with ⟨hPlan, hPast⟩
  rcases hOther.past_spec with ⟨hPlan', hPast'⟩
  rcases List.prefix_or_prefix_of_prefix hPlan hPlan' with
    ⟨rest, rfl⟩ | ⟨rest, rfl⟩
  · cases rest with
    | nil => exact (List.append_nil past).symm
    | cons turn rest =>
        have hPassed : past ++ [turn] <+: past ++ turn :: rest := by
          simp
        exact (hHalted.not_passed (hPassed.trans hPlan') hPassed
          hPast' hIncoming hOutgoing).elim
  · cases rest with
    | nil => exact List.append_nil past'
    | cons turn rest =>
        have hPassed :
            past' ++ [turn] <+: past' ++ turn :: rest := by
          simp
        rw [← r.other_other] at hPast
        exact (hOther.not_passed (hPassed.trans hPlan) hPassed
          hPast hOutgoing hIncoming).elim

/-
  Two parties that both halt have come to the end of the plan.
  At any other turn one of them speaks and the other listens,
  and bytes cannot both be in the way and not be there.
-/
theorem eq_plan
    (hHalted : Halted plan r got gave incoming outgoing past)
    (hOther :
      Halted plan r.other got' gave' outgoing incoming past')
    (hIncoming : got ++ incoming = gave')
    (hOutgoing : got' ++ outgoing = gave) :
    past = plan := by
  have hSame := hHalted.past_eq hOther hIncoming hOutgoing
  subst hSame
  cases hHalted with
  | atEnd => rfl
  | listening turn hPlan hSpeaker _ _ hNone =>
      cases hOther with
      | atEnd => exact (not_concat_isPrefix _ _ hPlan).elim
      | listening next hNext hSpeaker' =>
          rw [← turn_eq hPlan hNext, hSpeaker] at hSpeaker'
          exact (Role.other_ne _ hSpeaker'.symm).elim
      | speaking _ _ _ _ _ hSome => exact (hSome hNone).elim
  | speaking turn hPlan hSpeaker _ _ hSome =>
      cases hOther with
      | atEnd => exact (not_concat_isPrefix _ _ hPlan).elim
      | listening _ _ _ _ _ hNone => exact (hSome hNone).elim
      | speaking next hNext hSpeaker' =>
          rw [← turn_eq hPlan hNext, hSpeaker] at hSpeaker'
          exact (Role.other_ne _ hSpeaker'.symm).elim

end Halted

end Dialogue

end Parley
