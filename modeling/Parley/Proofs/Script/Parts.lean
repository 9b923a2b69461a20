import Parley.Proofs.Environment
import Parley.Engine.Basic
/-
  This file carries scripts out over a link whose behaviour is
  fixed: how it answers each act depends on what was exchanged
  before, and on nothing else. There a script can be carried out
  in two parts. What is exchanged and the surrogate are the same
  as in one go, and so is the outcome, up to the count of the
  entries.

  Key definitions include:
    * `Exchange`
    * `FixedLink`
    * `FixedLink.environment`
    * `ScriptError.later`
    * `Report.later`

  Key theorems include:
    * `FixedLink.prefix_of_ends`
    * `Action.perform_later`
    * `Script.executeFrom_later`
    * `Engine.runner_append`
    * `Engine.ends_runner_append`
    * `Engine.ends_runner_append_of_failed`
-/

namespace Parley

------------------------------------------------------------
-- Fixed links
------------------------------------------------------------

/- An act of a thread, together with its answer. -/
abbrev Exchange :=
  (a : Act) × a.Answer

/-
  A link whose behaviour is fixed: the answer to each act, after
  all that was exchanged before.
-/
abbrev FixedLink :=
  List Exchange → (a : Act) → a.Answer

namespace FixedLink

variable {α : Type}

/- The environment of a thread that talks over a fixed link. -/
def environment
    (link : FixedLink) :
    Environment threadInterface (List Exchange) where
  admits _ _ := True
  answers held a r held' :=
    r = link held a ∧ held' = held ++ [⟨a, r⟩]

/- Nothing is open there. -/
theorem fixed_environment
    (link : FixedLink) :
    link.environment.Fixed := by
  rintro held a r r' _ _ ⟨rfl, rfl⟩ ⟨rfl, rfl⟩
  exact ⟨rfl, rfl⟩

/- What was exchanged stays. -/
theorem prefix_of_ends
    {link : FixedLink}
    {p : Routine threadInterface α}
    {a : α}
    {held held' : List Exchange}
    (hEnds : p.Ends link.environment held a held') :
    held <+: held' := by
  induction hEnds with
  | done a held => exact List.prefix_rfl
  | ask hAnswers _ ih =>
      rcases hAnswers with ⟨-, rfl⟩
      exact (List.prefix_append _ _).trans ih
  | loop _ ih => exact ih

end FixedLink

------------------------------------------------------------
-- Entries that stand further back
------------------------------------------------------------

/-
  The same failure of an entry that stands `n` places further
  back. A fault names no entry.
-/
def ScriptError.later
    (n : Nat) : ScriptError → ScriptError
  | write index sent source => write (index + n) sent source
  | mismatch index expected actual =>
    mismatch (index + n) expected actual
  | read index expected source => read (index + n) expected source
  | control index name source => control (index + n) name source
  | malformed index flaw => malformed (index + n) flaw
  | fault message => fault message

/- The entry that it names is `n` places further back. -/
theorem ScriptError.index?_later
    (n : Nat)
    (e : ScriptError) :
    (e.later n).index? = e.index?.map (· + n) := by
  cases e <;> rfl

/- The same outcome of a script that begins `n` places later. -/
def Outcome.later
    (n : Nat) : Outcome → Outcome
  | succeeded => succeeded
  | failed e => failed (e.later n)

/- The same report of such a script. -/
def Report.later
    {κ : Codec}
    {θ : Tls.Provider}
    (n : Nat)
    (report : Report κ θ) : Report κ θ :=
  { report with outcome := report.outcome.later n }

variable {κ : Codec} {θ : Tls.Provider}

/- How a performance ends if it begins `n` places later. -/
def endLater
    (n : Nat) :
    Except ScriptError Unit × Surrogate κ θ → Performance κ θ
  | (r, s) => .done (r.mapError (ScriptError.later n), s)

/- An action does the same wherever it stands. -/
theorem Action.perform_later
    (a : Action κ θ)
    (index n : Nat)
    (s : Surrogate κ θ) :
    a.perform (index + n) s =
      (a.perform index s).bind (endLater n) := by
  cases a with
  | sendLine line =>
      simp only [perform, Routine.bind_assoc]
      congr 1
      funext next
      rcases next with ⟨r, s⟩
      cases r <;> rfl
  | sendRaw bytes =>
      simp only [perform, Routine.bind_assoc]
      congr 1
      funext next
      rcases next with ⟨r, s⟩
      cases r <;> rfl
  | recvLine expected =>
      simp only [perform, Routine.bind_assoc]
      congr 1
      funext next
      rcases next with ⟨r, s⟩
      cases r with
      | ok actual => dsimp only; split <;> rfl
      | error e => rfl
  | recvRaw expected =>
      simp only [perform, Routine.bind_assoc]
      congr 1
      funext next
      rcases next with ⟨r, s⟩
      cases r with
      | ok actual => dsimp only; split <;> rfl
      | error e => rfl
  | control c =>
      simp only [perform, Routine.bind_assoc]
      congr 1
      funext next
      rcases next with ⟨r, s⟩
      cases r <;> rfl

/- So do actions in a row. -/
theorem Script.executeFrom_later
    (actions : List (Action κ θ))
    (index n : Nat)
    (s : Surrogate κ θ) :
    executeFrom (index + n) actions s =
      (executeFrom index actions s).bind (endLater n) := by
  induction actions generalizing index s with
  | nil => rfl
  | cons a rest ih =>
      simp only [executeFrom, Routine.ifOk, a.perform_later,
        Routine.bind_assoc]
      congr 1
      funext next
      rcases next with ⟨r, s⟩
      cases r with
      | error e => rfl
      | ok done =>
          change executeFrom (index + n + 1) rest s = _
          rw [Nat.add_right_comm, ih]

------------------------------------------------------------
-- Scripts in two parts
------------------------------------------------------------

/- Carrying out at a side goes through sequences. -/
theorem Routine.atSide_bind
    {α β : Type}
    (side : Side)
    (p : Routine endpointInterface α)
    (f : α → Routine endpointInterface β) :
    (p.bind f).atSide side =
      (p.atSide side).bind fun a => (f a).atSide side :=
  through_bind _ p f

namespace Engine

/-
  What a runner goes on with after the first part of a script:
  with the second part on the surrogate that the first has left,
  unless the first has failed.
-/
def runSecond
    (n : Nat)
    (second : List (Action κ θ)) :
    Option (Report κ θ) →
      Routine threadInterface (Option (Report κ θ))
  | some ⟨s, .succeeded⟩ =>
    (runner s ⟨second⟩).bind fun report =>
      .done (report.map (Report.later n))
  | other => .done other

/- A script can be run in two parts. -/
theorem runner_append
    (s : Surrogate κ θ)
    (first second : List (Action κ θ)) :
    runner s ⟨first ++ second⟩ =
      (runner s ⟨first⟩).bind (runSecond first.length second) := by
  simp only [runner, Script.execute, Script.executeFrom_append,
    Routine.ifOk, Routine.bind_assoc, Routine.atSide_bind]
  congr 1
  funext next
  rcases next with ⟨r, s⟩
  cases r with
  | error e => rfl
  | ok done =>
      simp only [Script.executeFrom_later second 1 first.length,
        Routine.bind_assoc, Routine.atSide_bind]
      change _ = (runner s ⟨second⟩).bind _
      simp only [runner, Script.execute, Routine.bind_assoc,
        Routine.atSide_bind]
      congr 1
      funext next
      rcases next with ⟨r, s⟩
      cases r <;> rfl

variable {link : FixedLink} {s s' : Surrogate κ θ}
variable {first second : List (Action κ θ)}
variable {held held' held'' : List Exchange}

/-
  If the first part succeeds and then the second part comes to
  its end, the whole comes to the same end.
-/
theorem ends_runner_append
    {report : Report κ θ}
    (hFirst : (runner s ⟨first⟩).Ends link.environment held
      (some ⟨s', .succeeded⟩) held')
    (hSecond : (runner s' ⟨second⟩).Ends link.environment held'
      (some report) held'') :
    (runner s ⟨first ++ second⟩).Ends link.environment held
      (some (report.later first.length)) held'' := by
  rw [runner_append]
  exact hFirst.bind (hSecond.bind (.done _ _))

/- If the first part fails the whole does, there and then. -/
theorem ends_runner_append_of_failed
    {e : ScriptError}
    (hFirst : (runner s ⟨first⟩).Ends link.environment held
      (some ⟨s', .failed e⟩) held') :
    (runner s ⟨first ++ second⟩).Ends link.environment held
      (some ⟨s', .failed e⟩) held' := by
  rw [runner_append]
  exact hFirst.bind (.done _ _)

end Engine

end Parley
