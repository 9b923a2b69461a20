import Parley.Tls.Stream
import Parley.Script.Call
import Parley.Proofs.Compression.Streams
import Parley.Proofs.Engine.Results
import Parley.Proofs.Transcript.Walk
/-
  This file says what becomes of a script when its surrogate is
  closed on the way, be it by a control of the script or before
  the script began. Controls may still be carried out. The first
  action that sends or awaits bytes asks the endpoint for
  nothing and fails at its own index, unless it awaits no byte
  at all; but the failure that it names is not the same for
  lines and for raw bytes.

  Key definitions include:
    * `Action.refusal`
    * `Action.KeepsClosed`

  Key theorems include:
    * `Transcript.keepsClosed_ofCalls`
    * `Transcript.yields_perform_of_closed`
    * `Transcript.execute_after_close`
    * `Transcript.wrapped_refusal`
-/

universe u v

namespace Parley

variable {κ : Codec} {θ : Tls.Provider}

------------------------------------------------------------
-- Routines that ask for nothing
------------------------------------------------------------

namespace Routine

variable {I : Interface.{u}} {W : Type v} {α β : Type}

/-
  A routine that asks for nothing ends as promised, whatever
  would be answered.
-/
theorem Yields.of_gives
    {post : α → W → Prop}
    {p : Routine I α}
    {a : α}
    {w : W}
    (hYields : Yields (Compression.silence I W) post p w)
    (hGives : p.Gives a) :
    post a w := by
  induction hYields with
  | done hPost =>
      cases hGives
      exact hPost
  | ask hAdmits _ _ => exact hAdmits.elim
  | loop _ ih =>
      cases hGives with
      | loop hRound => exact ih hRound

end Routine

------------------------------------------------------------
-- Actions on a closed surrogate
------------------------------------------------------------

namespace Action

/-
  How an action at `index` fails on a closed surrogate. Raw
  bytes go through a stream, whose failure stands around the
  reason; an empty read of raw bytes does not even look.
-/
def refusal
    (index : Nat) : Action κ θ → Option ScriptError
  | .sendLine line => some (.write index line .closed)
  | .recvLine line => some (.read index line .closed)
  | .sendRaw bytes =>
    some (.write index (Text.ofBytes bytes)
      (if bytes = [] then .closed else .io (.surrogate .closed)))
  | .recvRaw bytes =>
    if bytes = [] then none
    else
      some (.read index (Text.ofBytes bytes)
        (.io (.surrogate .closed)))
  | .control _ => none

/- A control that does not open a closed surrogate again. -/
def KeepsClosed : Action κ θ → Prop
  | .control c =>
    ∀ s result s',
      s.closed = true → (c.body s).Gives (result, s') →
        s'.closed = true
  | _ => False

end Action

namespace Transcript

open Routine

variable {s : Surrogate κ θ}

------------------------------------------------------------
-- Calls of controls
------------------------------------------------------------

/- A call on a closed surrogate leaves it closed. -/
theorem closed_of_gives_take
    {call : ScriptCall}
    {result : ControlEnd}
    {s' : Surrogate κ θ}
    (hClosed : s.closed = true)
    (hGives : (call.take s).Gives (result, s')) :
    s'.closed = true := by
  cases call with
  | setTimeout d =>
      cases hGives with
      | ask r hGives =>
          cases hGives
          exact hClosed
  | _ =>
      simp only [ScriptCall.take, Surrogate.writeLine,
        Surrogate.flush, Surrogate.readLine, Surrogate.close,
        Surrogate.enableDeflate, Surrogate.fail, hClosed, if_true,
        done_bind] at hGives
      cases hGives
      exact hClosed

/- So does a control that is a list of calls. -/
theorem keepsClosed_ofCalls
    (name : String)
    (calls : List ScriptCall) :
    (Action.control (Control.ofCalls name calls) :
      Action κ θ).KeepsClosed := by
  intro s result s' hClosed hGives
  change (ScriptCall.takeAll calls s).Gives (result, s') at hGives
  induction calls generalizing s with
  | nil =>
      cases hGives
      exact hClosed
  | cons call calls ih =>
      rcases gives_bind hGives with ⟨⟨end_, s₁⟩, hCall, hRest⟩
      have hStill := closed_of_gives_take hClosed hCall
      cases end_ with
      | ok => exact ih s₁ hStill hRest
      | failed e =>
          cases hRest
          exact hStill
      | brokeDown message =>
          cases hRest
          exact hStill

/- So do the controls that a script can name. -/
theorem keepsClosed_close :
    (Action.control Control.close : Action κ θ).KeepsClosed := by
  intro s result s' hClosed hGives
  simp only [Control.close, Control.ofRun, Surrogate.close, hClosed,
    if_true, done_bind] at hGives
  cases hGives
  exact hClosed

/-
  Controls behind which a surrogate was closed leave it closed
  as long as none of them fails.
-/
theorem closed_of_gives_executeFrom
    {index : Nat}
    {controls : List (Action κ θ)}
    {s' : Surrogate κ θ}
    (hControls : ∀ b ∈ controls, b.KeepsClosed)
    (hClosed : s.closed = true)
    (hGives :
      (Script.executeFrom index controls s).Gives (.ok (), s')) :
    s'.closed = true := by
  induction controls generalizing index s with
  | nil =>
      cases hGives
      exact hClosed
  | cons b controls ih =>
      rcases List.forall_mem_cons.mp hControls with ⟨hKeeps, hRest⟩
      rcases gives_ifOk hGives with ⟨e, hFailed, -⟩ | ⟨_, s₁, hHere, hOn⟩
      · cases hFailed
      · refine ih hRest ?_ hOn
        cases b with
        | control c =>
            rcases gives_bind hHere with ⟨⟨end_, s₂⟩, hBody, hEnd⟩
            have hStill := hKeeps s end_ s₂ hClosed hBody
            cases end_ <;> cases hEnd
            exact hStill
        | _ => exact hKeeps.elim

------------------------------------------------------------
-- Actions that move bytes
------------------------------------------------------------

/- Writing to a closed surrogate fails unless nothing is written. -/
theorem yields_writeAll_of_closed
    (hClosed : s.closed = true)
    (src : Bytes) :
    Yields (Compression.silence endpointInterface Unit)
      (fun (r, s') _ =>
        s' = s ∧
          r = if src = [] then .ok ()
            else .error (.surrogate .closed))
      (ByteStream.writeAll s src) () := by
  apply Yields.loop
  rw [unroll]
  by_cases hNone : src = []
  · simp only [hNone, if_true]
    exact .done ⟨rfl, rfl⟩
  · simp only [hNone, if_false, ByteStream.write, Surrogate.write,
      hClosed, if_true]
    exact .done ⟨rfl, rfl⟩

/- Reading from one fails unless nothing is asked for. -/
theorem yields_readExact_of_closed
    (hClosed : s.closed = true)
    (n : Nat) :
    Yields (Compression.silence endpointInterface Unit)
      (fun (r, s') _ =>
        s' = s ∧
          r = if n = 0 then .ok []
            else .error (.surrogate .closed))
      (ByteStream.readExact s n) () := by
  apply Yields.loop
  rw [unroll]
  by_cases hNone : n = 0
  · simp only [hNone, if_true]
    exact .done ⟨rfl, rfl⟩
  · simp only [hNone, if_false, ByteStream.read, Surrogate.read,
      hClosed, if_true]
    exact .done ⟨rfl, rfl⟩

/-
  An action that moves bytes asks for nothing on a closed
  surrogate, changes nothing, and fails; only an empty read of
  raw bytes passes.
-/
theorem yields_perform_of_closed
    (a : Action κ θ)
    (hMoves : a.MovesBytes)
    (index : Nat)
    (hClosed : s.closed = true) :
    Yields (Compression.silence endpointInterface Unit)
      (fun (r, s') _ =>
        s' = s ∧ r = (a.refusal index).elim (.ok ()) .error)
      (a.perform index s) () := by
  cases a with
  | control c => exact hMoves.elim
  | sendLine line =>
      simp only [Action.perform, Surrogate.sendLine,
        Surrogate.writeLine, Surrogate.fail, hClosed, if_true]
      exact .done ⟨rfl, rfl⟩
  | recvLine line =>
      simp only [Action.perform, Surrogate.readLine,
        Surrogate.fail, hClosed, if_true]
      exact .done ⟨rfl, rfl⟩
  | sendRaw bytes =>
      rw [Action.perform, Surrogate.sendRaw, Routine.ifOk,
        Routine.bind_assoc, Routine.bind_assoc]
      apply (yields_writeAll_of_closed hClosed bytes).bind
      rintro ⟨r, s'⟩ _ ⟨rfl, rfl⟩
      by_cases hNone : bytes = []
      · simp only [hNone, if_true, Except.mapError, done_bind,
          Surrogate.flush, Surrogate.fail, hClosed]
        exact .done ⟨rfl, by simp [Action.refusal]⟩
      · simp only [hNone, if_false, Except.mapError, done_bind]
        exact .done ⟨rfl, by simp [Action.refusal, hNone]⟩
  | recvRaw bytes =>
      rw [Action.perform]
      apply (yields_readExact_of_closed hClosed bytes.length).bind
      rintro ⟨r, s'⟩ _ ⟨rfl, rfl⟩
      by_cases hNone : bytes = []
      · subst hNone
        exact .done ⟨rfl, rfl⟩
      · have hSome : bytes.length ≠ 0 :=
          mt List.length_eq_zero_iff.mp hNone
        simp only [if_neg hSome]
        exact .done ⟨rfl, by simp [Action.refusal, hNone]⟩

------------------------------------------------------------
-- Scripts behind a close
------------------------------------------------------------

/- However a close ends, the surrogate is closed by it. -/
theorem closed_of_gives_close
    {flush : Bool}
    {r : Except SurrogateError Unit}
    {s' : Surrogate κ θ}
    (hGives : (s.close flush).Gives (r, s')) :
    s'.closed = true := by
  cases hClosed : s.closed with
  | true =>
      simp only [Surrogate.close, hClosed, if_true] at hGives
      cases hGives
      exact hClosed
  | false =>
      simp only [Surrogate.close, hClosed, Bool.false_eq_true,
        if_false] at hGives
      rcases gives_bind hGives with ⟨_, -, hShut⟩
      rcases gives_bind hShut with ⟨_, -, hEnd⟩
      cases hEnd
      rfl

/-
  Carrying out actions of which the first moves bytes: on a
  closed surrogate that is its refusal, or what comes after it.
-/
theorem gives_executeFrom_of_closed
    {index : Nat}
    {a : Action κ θ}
    {later : List (Action κ θ)}
    {r : Except ScriptError Unit}
    {s' : Surrogate κ θ}
    (hMoves : a.MovesBytes)
    (hClosed : s.closed = true)
    (hGives :
      (Script.executeFrom index (a :: later) s).Gives (r, s')) :
    match a.refusal index with
    | some e => r = .error e ∧ s' = s
    | none =>
      (Script.executeFrom (index + 1) later s).Gives (r, s') := by
  have hYields := yields_perform_of_closed a hMoves index hClosed
  rcases gives_ifOk hGives with ⟨e, rfl, hHere⟩ | ⟨_, s₁, hHere, hOn⟩
  · rcases hYields.of_gives hHere with ⟨rfl, hEnd⟩
    cases hRefusal : a.refusal index with
    | some e' =>
        rw [hRefusal] at hEnd
        exact ⟨hEnd, rfl⟩
    | none =>
        rw [hRefusal] at hEnd
        cases hEnd
  · rcases hYields.of_gives hHere with ⟨rfl, hEnd⟩
    cases hRefusal : a.refusal index with
    | some e' =>
        rw [hRefusal] at hEnd
        cases hEnd
    | none => exact hOn

/-
  A script comes to a first action that moves bytes after some
  actions and then some controls, if none of them fails. If the
  surrogate was closed when the controls began, it still is, and
  the action asks the endpoint for nothing. The script fails
  with its refusal and leaves the surrogate as it was; without a
  refusal it goes on as if the action were not there.
-/
theorem execute_after_close
    {script : Script κ θ}
    {before between later : List (Action κ θ)}
    {a : Action κ θ}
    {s₀ s' : Surrogate κ θ}
    {r : Except ScriptError Unit}
    (hActions : script.actions = before ++ between ++ a :: later)
    (hBetween : ∀ b ∈ between, b.KeepsClosed)
    (hMoves : a.MovesBytes)
    (hGives : (script.execute s₀).Gives (r, s')) :
    (∃ e, r = .error e ∧
      (Script.executeFrom 1 (before ++ between) s₀).Gives
        (.error e, s')) ∨
      ∃ s s₁,
        (Script.executeFrom 1 before s₀).Gives (.ok (), s) ∧
          (Script.executeFrom (1 + before.length) between s).Gives
            (.ok (), s₁) ∧
          (s.closed = true →
            let index := 1 + (before ++ between).length
            s₁.closed = true ∧
              Yields (Compression.silence endpointInterface Unit)
                (fun _ _ => True) (a.perform index s₁) () ∧
              match a.refusal index with
              | some e => r = .error e ∧ s' = s₁
              | none =>
                (Script.executeFrom (index + 1) later s₁).Gives
                  (r, s')) := by
  rw [Script.execute, hActions, Script.executeFrom_append] at hGives
  rcases gives_ifOk hGives with ⟨e, rfl, hFirst⟩ | ⟨_, s₁, hFirst, hRest⟩
  · exact .inl ⟨e, rfl, hFirst⟩
  · rw [Script.executeFrom_append] at hFirst
    rcases gives_ifOk hFirst with ⟨e, hFailed, -⟩ | ⟨_, s, hBefore, hThen⟩
    · cases hFailed
    · refine .inr ⟨s, s₁, hBefore, hThen, fun hClosed => ?_⟩
      have hStill :=
        closed_of_gives_executeFrom hBetween hClosed hThen
      exact ⟨hStill,
        (yields_perform_of_closed a hMoves _ hStill).mono
          fun _ _ _ => trivial,
        gives_executeFrom_of_closed hMoves hStill hRest⟩

/- A script that closes its surrogate twice and then sends. -/
def closingScript : Script rawDeflate Tls.transparent where
  actions :=
    [.control Control.close, .control Control.close,
      .sendRaw [120]]

/- The surrogate that it leaves. -/
def closedSurrogate : Surrogate rawDeflate Tls.transparent :=
  { Surrogate.new [13, 10] with closed := true }

theorem execute_after_close_of_closing :
    ∃ s₁,
      (closingScript.execute (Surrogate.new [13, 10])).Gives
          (.error (.write 3 (Text.ofBytes [120]) (.io (.surrogate .closed))), s₁) ∧
        s₁.closed = true ∧
          Yields (Compression.silence endpointInterface Unit)
            (fun _ _ => True) ((Action.sendRaw [120]).perform 3 s₁)
            () := by
  have hGives :
      (closingScript.execute (Surrogate.new [13, 10])).Gives
        (.error (.write 3 (Text.ofBytes [120]) (.io (.surrogate .closed))),
          closedSurrogate) :=
    .ask () (.loop (.done _))
  have hActions :
      closingScript.actions =
        [.control Control.close] ++ [.control Control.close] ++
          .sendRaw [120] :: [] :=
    rfl
  rcases execute_after_close hActions
    (List.forall_mem_singleton.mpr keepsClosed_close) trivial hGives
    with ⟨e, -, hFailed⟩ | ⟨s, s₁, hBefore, -, hAfter⟩
  · cases hFailed with
    | ask r hFailed => cases hFailed
  · have hClosed : s.closed = true := by
      cases hBefore with
      | ask r hBefore =>
          cases hBefore
          rfl
    rcases hAfter hClosed with ⟨hStill, hSilent, -, rfl⟩
    exact ⟨closedSurrogate, hGives, hStill, hSilent⟩

/-
  A line that is sent on a closed surrogate fails as closed. Raw
  bytes fail as a stream does, with the reason inside; no raw
  bytes are read without any failure.
-/
theorem wrapped_refusal :
    let closeThen (a : Action rawDeflate Tls.transparent) :
        Script rawDeflate Tls.transparent :=
      ⟨[.control Control.close, a]⟩
    let s₀ : Surrogate rawDeflate Tls.transparent :=
      Surrogate.new [13, 10]
    (∃ s, ((closeThen (.sendRaw [120])).execute s₀).Gives
      (.error (.write 2 (Text.ofBytes [120]) (.io (.surrogate .closed))), s)) ∧
      (∃ s, ((closeThen (.recvRaw [])).execute s₀).Gives
        (.ok (), s)) ∧
      ∀ r s,
        (((closeThen (.sendRaw [120])).execute s₀).Gives (r, s) →
          r ≠ .error (.write 2 (Text.ofBytes [120]) .closed)) ∧
        (((closeThen (.recvRaw [])).execute s₀).Gives (r, s) →
          r ≠ .error (.read 2 (Text.ofBytes []) .closed)) := by
  refine ⟨⟨closedSurrogate, .ask () (.loop (.done _))⟩,
    ⟨closedSurrogate, .ask () (.loop (.done _))⟩, fun r s => ⟨?_, ?_⟩⟩
  · intro hGives
    cases hGives with
    | ask _ hGives =>
        cases hGives with
        | loop hGives =>
            cases hGives
            nofun
  · intro hGives
    cases hGives with
    | ask _ hGives =>
        cases hGives with
        | loop hGives =>
            cases hGives
            nofun

end Transcript

end Parley
