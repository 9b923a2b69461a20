import Parley.Deflate.Codec
import Parley.Tls.Stream
import Parley.Proofs.Dialogue.Client
import Parley.Proofs.Dialogue.Exchange
import Parley.Proofs.Dialogue.Surrogate
/-
  This file lets a surrogate carry out a script while a client
  goes through the script's turns at the other end of the pipe,
  and shows that they never lock each other up and that the
  script always succeeds.

  Key definitions include:
    * `Action.sent`
    * `Dialogue.Outcome`
    * `Dialogue.session`

  Key theorems include:
    * `Dialogue.said_turns_surrogate`
    * `Dialogue.session_never_stuck`
-/

namespace Parley

variable {κ : Codec} {θ : Tls.Provider}

/- The bytes that an action puts on their way to the client. -/
def Action.sent
    (terminator : Bytes) : Action κ θ → Bytes
  | .sendLine line => Bytes.ofString line ++ terminator
  | .sendRaw bytes => bytes
  | _ => []

namespace Dialogue

open Traffic

------------------------------------------------------------
-- Sessions
------------------------------------------------------------

/- What each party of a session comes to. -/
def Outcome
    (κ : Codec)
    (θ : Tls.Provider) : Role → Type
  | .client => Except PipeError Bytes
  | .surrogate => Except ScriptError Unit × Surrogate κ θ

/- A new surrogate with a script, and a client for its turns. -/
def session
    (script : Script κ θ)
    (terminator : Bytes)
    (m : Manner) :
    (r : Role) → Routine endpointInterface (Outcome κ θ r)
  | .client => m.converse (script.turns terminator) []
  | .surrogate => script.execute (Surrogate.new terminator)

/- What a script has the surrogate say is what it sends. -/
theorem said_turns_surrogate
    (script : Script κ θ)
    (terminator : Bytes) :
    said (script.turns terminator) .surrogate =
      script.actions.flatMap (Action.sent terminator) := by
  rcases script with ⟨actions⟩
  simp only [Script.turns]
  induction actions with
  | nil => rfl
  | cons a actions ih =>
      rw [List.flatMap_cons, ← ih]
      cases a with
      | _ =>
          simp [List.filterMap_cons, Action.turn, Action.sent, said]

/- What each party has come to when it is done. -/
def SessionPost
    (script : Script κ θ)
    (terminator : Bytes) :
    (r : Role) → Outcome κ θ r → Bytes → Bytes → Prop
  | .client => fun result got gave =>
    result = .ok got ∧ Level (script.turns terminator) got gave
  | .surrogate => fun result got gave =>
    result = (.ok (), Surrogate.new terminator) ∧
      Abreast (script.turns terminator)
        (script.turns terminator) [] got gave

/- Both parties of a session keep to the script's plan. -/
theorem keeps_session
    {script : Script κ θ}
    {terminator : Bytes}
    (m : Manner)
    (hTerminator : terminator ≠ [])
    (hTalks : ∀ a ∈ script.actions, a.Talks terminator)
    (r : Role) :
    Keeps (script.turns terminator) r
      (session script terminator m r)
      (SessionPost script terminator r) [] [] := by
  cases r with
  | client =>
      exact m.keeps_converse (List.nil_append _) ⟨rfl, rfl⟩ rfl
  | surrogate => exact keeps_execute hTerminator hTalks

/- Who is done with a session is past all of its turns. -/
theorem past_of_sessionPost
    {script : Script κ θ}
    {terminator : Bytes}
    (r : Role)
    (result : Outcome κ θ r)
    (got gave : Bytes)
    (hPost : SessionPost script terminator r result got gave) :
    Past (script.turns terminator) r got gave := by
  cases r with
  | client =>
      rcases hPost with ⟨-, rfl, rfl⟩
      exact ⟨Nat.le_refl _, Nat.le_refl _⟩
  | surrogate => exact hPost.2.past_spec

------------------------------------------------------------
-- Nobody is ever stuck
------------------------------------------------------------

/-
  For every capacity, whichever end the surrogate sits at,
  every script that only talks and whose awaited lines are told
  from what follows them, every manner of the client, and every
  order of their holds of the lock: one of the two can go on,
  or both are done. When both are done the script succeeded,
  the client received what the script sends and nothing else,
  and nothing is left unread, neither in the pipe nor in the
  surrogate.
-/
theorem session_never_stuck
    {script : Script κ θ}
    {terminator : Bytes}
    {m : Manner}
    {home : Side}
    {nameA nameB : String}
    {capacity : Nat}
    {log : List (Visit Role)}
    {t : Traffic (Outcome κ θ)}
    (hRun :
      Run (Role.seat home)
        (new (.pair nameA nameB capacity)
          (session script terminator m)) log t)
    (hTerminator : terminator ≠ [])
    (hTalks : ∀ a ∈ script.actions, a.Talks terminator) :
    ((∃ r, Runnable (Role.seat home) t r) ∨
      ∀ r, ∃ result, t.parties r = .ready (.done result)) ∧
    ((∀ r, ∃ result, t.parties r = .ready (.done result)) →
      (∃ s : Surrogate κ θ,
        t.parties .surrogate = .ready (.done (.ok (), s)) ∧
          s.unread = [] ∧ s.unsent = []) ∧
      t.parties .client =
        .ready (.done (.ok (script.actions.flatMap
          (Action.sent terminator)))) ∧
      ∀ s, (t.pipe.queues.get s).unread = []) := by
  have hEnd := runnable_or_over hRun
    (keeps_session m hTerminator hTalks) past_of_sessionPost
  constructor
  · rcases hEnd with hRunnable | ⟨hOver, -⟩
    · exact .inl hRunnable
    · right
      intro r
      rcases hOver r with ⟨result, hDone, -⟩
      exact ⟨result, hDone⟩
  · intro hDone
    rcases hEnd with ⟨r, hNotDone, -⟩ | ⟨hOver, hUnread⟩
    · rcases hDone r with ⟨result, hResult⟩
      exact absurd hResult (hNotDone result)
    · rcases hOver .surrogate with ⟨_, hSurrogate, rfl, -⟩
      rcases hOver .client with ⟨_, hClient, rfl, -⟩
      rw [← said_turns_surrogate]
      exact ⟨⟨_, hSurrogate, rfl, rfl⟩, hClient, hUnread⟩

/- A client with little room that sends each turn at once. -/
def frugalManner : Manner where
  room _ := 2
  room_pos _ := Nat.succ_pos 1
  pieces _ bytes := [bytes]
  flatten_pieces _ _ := List.append_nil _

/- Lines and a raw byte, each turn longer than the pipe. -/
def greetingScript : Script rawDeflate Tls.transparent where
  actions :=
    [.sendLine "hi", .recvLine "yo", .sendRaw [7, 8, 9]]

/- The two go on in turns, until both are done. -/
def greetingRun :
    List (Visit Role) ×
      Traffic (Outcome rawDeflate Tls.transparent) :=
  play (Role.seat .b)
    (List.replicate 20 [Role.surrogate, Role.client]).flatten
    (new (.pair "left" "right" 2)
      (session greetingScript [10] frugalManner))

theorem session_never_stuck_of_greeting :
    greetingRun.2.parties .client =
        .ready (.done (.ok [104, 105, 10, 7, 8, 9])) ∧
      ∀ s, (greetingRun.2.pipe.queues.get s).unread = [] := by
  have hTalks : ∀ a ∈ greetingScript.actions, a.Talks [10] := by
    simp only [greetingScript, List.mem_cons, List.not_mem_nil,
      or_false]
    rintro a (rfl | rfl | rfl)
    · trivial
    · change Bytes.Framed _ _
      decide
    · trivial
  have hDone : ∀ r, ∃ result,
      greetingRun.2.parties r = .ready (.done result) := by
    intro r
    cases r with
    | client => exact ⟨_, rfl⟩
    | surrogate => exact ⟨_, rfl⟩
  exact ((session_never_stuck (run_play (Role.seat .b) _ _)
    (List.cons_ne_nil _ _) hTalks).2 hDone).2

end Dialogue

end Parley
