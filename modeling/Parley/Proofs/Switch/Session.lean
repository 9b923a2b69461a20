import Parley.Tls.Stream
import Parley.Proofs.Compression.Stored
import Parley.Proofs.Switch.Client
import Parley.Proofs.Switch.Surrogate
/-
  This file lets a surrogate carry out a script in the middle of
  which it begins to compress, with a client at the other end of
  the pipe that does so as well, and shows that nothing goes
  wrong, in whatever order the two go on.

  It is not shown that both come to the end. In a pipe with
  little room they need not: a line can be decoded before all
  that was sent for it has been taken out of the pipe, and its
  reader may go on to send then.

  Key definitions include:
    * `Switch.Result`
    * `Switch.session`
    * `Switch.Safe`

  Key theorems include:
    * `Switch.safe_of_run`
-/

namespace Parley

namespace Switch

open Dialogue Traffic

variable {κ : Codec} {θ : Tls.Provider}

------------------------------------------------------------
-- Sessions
------------------------------------------------------------

/- What each party of a session comes to. -/
def Result
    (κ : Codec)
    (θ : Tls.Provider) : Role → Type
  | .client => Except Upset Unit × Client κ θ
  | .surrogate => Except ScriptError Unit × Surrogate κ θ

/- A new surrogate with a script, and a client at its other end. -/
def session
    (κ : Codec)
    (θ : Tls.Provider)
    (s : SwitchScript)
    (h : Habit)
    (level : Nat)
    (terminator : Bytes) :
    (r : Role) → Routine endpointInterface (Result κ θ r)
  | .client => h.converse level s terminator
  | .surrogate => s.script.execute (Surrogate.new terminator)

/-
  Nothing went wrong so far. If the surrogate is done then its
  script succeeded, and it compresses. If the client is done
  then it did not stop early: no line that it read is another
  than the script has, and it held no unread byte when it began
  to compress.
-/
structure Safe
    (t : Traffic (Result κ θ)) : Prop where
  surrogate :
    ∀ r s,
      t.parties .surrogate = .ready (.done (r, s)) →
        Outcome.ofResult r = .succeeded ∧ s.isCompressed = true
  client :
    ∀ r c,
      t.parties .client = .ready (.done (r, c)) → r = .ok ()

------------------------------------------------------------
-- Nothing goes wrong
------------------------------------------------------------

/-
  For every codec that keeps its laws at both levels, every
  capacity, whichever end the surrogate sits at, every script
  whose awaited lines are told from what follows them, every
  client that can tell the lines that are sent to it, and every
  order of their holds of the lock: nothing goes wrong.

  A client that counts can tell all lines, one that searches for
  their end those that are framed. Where nothing ends a line the
  surrogate may go on to send encoded bytes before the client
  has read the last plain ones, so the client must not take in
  more than is missing.
-/
theorem safe_of_run
    {s : SwitchScript}
    {h : Habit}
    {level : Nat}
    {terminator : Bytes}
    {text text' : Bytes → Bytes}
    {bound bound' : Nat → Nat}
    {home : Side}
    {nameA nameB : String}
    {capacity : Nat}
    {log : List (Visit Role)}
    {t : Traffic (Result κ θ)}
    (hSurrogate :
      κ.Lawful (min s.level Layer.highestLevel) text bound)
    (hClient :
      κ.Lawful (min level Layer.highestLevel) text' bound')
    (hAwaited :
      ∀ line, .recv line ∈ s.lines →
        Bytes.Framed terminator (Bytes.ofString line))
    (hSent :
      h.searches = true → ∀ line, .send line ∈ s.lines →
        Bytes.Framed terminator (Bytes.ofString line))
    (hExact : terminator = [] → h.Exact)
    (hRun :
      Run (Role.seat home)
        (new (.pair nameA nameB capacity)
          (session κ θ s h level terminator)) log t) :
    Safe t := by
  let post : (r : Role) → Result κ θ r → Bytes → Bytes → Prop
    | .client => fun r _ _ => r.1 = .ok ()
    | .surrogate => fun r _ _ =>
      r.1 = .ok () ∧ r.2.isCompressed = true
  have hHonours : ∀ r,
      Honours (s.pact terminator hSurrogate hClient).terms r (post r)
        (session κ θ s h level terminator r) [] [] := by
    intro r
    cases r with
    | client =>
        exact Habit.honours_converse hSurrogate hClient hSent hExact
    | surrogate =>
        exact SwitchScript.honours_execute hSurrogate hClient hAwaited
  have hOnTerms := onTerms_of_run hRun hHonours
  constructor
  · intro r u hDone
    rcases hOnTerms.post_of_done hDone with ⟨hEnd, hCompressed⟩
    obtain rfl : r = .ok () := hEnd
    exact ⟨rfl, hCompressed⟩
  · intro r c hDone
    exact hOnTerms.post_of_done hDone

/- A greeting and an answer, and then two short encoded lines. -/
def upgradeScript : SwitchScript where
  before := [.send "hi", .recv "go"]
  last := "ok"
  level := 0
  next := "a"
  after := [.send "b"]

/- The two go on in turns, over a pipe with room for five bytes. -/
def upgradeRun :
    List (Visit Role) ×
      Traffic (Result storedCodec Tls.transparent) :=
  play (Role.seat .b)
    (List.replicate 40 [Role.surrogate, Role.client]).flatten
    (new (.pair "left" "right" 5)
      (session storedCodec Tls.transparent upgradeScript .usual 0
        [10]))

theorem safe_of_run_of_upgrade :
    (∃ u,
      upgradeRun.2.parties .surrogate =
          .ready (.done (.ok (), u)) ∧
        u.isCompressed = true) ∧
      ∃ c, upgradeRun.2.parties .client = .ready (.done (.ok (), c)) := by
  have hFramed : ∀ a ∈ upgradeScript.lines,
      Bytes.Framed [10] (Bytes.ofString a.line) := by
    decide
  have hSafe : Safe upgradeRun.2 :=
    safe_of_run (lawful_storedCodec _) (lawful_storedCodec _)
      (fun _ hMember => hFramed _ hMember)
      (fun _ _ hMember => hFramed _ hMember) nofun
      (run_play (Role.seat .b) _ _)
  have hSurrogate :
      (upgradeRun.2.parties .surrogate).result?.isSome = true := by
    decide +kernel
  have hClient :
      (upgradeRun.2.parties .client).result?.isSome = true := by
    decide +kernel
  rcases Option.isSome_iff_exists.mp hSurrogate with ⟨⟨r, u⟩, hResult⟩
  rcases Option.isSome_iff_exists.mp hClient with ⟨⟨r', c⟩, hResult'⟩
  have hDone := Party.eq_ready_of_result? hResult
  have hDone' := Party.eq_ready_of_result? hResult'
  constructor
  · rcases hSafe.surrogate r u hDone with ⟨hEnd, hCompressed⟩
    cases r with
    | error e => cases hEnd
    | ok => exact ⟨u, hDone, hCompressed⟩
  · obtain rfl := hSafe.client r' c hDone'
    exact ⟨c, hDone'⟩

end Switch

end Parley
