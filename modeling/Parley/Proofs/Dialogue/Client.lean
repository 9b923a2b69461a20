import Parley.Endpoint
import Parley.Proofs.Dialogue.Keeping
/-
  This file gives the clients that a surrogate may meet: such a
  client goes through the turns of a plan, reads exactly the
  bytes of each turn of the surrogate, and sends those of its
  own. How much it asks for at a time and how it cuts up what
  it sends is its own affair.

  Key definitions include:
    * `Dialogue.Manner`
    * `Dialogue.Manner.hear`
    * `Dialogue.sendAll`
    * `Dialogue.Manner.converse`

  Key theorems include:
    * `Dialogue.Manner.keeps_hear`
    * `Dialogue.keeps_sendAll`
    * `Dialogue.Manner.keeps_converse`
-/

namespace Parley

namespace Dialogue

------------------------------------------------------------
-- Clients
------------------------------------------------------------

/-
  How a client goes about its part, in view of the pieces that
  it received so far, the last one first: for how many bytes it
  has room, and in which pieces it sends bytes.
-/
structure Manner where
  room : List Bytes → Nat
  room_pos : ∀ heard, 0 < room heard
  pieces : List Bytes → Bytes → List Bytes
  flatten_pieces : ∀ heard bytes,
    (pieces heard bytes).flatten = bytes

namespace Manner

/- Receive so many bytes and no more, piece by piece. -/
def hear
    (m : Manner)
    (missing : Nat)
    (heard : List Bytes) :
    Routine endpointInterface (Except PipeError (List Bytes)) :=
  .iterate (missing, heard) fun (missing, heard) =>
    if missing = 0 then .done (.inr (.ok heard))
    else
      (Endpoint.recv (min (m.room heard) missing)).bind fun
        | .ok more =>
          .done (.inl (missing - more.length, more :: heard))
        | .error e => .done (.inr (.error e))

end Manner

/- Send pieces one after the other. -/
def sendAll :
    (pieces : List Bytes) →
    Routine endpointInterface (Except PipeError Unit)
  | [] => .done (.ok ())
  | piece :: rest =>
    (Endpoint.send piece).bind fun
      | .ok _ => sendAll rest
      | .error e => .done (.error e)

namespace Manner

/-
  Go through turns, hearing those of the surrogate and speaking
  those of the client; give back all that was received.
-/
def converse
    (m : Manner) :
    (turns : List Turn) →
    (heard : List Bytes) →
    Routine endpointInterface (Except PipeError Bytes)
  | [], heard => .done (.ok heard.reverse.flatten)
  | ⟨.surrogate, bytes⟩ :: rest, heard =>
    (m.hear bytes.length heard).bind fun
      | .ok heard => m.converse rest heard
      | .error e => .done (.error e)
  | ⟨.client, bytes⟩ :: rest, heard =>
    (sendAll (m.pieces heard bytes)).bind fun
      | .ok () => m.converse rest heard
      | .error e => .done (.error e)

end Manner

------------------------------------------------------------
-- They keep to the plan
------------------------------------------------------------

variable {plan past : List Turn} {bytes got gave : Bytes}

/-
  A client that is past its turns up to here, and has not got a
  byte of those that follow.
-/
structure Level
    (past : List Turn)
    (got gave : Bytes) : Prop where
  got_eq : got = said past .surrogate
  gave_eq : gave = said past .client

/- A turn of the surrogate is heard whole and not beyond. -/
theorem Manner.keeps_hear
    (m : Manner)
    {heard : List Bytes}
    (hPlan : past ++ [⟨.surrogate, bytes⟩] <+: plan)
    (hLevel : Level past got gave)
    (hHeard : heard.reverse.flatten = got) :
    Keeps plan .client (m.hear bytes.length heard)
      (fun r got gave =>
        ∃ heard,
          r = .ok heard ∧
          heard.reverse.flatten = got ∧
          Level (past ++ [⟨.surrogate, bytes⟩]) got gave)
      got gave := by
  rcases hLevel with ⟨rfl, rfl⟩
  have hTurn :
      said (past ++ [⟨.surrogate, bytes⟩]) .surrogate =
        said past .surrogate ++ bytes := by
    simp
  -- What is missing is what the end of the turn lies ahead.
  refine ⟨fun (missing, heard) got gave =>
    heard.reverse.flatten = got ∧
      gave = said past .client ∧
      got <+: said plan .surrogate ∧
      (said past .surrogate).length ≤ got.length ∧
      got.length + missing =
        (said past .surrogate ++ bytes).length,
    ⟨hHeard, rfl, ?_, Nat.le_refl _, ?_⟩, ?_⟩
  · exact said_isPrefix ((List.prefix_append _ _).trans hPlan) _
  · exact List.length_append.symm
  rintro ⟨missing, heard⟩ _ _ ⟨rfl, rfl, hGot, hPast, hMissing⟩
  have hEnd := said_isPrefix hPlan .surrogate
  rw [hTurn] at hEnd
  by_cases hDone : missing = 0
  · subst hDone
    refine ⟨heard, rfl, rfl, ?_, ?_⟩
    · rw [hTurn]
      apply (List.prefix_of_prefix_length_le hGot hEnd
        ?_).eq_of_length
      · exact hMissing
      · exact Nat.le_of_eq hMissing
    · simp
  · simp only [if_neg hDone]
    refine ⟨?_, ⟨past, _, hPlan, rfl, ⟨Nat.le_refl _, hPast⟩, ?_⟩,
      ?_⟩
    · exact Nat.lt_min.mpr
        ⟨m.room_pos heard, Nat.pos_of_ne_zero hDone⟩
    · rw [Role.other, hTurn]
      omega
    · intro more hSome hFits hMore
      have hLess : more.length ≤ missing :=
        Nat.le_trans hFits (Nat.min_le_right _ _)
      refine ⟨?_, rfl, hMore, ?_, ?_⟩
      · simp
      · rw [List.length_append]
        omega
      · rw [List.length_append]
        omega

/- The pieces of a turn of the client are that turn. -/
theorem keeps_sendAll
    {pieces : List Bytes}
    (hPlan : past ++ [⟨.client, bytes⟩] <+: plan)
    (hPast : Past past .client got gave)
    (hPieces :
      gave ++ pieces.flatten =
        said (past ++ [⟨.client, bytes⟩]) .client) :
    Keeps plan .client (sendAll pieces)
      (fun r got' gave' =>
        r = .ok () ∧ got' = got ∧
          gave' = said (past ++ [⟨.client, bytes⟩]) .client)
      got gave := by
  induction pieces generalizing gave with
  | nil =>
      rw [List.flatten_nil, List.append_nil] at hPieces
      exact ⟨rfl, rfl, hPieces⟩
  | cons piece pieces ih =>
      rw [List.flatten_cons, ← List.append_assoc] at hPieces
      have hPastNext : Past past .client got (gave ++ piece) := by
        refine ⟨?_, hPast.heard_le⟩
        rw [List.length_append]
        exact Nat.le_add_right_of_le hPast.said_le
      refine ⟨⟨past, _, hPlan, rfl, hPast, ?_⟩, ?_⟩
      · exact ⟨_, hPieces⟩
      · exact ih hPastNext hPieces

/- A client that goes through the turns of a plan keeps to it. -/
theorem Manner.keeps_converse
    (m : Manner)
    {turns : List Turn}
    {heard : List Bytes}
    (hPlan : past ++ turns = plan)
    (hLevel : Level past got gave)
    (hHeard : heard.reverse.flatten = got) :
    Keeps plan .client (m.converse turns heard)
      (fun r got gave => r = .ok got ∧ Level plan got gave)
      got gave := by
  induction turns generalizing past heard got gave with
  | nil =>
      rw [List.append_nil] at hPlan
      subst hPlan hHeard
      exact ⟨rfl, hLevel⟩
  | cons turn turns ih =>
      rw [List.append_cons] at hPlan
      rcases turn with ⟨speaker, bytes⟩
      cases speaker with
      | surrogate =>
          rw [Manner.converse, keeps_bind]
          apply (m.keeps_hear ⟨_, hPlan⟩ hLevel hHeard).mono
          rintro _ got gave ⟨heard, rfl, hHeard, hLevel⟩
          exact ih hPlan hLevel hHeard
      | client =>
          rcases hLevel with ⟨rfl, rfl⟩
          have hPast : Past past .client
              (said past .surrogate) (said past .client) :=
            ⟨Nat.le_refl _, Nat.le_refl _⟩
          rw [Manner.converse, keeps_bind]
          apply (keeps_sendAll ⟨_, hPlan⟩ hPast ?_).mono
          · rintro _ _ _ ⟨rfl, rfl, rfl⟩
            refine ih hPlan ⟨?_, rfl⟩ hHeard
            simp
          · rw [m.flatten_pieces]
            simp

end Dialogue

end Parley
