import Parley.Tls.Provider
import Parley.Tls.Record
import Parley.Proofs.Outflow.Concluding
/-
  This file says what may be relied on in sessions that come
  from elsewhere. A server's end begins with a handshake message
  or, if that is not how the exchange goes on, with an alert. A
  session that is open stays so; what it has to send is sent by
  a flush that comes to a good end, and a flush that finds
  nothing to send does nothing.

  Key definitions include:
    * `Opens`
    * `Provider.exchanges`
    * `Provider.IsIdle`
    * `Provider.Lawful`

  Key theorems include:
    * `Provider.offers_exchanges`
    * `Provider.Lawful.offers_handshake`
    * `Provider.always_handshake`
-/

namespace Parley.Tls

------------------------------------------------------------
-- First bytes
------------------------------------------------------------

/-
  Bytes that begin with a record of one of these types, if there
  are any.
-/
def Opens
    (types : List UInt8)
    (out : Bytes) : Prop :=
  ∀ b ∈ out.head?, b ∈ types

namespace Opens

variable {types : List UInt8} {out more : Bytes}

theorem nil
    (types : List UInt8) :
    Opens types [] :=
  nofun

theorem cons
    {b : UInt8}
    (hType : b ∈ types)
    (out : Bytes) :
    Opens types (b :: out) := by
  intro first hFirst
  cases hFirst
  exact hType

/- A first part begins with the same byte, if with any. -/
theorem of_isPrefix
    (hOpens : Opens types more)
    (hPrefix : out <+: more) :
    Opens types out := by
  cases out with
  | nil => exact .nil types
  | cons b out =>
      rcases hPrefix with ⟨rest, rfl⟩
      exact hOpens

end Opens

/- The types of the records with which a server begins to speak. -/
def openingTypes : List UInt8 :=
  [Record.handshake, Record.alert]

------------------------------------------------------------
-- Lawful sessions
------------------------------------------------------------

namespace Provider

open Routine Outflow

variable {θ : Provider}

/-
  The first exchanges of a handshake: so many of them, or fewer
  if it is over before.
-/
def exchanges
    (θ : Provider) :
    Nat →
      θ.Session →
        Routine endpointInterface (Except IoError Unit × θ.Session)
  | 0, session => .done (.ok (), session)
  | n + 1, session =>
    if θ.isHandshaking session then
      (θ.exchange session).ifOk fun _ session =>
        θ.exchanges n session
    else .done (.ok (), session)

/-
  What the server's end has given in some first exchanges. Once
  the session is open, it has begun with a handshake message.
-/
def Greets
    (θ : Provider) :
    Except IoError Unit × θ.Session → Bytes → Prop
  | (r, session), out =>
    Opens openingTypes out ∧
      (r = .ok () →
        θ.isHandshaking session = false →
          Opens [Record.handshake] out)

/- An open session that has nothing to send. -/
structure IsIdle
    (θ : Provider)
    (session : θ.Session) : Prop where
  isOpen : θ.isHandshaking session = false
  isSent : θ.wantsWrite session = false

/-
  What may be relied on. The first law is about all that a
  server's end gives in its handshake, at any time of it and
  however little of each send the endpoint takes. The next three
  hold whatever the endpoint answers: an open session is not
  taken back into a handshake.
-/
structure Lawful
    (θ : Provider) : Prop where
  greets :
    ∀ n,
      Offers (Opens openingTypes) (θ.exchanges n θ.server)
        θ.Greets []
  read :
    ∀ session room, θ.isHandshaking session = false →
      (θ.read session room).Always fun (_, after) =>
        θ.isHandshaking after = false
  write :
    ∀ session src, θ.isHandshaking session = false →
      (θ.write session src).Always fun (_, after) =>
        θ.isHandshaking after = false
  flush :
    ∀ session, θ.isHandshaking session = false →
      (θ.flush session).Always fun (_, after) =>
        θ.isHandshaking after = false
  sends :
    ∀ session, θ.isHandshaking session = false →
      Concludes (θ.flush session) fun (r, after) =>
        r = .ok () → θ.wantsWrite after = false
  silent :
    ∀ session, θ.IsIdle session →
      θ.flush session = .done (.ok (), session)

------------------------------------------------------------
-- The handshake
------------------------------------------------------------

variable {session : θ.Session}

/-
  What every exchange keeps true of a session and of what it has
  given, any number of exchanges do.
-/
theorem offers_exchanges
    {always : Bytes → Prop}
    {post : Except IoError Unit × θ.Session → Bytes → Prop}
    (inv : θ.Session → Bytes → Prop)
    (hExchange : ∀ session out, inv session out →
      Offers always (θ.exchange session)
        (fun
          | (.ok _, after) => inv after
          | (.error e, after) => post (.error e, after))
        out)
    (hOver : ∀ session out, inv session out →
      post (.ok (), session) out)
    (n : Nat)
    {out : Bytes}
    (hInv : inv session out) :
    Offers always (θ.exchanges n session) post out := by
  induction n generalizing session out with
  | zero => exact hOver session out hInv
  | succ n ih =>
      rw [exchanges]
      split
      · rw [ifOk, offers_bind]
        apply (hExchange session out hInv).mono
        rintro ⟨e | _, after⟩ out hAfter
        · exact hAfter
        · exact ih hAfter
      · exact hOver session out hInv

/-
  A server gives nothing before it has begun with a handshake
  message or an alert; if the handshake comes to a good end, it
  was no alert.
-/
theorem Lawful.offers_handshake
    (hLawful : θ.Lawful) :
    Offers (Opens openingTypes) (θ.handshake θ.server)
      (fun (r, _) out =>
        Opens openingTypes out ∧
          (r = .ok () → Opens [Record.handshake] out))
      [] := by
  -- After any exchange the law still holds of those to come.
  refine ⟨fun session out => ∀ n,
    Offers (Opens openingTypes) (θ.exchanges n session)
      θ.Greets out, hLawful.greets, ?_⟩
  intro session out hComing
  simp only
  split
  · next hOn =>
      have hNext := fun n => hComing (n + 1)
      simp only [exchanges, if_pos hOn, ifOk, offers_bind] at hNext
      rw [offers_bind]
      apply (offers_forall hNext).mono
      rintro ⟨e | _, after⟩ out hAfter
      · exact ⟨(hAfter 0).1, nofun⟩
      · exact hAfter
  · next hOver =>
      have hGreets := hComing 0
      exact ⟨hGreets.1, fun _ =>
        hGreets.2 rfl (eq_false_of_ne_true hOver)⟩

/- A handshake that comes to a good end leaves the session open. -/
theorem always_handshake
    (θ : Provider)
    (session : θ.Session) :
    (θ.handshake session).Always fun (r, after) =>
      r = .ok () → θ.isHandshaking after = false := by
  refine always_iterate (fun _ => True) trivial ?_
  intro now _
  simp only
  split
  · refine always_bind ?_
    rintro ⟨e | _, after⟩
    · exact always_done nofun
    · exact always_done trivial
  · next hOver =>
      exact always_done fun _ => eq_false_of_ne_true hOver

end Provider

end Parley.Tls
