import Parley.Deflate.Codec
import Parley.Proofs.Upgrade.Refusal
import Parley.Proofs.Upgrade.Sessions
import Parley.Proofs.Upgrade.Stack
/-
  This file says when a surrogate has nothing left to send, in
  any of its layers, and nothing unread. A flush that comes to a
  good end leaves an open surrogate so, whatever was done with
  it before; another flush right behind it then does nothing at
  all, unless there is compression.

  Key definitions include:
    * `Codec.Advances`
    * `Link.IsOpen`
    * `Link.IsSent`
    * `Layer.IsSent`
    * `Surrogate.Settled`
    * `Step.IsStandard`

  Key theorems include:
    * `Link.flush_of_isSent`
    * `Surrogate.flush_of_settled`
    * `Link.concludes_flush`
    * `Layer.concludes_flush`
    * `Surrogate.Leads.isOpen`
    * `Upgrade.concludes_flush_settled`
-/

namespace Parley

variable {κ : Codec} {θ : Tls.Provider}

------------------------------------------------------------
-- Nothing left to send
------------------------------------------------------------

namespace Link

/- A link that can be used; a session must be open for that. -/
def IsOpen : Link θ → Prop
  | .plain => True
  | .tls session => θ.isHandshaking session = false
  | .detached => False

/- One that can be used and has nothing to send. -/
def IsSent : Link θ → Prop
  | .plain => True
  | .tls session => θ.IsIdle session
  | .detached => False

/- A flush of such a link does nothing. -/
theorem flush_of_isSent
    (hLawful : θ.Lawful)
    {link : Link θ}
    (hSent : link.IsSent) :
    link.flush = .done (.ok (), link) := by
  cases link with
  | plain => rfl
  | tls session =>
      rw [Link.flush, hLawful.silent session hSent]
      rfl
  | detached => cases hSent

end Link

/- Everything that was handed to a layer has been sent. -/
def Layer.IsSent : Layer κ θ → Prop
  | .raw link => link.IsSent
  | .deflate d =>
    d.encoder.waiting = [] ∧ d.output = [] ∧ d.inner.IsSent

namespace Surrogate

/-
  An open surrogate that has nothing unread, and has sent all
  that was written to it.
-/
structure Settled
    (s : Surrogate κ θ) : Prop where
  isOpen : s.closed = false
  read : s.unread = []
  written : s.unsent = []
  sent : s.layer.IsSent

variable {s : Surrogate κ θ}

/- A settled surrogate has nothing to flush, without compression. -/
theorem flush_of_settled
    (hLawful : θ.Lawful)
    (hSettled : s.Settled)
    (hRaw : s.isCompressed = false) :
    s.flush = .done (.ok (), s) := by
  rcases s with ⟨layer, terminator, unread, unsent, closed⟩
  rcases hSettled with ⟨hOpen, -, hWritten, hSent⟩
  simp only at hOpen hWritten hSent
  subst hOpen hWritten
  cases layer with
  | deflate d => cases hRaw
  | raw link =>
      change Routine.bind (Routine.bind link.flush _) _ = _
      rw [Link.flush_of_isSent hLawful hSent]
      rfl

end Surrogate

------------------------------------------------------------
-- Links and layers that are flushed
------------------------------------------------------------

open Routine Outflow

/- An open link stays open, whatever it is used for. -/
theorem Link.kept_isOpen
    (hLawful : θ.Lawful) :
    Link.Kept (IsOpen (θ := θ)) where
  read := by
    rintro (_ | session | _) room hOpen
    · exact always_bind fun _ => always_done trivial
    · exact (hLawful.read session room hOpen).bind
        fun _ hAfter => always_done hAfter
    · cases hOpen
  write := by
    rintro (_ | session | _) src hOpen
    · exact always_bind fun _ => always_done trivial
    · exact (hLawful.write session src hOpen).bind
        fun _ hAfter => always_done hAfter
    · cases hOpen
  flush := by
    rintro (_ | session | _) hOpen
    · exact always_done trivial
    · exact (hLawful.flush session hOpen).bind
        fun _ hAfter => always_done hAfter
    · cases hOpen

/- A flush of it that comes to a good end has sent everything. -/
theorem Link.concludes_flush
    (hLawful : θ.Lawful)
    {link : Link θ}
    (hOpen : link.IsOpen) :
    Concludes link.flush
      (fun (r, after) => r = .ok () → after.IsSent) := by
  cases link with
  | plain => exact fun _ _ => trivial
  | tls session =>
      have hFlush : Concludes (θ.flush session) fun ended =>
          (ended.1 = .ok () → θ.wantsWrite ended.2 = false) ∧
            θ.isHandshaking ended.2 = false :=
        fun gave => (hLawful.sends session hOpen gave).and_always
          (hLawful.flush session hOpen)
      apply hFlush.bind
      rintro ⟨r, after⟩ ⟨hSent, hStill⟩ gave hOk
      exact ⟨hStill, hSent hOk⟩
  | detached => cases hOpen

/-
  A compressor that can always do something while there are
  bytes to take in and there is room.
-/
def Codec.Advances
    (κ : Codec) : Prop :=
  ∀ (c : κ.Compressor) (src : Bytes) (flush : Flush) (room : Nat),
    0 < room → src ≠ [] →
      (κ.compress c src flush room).stuck = false

theorem advances_rawDeflate :
    rawDeflate.Advances := by
  intro e src flush room hRoom _
  have hSome : room ≠ 0 := Nat.ne_of_gt hRoom
  simp only [rawDeflate, Deflate.Deflater.compress, if_neg hSome]

/- An encoder that is asked for what it has takes everything in. -/
theorem DeflateStream.concludes_produce
    {τ : Type}
    (hAdvances : κ.Advances)
    (d : DeflateStream κ τ)
    (flush : Flush) :
    Concludes (d.produce flush)
      (fun d' => d'.encoder.waiting = [] ∧ d'.inner = d.inner) := by
  refine concludes_iterate (fun d' => d'.inner = d.inner) rfl ?_
  intro e hInner gave
  rcases e.reserve_eq with ⟨capacity, hReserve, hSpace⟩
  simp only [hReserve]
  have hRoom : 0 < capacity - e.output.length :=
    Nat.lt_of_lt_of_le (by decide) hSpace
  generalize capacity - e.output.length = room at hRoom
  split
  · next hOver =>
      refine ⟨?_, hInner⟩
      rcases hOver with ⟨hTaken, -⟩ | hStuck
      · exact hTaken
      · have hNone : e.encoder.waiting = [] := by
          by_contra hSome
          have hGoesOn :=
            hAdvances e.encoder.compressor _ flush room hRoom hSome
          rw [Codec.call, hGoesOn] at hStuck
          cases hStuck
        simp only [Codec.call, hNone, List.drop_nil]
  · exact hInner

/- A flush of a layer that comes to a good end has, too. -/
theorem Layer.concludes_flush
    (hLawful : θ.Lawful)
    (hAdvances : κ.Advances)
    {layer : Layer κ θ}
    (hOpen : layer.link.IsOpen) :
    Concludes layer.flush
      (fun (r, after) => r = .ok () → after.IsSent) := by
  cases layer with
  | raw link =>
      apply (Link.concludes_flush hLawful hOpen).bind
      exact fun _ hSent _ => hSent
  | deflate d =>
      change Concludes (Routine.bind (DeflateStream.flush d) _) _
      rw [DeflateStream.flush, Routine.bind_assoc]
      apply (DeflateStream.concludes_produce hAdvances d .sync).bind
      rintro d' ⟨hTaken, hInner⟩
      have hSent : Concludes
          (if d'.output = [] then .done (.ok (), d'.inner)
            else ByteStream.writeAll d'.inner d'.output)
          (fun (_, link) => link.IsOpen) := by
        rw [hInner]
        split
        · exact fun _ => hOpen
        · exact concludes_of_always (ByteStream.always_writeAll
            (Link.kept_isOpen hLawful).write hOpen d'.output)
      rw [Routine.bind_assoc]
      apply hSent.bind
      rintro ⟨e | _, link⟩ hStill
      · exact fun _ hOk => by cases hOk
      · change Concludes
          (Routine.bind (Routine.bind link.flush _) _) _
        rw [Routine.bind_assoc]
        apply (Link.concludes_flush hLawful hStill).bind
        rintro ⟨r, last⟩ hLast gave hOk
        exact ⟨hTaken, rfl, hLast hOk⟩

------------------------------------------------------------
-- Surrogates in use
------------------------------------------------------------

/- An upgrade is a change of the layers. -/
def Upgrade.change : Upgrade → Change θ
  | .deflate level => .deflate level
  | .tls => .tls (.ok θ.server) θ.handshake

/- Calls with no sessions and handshakes of one's own. -/
def Step.IsStandard : Step θ → Prop
  | .change c => ∃ upgrade : Upgrade, c = upgrade.change
  | _ => True

namespace Surrogate

variable {s s' : Surrogate κ θ}
variable {step : Step θ} {steps : List (Step θ)}
variable {r : Except SurrogateError Unit}

theorem change_upgrade
    (s : Surrogate κ θ)
    (upgrade : Upgrade) :
    s.change upgrade.change = s.upgrade upgrade := by
  cases upgrade <;> rfl

/- A close leaves a surrogate closed, whatever it is answered. -/
theorem closed_of_close
    {flushes : Bool}
    (hGives : (s.close flushes).Gives (r, s')) :
    s'.closed = true := by
  rw [close] at hGives
  split at hGives
  · next hClosed =>
      cases hGives
      exact hClosed
  · rcases gives_bind hGives with ⟨⟨r', sent⟩, -, hShut⟩
    rcases gives_bind hShut with ⟨_, -, hEnd⟩
    cases hEnd
    rfl

/- Layers that are upgraded have an open link below. -/
theorem isOpen_of_upgrade
    {upgrade : Upgrade}
    {layer after : Layer κ θ}
    (hMakes : upgrade.change.Makes layer after)
    (hOpen : layer.link.IsOpen) :
    after.link.IsOpen := by
  cases upgrade with
  | deflate level =>
      cases hMakes
      exact hOpen
  | tls =>
      rcases hMakes with ⟨session, opened, -, hHandshake, rfl⟩
      rw [Layer.link_withLink]
      exact θ.always_handshake session _ hHandshake rfl

/- An upgrade leaves the link open, whether or not it is made. -/
theorem isOpen_of_change
    (hLawful : θ.Lawful)
    {upgrade : Upgrade}
    (hConn : s.conn = some .held)
    (hOpen : s.layer.link.IsOpen)
    (hGives : (s.change upgrade.change).Gives (r, s')) :
    s'.layer.link.IsOpen := by
  have hFlush := (Link.kept_isOpen hLawful).layer.always_flush hOpen
  cases hRefusal : s.refusal upgrade.change with
  | some e =>
      rw [change_of_refusal hRefusal] at hGives
      cases hGives
      exact hOpen
  | none =>
      rcases gives_change hConn hRefusal hGives with
        ⟨e, -, -, hFailed | ⟨hSent, -⟩⟩ |
        ⟨-, sent, layer, hSent, -, hMakes, rfl⟩
      · exact (hFlush _ hFailed).1
      · exact (hFlush _ hSent).1
      · exact isOpen_of_upgrade hMakes (hFlush _ hSent).1

/- So does every standard call, unless it closes. -/
theorem isOpen_of_gives
    (hLawful : θ.Lawful)
    (hConn : s.conn = some .held)
    (hStandard : step.IsStandard)
    (hGives : (step.carryOut s).Gives (r, s'))
    (hOpen : s.closed = false → s.layer.link.IsOpen)
    (hStill : s'.closed = false) :
    s'.layer.link.IsOpen := by
  have hBefore : s.closed = false := by
    by_contra hClosed
    rw [Bool.not_eq_false] at hClosed
    rw [(grows_of_gives hConn hGives).closed hClosed] at hStill
    cases hStill
  rcases step.isPlain_or with hPlain | ⟨c, rfl⟩ | ⟨flushes, rfl⟩
  · exact (Step.always_carryOut hPlain
      (Link.kept_isOpen hLawful).layer (hOpen hBefore) _ hGives).1
  · rcases hStandard with ⟨upgrade, rfl⟩
    exact isOpen_of_change hLawful hConn (hOpen hBefore) hGives
  · rw [closed_of_close hGives] at hStill
    cases hStill

/- So do standard calls in a row. -/
theorem Leads.isOpen
    (hLawful : θ.Lawful)
    (hLeads : s.Leads steps s')
    (hConn : s.conn = some .held)
    (hStandard : ∀ step ∈ steps, step.IsStandard)
    (hOpen : s.closed = false → s.layer.link.IsOpen) :
    s'.closed = false → s'.layer.link.IsOpen := by
  induction hLeads with
  | nil s => exact hOpen
  | cons hHere _ ih =>
      rw [List.forall_mem_cons] at hStandard
      exact ih (grows_of_gives hConn hHere).conn hStandard.2
        (isOpen_of_gives hLawful hConn hStandard.1 hHere hOpen)

end Surrogate

------------------------------------------------------------
-- Flushing settles
------------------------------------------------------------

namespace Upgrade

variable {s : Surrogate κ θ}

/-
  A surrogate with nothing unread is settled as soon as a flush
  of it has come to a good end.
-/
theorem concludes_flush_settled
    (hLawful : θ.Lawful)
    (hAdvances : κ.Advances)
    (hOpen : s.closed = false)
    (hRead : s.unread = [])
    (hLink : s.layer.link.IsOpen) :
    Concludes s.flush
      (fun (r, after) => r = .ok () → after.Settled) := by
  rw [Surrogate.flush, if_neg (ne_true_of_eq_false hOpen)]
  have hHanded : Concludes
      (if s.unsent = [] then
          .done (.ok (), { s with unsent := [] })
        else
          Surrogate.onLayer { s with unsent := [] }
            (ByteStream.writeAll s.layer s.unsent))
      (fun handed =>
        handed.2.closed = false ∧ handed.2.unread = [] ∧
          handed.2.unsent = [] ∧ handed.2.layer.link.IsOpen) := by
    split
    · exact fun _ => ⟨hOpen, hRead, rfl, hLink⟩
    · have hWritten := ByteStream.always_writeAll
        (Link.kept_isOpen hLawful).layer.write hLink s.unsent
      apply (concludes_of_always hWritten).bind
      rintro ⟨r, layer⟩ hStill gave
      exact ⟨hOpen, hRead, rfl, hStill⟩
  apply hHanded.bind
  rintro ⟨e | _, after⟩ ⟨hOpen, hRead, hWritten, hLink⟩
  · exact fun _ hOk => by cases hOk
  · apply (Layer.concludes_flush hLawful hAdvances hLink).bind
    rintro ⟨e | _, layer⟩ hSent gave hOk
    · cases hOk
    · exact ⟨hOpen, hRead, hWritten, hSent rfl⟩

end Upgrade

end Parley
