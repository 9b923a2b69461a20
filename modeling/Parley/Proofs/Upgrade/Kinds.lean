import Parley.Surrogate
import Parley.Proofs.Engine.Results
/-
  This file says of what kinds the layers of a surrogate are,
  from the top down, and shows that no call that reads or writes
  changes them, whatever the endpoint answers. Nor does it undo
  anything else that such calls on the layers keep true. What
  sends leaves alone in addition what the layers have taken in.

  Key definitions include:
    * `Kind`
    * `Layer.kinds`
    * `Layer.intake`
    * `Link.Kept`
    * `Layer.Kept`
    * `Surrogate.Flushed`

  Key theorems include:
    * `Layer.always_read`
    * `Layer.always_write`
    * `Layer.always_flush`
    * `Link.Kept.layer`
    * `Surrogate.sends_flush`
    * `Surrogate.always_flush`
    * `Layer.Kept.always_readLine`
-/

universe u

namespace Parley

variable {κ : Codec} {θ : Tls.Provider}

------------------------------------------------------------
-- Kinds of layers
------------------------------------------------------------

/- What there can be between an endpoint and its user. -/
inductive Kind where
  | plain
  | encrypted
  | detached
  | compressed
deriving DecidableEq, Repr

/- The kind of a link. -/
def Link.kind : Link θ → Kind
  | .plain => .plain
  | .tls _ => .encrypted
  | .detached => .detached

namespace Layer

/- The kinds of everything that is there, from the top down. -/
def kinds : Layer κ θ → List Kind
  | .raw link => [link.kind]
  | .deflate d => [.compressed, d.inner.kind]

/-
  What a layer has taken from the pipe and not handed out: the
  bytes that wait for the decoder, and what the decoder itself
  has of those before them. Without compression there is none.
-/
def intake : Layer κ θ → κ.Decoder × Bytes
  | .raw _ => (κ.decoder, [])
  | .deflate d => (d.decoder, d.input)

/- Another link at the bottom does not touch it. -/
@[simp] theorem intake_withLink
    (layer : Layer κ θ)
    (link : Link θ) :
    (layer.withLink link).intake = layer.intake := by
  cases layer <;> rfl

@[simp] theorem link_withLink
    (layer : Layer κ θ)
    (link : Link θ) :
    (layer.withLink link).link = link := by
  cases layer <;> rfl

@[simp] theorem withLink_withLink
    (layer : Layer κ θ)
    (link link' : Link θ) :
    (layer.withLink link).withLink link' = layer.withLink link' := by
  cases layer <;> rfl

/- Putting the link back that was there changes nothing. -/
@[simp] theorem withLink_link
    (layer : Layer κ θ) :
    layer.withLink layer.link = layer := by
  cases layer <;> rfl

@[simp] theorem isCompressed_withLink
    (layer : Layer κ θ)
    (link : Link θ) :
    (layer.withLink link).isCompressed = layer.isCompressed := by
  cases layer <;> rfl

/- A link of the same kind leaves the kinds as they are. -/
theorem kinds_withLink
    (layer : Layer κ θ)
    {link : Link θ}
    (hKind : link.kind = layer.link.kind) :
    (layer.withLink link).kinds = layer.kinds := by
  cases layer with
  | raw other => exact congrArg (fun kind => [kind]) hKind
  | deflate d =>
      exact congrArg (fun kind => [Kind.compressed, kind]) hKind

/- The kinds say whether there is compression. -/
theorem isCompressed_eq
    (layer : Layer κ θ) :
    layer.isCompressed = decide (Kind.compressed ∈ layer.kinds) := by
  rcases layer with (_ | session | _) | ⟨_ | session | _, _⟩ <;> rfl

/- They say whether there is encryption. -/
theorem isEncrypted_eq
    (layer : Layer κ θ) :
    layer.isEncrypted = decide (Kind.encrypted ∈ layer.kinds) := by
  rcases layer with (_ | session | _) | ⟨_ | session | _, _⟩ <;> rfl

/- And they say whether the link is there. -/
theorem conn_eq_held_iff
    (layer : Layer κ θ) :
    layer.link.conn = some .held ↔ Kind.detached ∉ layer.kinds := by
  rcases layer with (_ | session | _) | ⟨_ | session | _, _⟩ <;>
    simp [link, kinds, Link.kind, Link.conn]

end Layer

------------------------------------------------------------
-- Streams
------------------------------------------------------------

section

open Routine

variable {I : Interface.{u}} {τ : Type}

/- Calls of the encoder change nothing but what it works on. -/
theorem DeflateStream.always_produce
    (d : DeflateStream κ τ)
    (flush : Flush) :
    (d.produce flush : Routine I _).Always fun after =>
      after.inner = d.inner ∧ after.decoder = d.decoder ∧
        after.input = d.input := by
  refine always_iterate
    (fun now => now.inner = d.inner ∧ now.decoder = d.decoder ∧
      now.input = d.input) ⟨rfl, rfl, rfl⟩ ?_
  intro now hNow
  rcases now.reserve_eq with ⟨capacity, hReserve, -⟩
  simp only [hReserve]
  apply always_done
  split <;> exact hNow

/- A write does no more. -/
theorem DeflateStream.always_write
    (d : DeflateStream κ τ)
    (src : Bytes) :
    (d.write src : Routine I _).Always fun (_, after) =>
      after.inner = d.inner ∧ after.decoder = d.decoder ∧
        after.input = d.input :=
  (always_produce _ _).bind fun _ hSame => always_done hSame

variable [ByteStream I τ] {holds : τ → Prop}

/- Writing everything keeps true what every write does. -/
theorem ByteStream.always_writeAll
    (hWrite : ∀ t src, holds t →
      (write t src).Always fun (_, after) => holds after)
    {t : τ}
    (hHolds : holds t)
    (src : Bytes) :
    (writeAll t src).Always fun (_, after) => holds after := by
  refine always_iterate (fun u => holds u.1) hHolds ?_
  rintro ⟨now, rest⟩ hNow
  simp only
  split
  · exact always_done hNow
  · refine (hWrite now rest hNow).bind ?_
    rintro ⟨e | _ | n, next⟩ hNext
    · exact always_done hNext
    · exact always_done hNext
    · exact always_done hNext

namespace DeflateStream

/-
  A flush leaves alone what the decoder works on, and keeps true
  of the stream below what writing and flushing that does.
-/
theorem always_flush
    (hWrite : ∀ t src, holds t →
      (ByteStream.write t src).Always fun (_, after) => holds after)
    (hFlush : ∀ t, holds t →
      (ByteStream.flush t).Always fun (_, after) => holds after)
    {d : DeflateStream κ τ}
    (hHolds : holds d.inner) :
    d.flush.Always fun (_, after) =>
      holds after.inner ∧
        after.decoder = d.decoder ∧ after.input = d.input := by
  refine (always_produce d .sync).bind ?_
  rintro mid ⟨hInner, hDecoder, hInput⟩
  have hSent : Always
      (if mid.output = [] then .done (.ok (), mid.inner)
        else ByteStream.writeAll mid.inner mid.output)
      (fun (_, after) => holds after) := by
    rw [hInner]
    split
    · exact always_done hHolds
    · exact ByteStream.always_writeAll hWrite hHolds _
  refine hSent.bind ?_
  rintro ⟨e | _, inner⟩ hBelow
  · exact always_done ⟨hBelow, hDecoder, hInput⟩
  · refine (hFlush inner hBelow).bind ?_
    rintro ⟨r, last⟩ hLast
    exact always_done ⟨hLast, hDecoder, hInput⟩

/- A read keeps true what reading the stream below does. -/
theorem always_read
    (hRead : ∀ t room, holds t →
      (ByteStream.read t room).Always fun (_, after) => holds after)
    {d : DeflateStream κ τ}
    (hHolds : holds d.inner)
    (room : Nat) :
    (d.read room).Always fun (_, after) => holds after.inner := by
  rw [DeflateStream.read]
  split
  · exact always_done hHolds
  · refine always_iterate (fun now => holds now.inner) hHolds ?_
    intro now hNow
    simp only
    split
    · exact always_done hNow
    · split
      · exact always_done hNow
      · split
        · exact always_done hNow
        · split
          · split <;> exact always_done hNow
          · refine (hRead now.inner chunkSize hNow).bind ?_
            rintro ⟨e | _ | ⟨b, more⟩, inner⟩ hInner
            · exact always_done hInner
            · exact always_done hInner
            · exact always_done hInner

end DeflateStream

end

------------------------------------------------------------
-- Links and layers
------------------------------------------------------------

section

open Routine

/- What reading, writing and flushing keep true of a link. -/
structure Link.Kept
    (holds : Link θ → Prop) : Prop where
  read :
    ∀ link room, holds link →
      (link.read room).Always fun (_, after) => holds after
  write :
    ∀ link src, holds link →
      (link.write src).Always fun (_, after) => holds after
  flush :
    ∀ link, holds link →
      link.flush.Always fun (_, after) => holds after

/- A link stays of the kind of which it is. -/
theorem Link.kept_kind
    (kind : Kind) :
    Kept fun link : Link θ => link.kind = kind where
  read := by
    rintro link room rfl
    cases link with
    | plain => exact always_bind fun _ => always_done rfl
    | tls session => exact always_bind fun _ => always_done rfl
    | detached => exact always_done rfl
  write := by
    rintro link src rfl
    cases link with
    | plain => exact always_bind fun _ => always_done rfl
    | tls session => exact always_bind fun _ => always_done rfl
    | detached => exact always_done rfl
  flush := by
    rintro link rfl
    cases link with
    | plain => exact always_done rfl
    | tls session => exact always_bind fun _ => always_done rfl
    | detached => exact always_done rfl

/- What reading, writing and flushing keep true of a layer. -/
structure Layer.Kept
    (holds : Layer κ θ → Prop) : Prop where
  read :
    ∀ layer room, holds layer →
      (layer.read room).Always fun (_, after) => holds after
  write :
    ∀ layer src, holds layer →
      (layer.write src).Always fun (_, after) => holds after
  flush :
    ∀ layer, holds layer →
      layer.flush.Always fun (_, after) => holds after

/- What is kept true of a link is so below any layer. -/
theorem Link.Kept.layer
    {holds : Link θ → Prop}
    (hKept : Link.Kept holds) :
    Layer.Kept fun layer : Layer κ θ => holds layer.link where
  read := by
    rintro (link | d) room hHolds
    · exact (hKept.read link room hHolds).bind
        fun _ hAfter => always_done hAfter
    · exact (DeflateStream.always_read hKept.read hHolds room).bind
        fun _ hAfter => always_done hAfter
  write := by
    rintro (link | d) src hHolds
    · exact (hKept.write link src hHolds).bind
        fun _ hAfter => always_done hAfter
    · refine (d.always_write src).bind ?_
      rintro ⟨r, after⟩ ⟨hInner, -⟩
      have hAfter : holds after.inner := by
        rw [hInner]
        exact hHolds
      exact always_done hAfter
  flush := by
    rintro (link | d) hHolds
    · exact (hKept.flush link hHolds).bind
        fun _ hAfter => always_done hAfter
    · exact (DeflateStream.always_flush hKept.write hKept.flush
        hHolds).bind fun _ hAfter => always_done hAfter.1

namespace Layer

/- What there is of a layer apart from what it has to send. -/
def standing
    (layer : Layer κ θ) : List Kind × κ.Decoder × Bytes :=
  (layer.kinds, layer.intake)

theorem standing_deflate
    {d after : DeflateStream κ (Link θ)}
    (hKind : after.inner.kind = d.inner.kind)
    (hDecoder : after.decoder = d.decoder)
    (hInput : after.input = d.input) :
    (deflate after).standing = (deflate d).standing := by
  simp only [standing, kinds, intake, hKind, hDecoder, hInput]

theorem standing_raw
    {link after : Link θ}
    (hKind : after.kind = link.kind) :
    (raw after : Layer κ θ).standing = (raw link).standing := by
  simp only [standing, kinds, intake, hKind]

/- Reading through a layer leaves the kinds as they are. -/
theorem always_read
    (layer : Layer κ θ)
    (room : Nat) :
    (layer.read room).Always fun (_, after) =>
      after.kinds = layer.kinds := by
  cases layer with
  | raw link =>
      refine ((Link.kept_kind _).read link room rfl).bind ?_
      rintro ⟨r, after⟩ hKind
      exact always_done (congrArg (fun kind => [kind]) hKind)
  | deflate d =>
      refine (DeflateStream.always_read (d := d)
        (Link.kept_kind _).read rfl room).bind ?_
      rintro ⟨r, after⟩ hKind
      exact always_done
        (congrArg (fun kind => [Kind.compressed, kind]) hKind)

/- So does writing, which takes nothing in either. -/
theorem always_write
    (layer : Layer κ θ)
    (src : Bytes) :
    (layer.write src).Always fun (_, after) =>
      after.standing = layer.standing := by
  cases layer with
  | raw link =>
      refine ((Link.kept_kind _).write link src rfl).bind ?_
      rintro ⟨r, after⟩ hKind
      exact always_done (standing_raw hKind)
  | deflate d =>
      refine (d.always_write src).bind ?_
      rintro ⟨r, after⟩ ⟨hInner, hDecoder, hInput⟩
      exact always_done
        (standing_deflate (congrArg Link.kind hInner) hDecoder hInput)

/- So does a flush. -/
theorem always_flush
    (layer : Layer κ θ) :
    layer.flush.Always fun (_, after) =>
      after.standing = layer.standing := by
  cases layer with
  | raw link =>
      refine ((Link.kept_kind _).flush link rfl).bind ?_
      rintro ⟨r, after⟩ hKind
      exact always_done (standing_raw hKind)
  | deflate d =>
      refine (DeflateStream.always_flush (d := d)
        (Link.kept_kind _).write (Link.kept_kind _).flush rfl).bind ?_
      rintro ⟨r, after⟩ ⟨hKind, hDecoder, hInput⟩
      exact always_done (standing_deflate hKind hDecoder hInput)

end Layer

end

------------------------------------------------------------
-- The calls of a surrogate
------------------------------------------------------------

namespace Surrogate

open Routine

variable {s : Surrogate κ θ}

/- The same layers, as far as their kinds go, and as open. -/
structure Stays
    (s after : Surrogate κ θ) : Prop where
  kinds : after.layer.kinds = s.layer.kinds
  closed : after.closed = s.closed

/-
  What a flush makes of a surrogate: of its layers only what
  they have to send is touched, and what is unread stays.
-/
structure Flushed
    (s after : Surrogate κ θ) : Prop where
  standing : after.layer.standing = s.layer.standing
  unread : after.unread = s.unread
  closed : after.closed = s.closed

namespace Flushed

variable {mid after : Surrogate κ θ}

theorem kinds
    (hFlushed : s.Flushed after) :
    after.layer.kinds = s.layer.kinds :=
  congrArg Prod.fst hFlushed.standing

theorem intake
    (hFlushed : s.Flushed after) :
    after.layer.intake = s.layer.intake :=
  congrArg Prod.snd hFlushed.standing

theorem stays
    (hFlushed : s.Flushed after) :
    s.Stays after :=
  ⟨hFlushed.kinds, hFlushed.closed⟩

theorem trans
    (hFirst : s.Flushed mid)
    (hSecond : mid.Flushed after) :
    s.Flushed after :=
  ⟨hSecond.standing.trans hFirst.standing,
    hSecond.unread.trans hFirst.unread,
    hSecond.closed.trans hFirst.closed⟩

end Flushed

/-
  How sending ends that keeps something true of the layers: what
  is unread stays, and if it fails, the layers are what has
  failed.
-/
def Sends
    (holds : Layer κ θ → Prop)
    (s : Surrogate κ θ) :
    Except SurrogateError Unit × Surrogate κ θ → Prop
  | (r, after) =>
    (∀ e, r = .error e → ∃ cause, e = .io cause) ∧
      holds after.layer ∧
      after.unread = s.unread ∧
      after.closed = s.closed

theorem always_onLayer
    {holds : Layer κ θ → Prop}
    {p : Routine endpointInterface (Except IoError Unit × Layer κ θ)}
    (hLayer : p.Always fun (_, after) => holds after) :
    (s.onLayer p).Always (Sends holds s) := by
  refine hLayer.bind ?_
  rintro ⟨r, layer⟩ hHolds
  refine always_done ⟨?_, hHolds, rfl, rfl⟩
  intro e hError
  cases r with
  | ok => cases hError
  | error cause =>
      cases hError
      exact ⟨cause, rfl⟩

/- What is written waits in the surrogate itself. -/
theorem always_write
    (s : Surrogate κ θ)
    (src : Bytes) :
    (s.write src).Always fun (_, after) =>
      after.layer = s.layer ∧ after.closed = s.closed := by
  rw [Surrogate.write]
  split <;> exact always_done ⟨rfl, rfl⟩

/- So does a line. -/
theorem always_writeLine
    (s : Surrogate κ θ)
    (line : Bytes) :
    (s.writeLine line).Always fun (_, after) =>
      after.layer = s.layer ∧ after.closed = s.closed := by
  rw [Surrogate.writeLine]
  split <;> exact always_done ⟨rfl, rfl⟩

/-
  A flush of an open surrogate sends, and keeps true what writing
  to the layers and flushing them does.
-/
theorem sends_flush
    {holds : Layer κ θ → Prop}
    (hWrite : ∀ layer src, holds layer →
      (ByteStream.write layer src).Always fun (_, after) =>
        holds after)
    (hFlush : ∀ layer, holds layer →
      (ByteStream.flush layer).Always fun (_, after) => holds after)
    (hOpen : s.closed = false)
    (hHolds : holds s.layer) :
    s.flush.Always (Sends holds s) := by
  rw [Surrogate.flush, if_neg (ne_true_of_eq_false hOpen)]
  have hHanded : Always
      (if s.unsent = [] then
          .done (.ok (), { s with unsent := [] })
        else
          onLayer { s with unsent := [] }
            (ByteStream.writeAll s.layer s.unsent))
      (Sends holds s) := by
    split
    · exact always_done
        ⟨fun _ hError => (by cases hError), hHolds, rfl, rfl⟩
    · exact always_onLayer (s := { s with unsent := [] })
        (ByteStream.always_writeAll hWrite hHolds s.unsent)
  refine hHanded.bind ?_
  rintro ⟨e | _, mid⟩ ⟨hCause, hMid, hUnread, hClosed⟩
  · exact always_done ⟨hCause, hMid, hUnread, hClosed⟩
  · refine (always_onLayer (hFlush mid.layer hMid)).mono ?_
    rintro ⟨r, after⟩ ⟨hCause, hAfter, hSame, hStill⟩
    exact ⟨hCause, hAfter, hSame.trans hUnread,
      hStill.trans hClosed⟩

/- It leaves alone of its layers what they do not have to send. -/
theorem always_flush
    (hOpen : s.closed = false) :
    s.flush.Always fun (r, after) =>
      (∀ e, r = .error e → ∃ cause, e = .io cause) ∧
        s.Flushed after := by
  have hSends : s.flush.Always
      (Sends (fun layer => layer.standing = s.layer.standing) s) := by
    refine sends_flush ?_ ?_ hOpen rfl
    · intro layer src hSame
      exact (layer.always_write src).mono
        fun _ hStanding => hStanding.trans hSame
    · intro layer hSame
      exact layer.always_flush.mono
        fun _ hStanding => hStanding.trans hSame
  refine hSends.mono ?_
  rintro ⟨r, after⟩ ⟨hCause, hStanding, hUnread, hClosed⟩
  exact ⟨hCause, hStanding, hUnread, hClosed⟩

end Surrogate

namespace Layer

open Routine

/- Layers stay of the kinds of which they are. -/
theorem kept_kinds
    (kinds : List Kind) :
    Kept fun layer : Layer κ θ => layer.kinds = kinds where
  read := by
    rintro layer room rfl
    exact layer.always_read room
  write := by
    rintro layer src rfl
    exact (layer.always_write src).mono
      fun _ hStanding => congrArg Prod.fst hStanding
  flush := by
    rintro layer rfl
    exact layer.always_flush.mono
      fun _ hStanding => congrArg Prod.fst hStanding

namespace Kept

variable {holds : Layer κ θ → Prop} {s : Surrogate κ θ}

/- A flush keeps true what the calls on the layers do. -/
theorem always_flush
    (hKept : Kept holds)
    (hHolds : holds s.layer) :
    s.flush.Always fun (_, after) =>
      holds after.layer ∧ after.closed = s.closed := by
  cases hClosed : s.closed with
  | true =>
      rw [Surrogate.flush, if_pos hClosed, ← hClosed]
      exact always_done ⟨hHolds, rfl⟩
  | false =>
      refine (Surrogate.sends_flush hKept.write hKept.flush hClosed
        hHolds).mono ?_
      rintro ⟨r, after⟩ ⟨-, hAfter, -, hStill⟩
      exact ⟨hAfter, hStill.trans hClosed⟩

/- Reading is done by the layers, if nothing was taken in. -/
theorem always_read
    (hKept : Kept holds)
    (hHolds : holds s.layer)
    (room : Nat) :
    (s.read room).Always fun (_, after) =>
      holds after.layer ∧ after.closed = s.closed := by
  rw [Surrogate.read]
  split
  · exact always_done ⟨hHolds, rfl⟩
  · split
    · exact (hKept.read s.layer room hHolds).bind
        fun _ hAfter => always_done ⟨hAfter, rfl⟩
    · exact always_done ⟨hHolds, rfl⟩

/- So is reading a line, round by round. -/
theorem always_readLine
    (hKept : Kept holds)
    (hHolds : holds s.layer) :
    s.readLine.Always fun (_, after) =>
      holds after.layer ∧ after.closed = s.closed := by
  rw [Surrogate.readLine]
  split
  · exact always_done ⟨hHolds, rfl⟩
  · refine always_iterate
      (fun u => holds u.1.layer ∧ u.1.closed = s.closed)
      ⟨hHolds, rfl⟩ ?_
    rintro ⟨now, scanned⟩ ⟨hNow, hSame⟩
    simp only [Surrogate.lineRound]
    split
    · exact always_done ⟨hNow, hSame⟩
    · refine (hKept.read now.layer Surrogate.chunkSize hNow).bind ?_
      rintro ⟨e | _ | ⟨b, more⟩, layer⟩ hLayer
      · exact always_done ⟨hLayer, hSame⟩
      · exact always_done ⟨hLayer, hSame⟩
      · exact always_done ⟨hLayer, hSame⟩

end Kept

end Layer

end Parley
