import Parley.Conversation.Surrogate
import Parley.Proofs.Outflow.Offering
import Parley.Proofs.Upgrade.Stack
/-
  This file shows that reading from a surrogate on a plain link
  has nothing to do with what it is to send: a read puts nothing
  on the pipe, and leaves everything where it is that was
  written and has not gone out. It also shows that no step of a
  conversation takes back that a surrogate compresses, encrypts
  or is closed.

  Key definitions include:
    * `Layer.outgoing`
    * `Surrogate.Hears`

  Key theorems include:
    * `DeflateStream.offers_read`
    * `Surrogate.offers_readLine`
    * `Surrogate.offers_readExact`
    * `Surrogate.always_take`
-/

namespace Parley

variable {κ : Codec} {θ : Tls.Provider}

------------------------------------------------------------
-- Layers
------------------------------------------------------------

/-
  What a layer is to send: the link that it goes to and, with
  compression, what the encoder has and what it gave.
-/
def Layer.outgoing : Layer κ θ → Link θ × Option (κ.Encoder × Bytes)
  | .raw link => (link, none)
  | .deflate d => (d.inner, some (d.encoder, d.output))

section

open Outflow

variable {always : Bytes → Prop} {gave : Bytes}

/- A read of a plain link gives nothing and leaves it plain. -/
theorem Link.offers_read_plain
    (room : Nat) :
    Offers always ((Link.plain (θ := θ)).read room)
      (fun (_, link) out => link = .plain ∧ out = gave) gave := by
  rw [Link.read, offers_bind]
  apply (Outflow.offers_read room).mono
  rintro r out rfl
  exact ⟨rfl, rfl⟩

/- A read of a compressed stream on top of it does not either. -/
theorem DeflateStream.offers_read
    {d : DeflateStream κ (Link θ)}
    (hPlain : d.inner = .plain)
    (room : Nat) :
    Offers always (d.read room)
      (fun (_, after) out =>
        (Layer.deflate after).outgoing =
            (Layer.deflate d).outgoing ∧
          out = gave)
      gave := by
  rw [DeflateStream.read]
  split
  · exact ⟨rfl, rfl⟩
  · refine ⟨fun now out =>
      (Layer.deflate now).outgoing = (Layer.deflate d).outgoing ∧
        out = gave,
      ⟨rfl, rfl⟩, ?_⟩
    rintro now out ⟨hSame, rfl⟩
    have hInner : now.inner = .plain := by
      rw [← hPlain]
      exact congrArg Prod.fst hSame
    simp only
    split
    · exact ⟨hSame, rfl⟩
    · split
      · exact ⟨hSame, rfl⟩
      · split
        · exact ⟨hSame, rfl⟩
        · split
          · split <;> exact ⟨hSame, rfl⟩
          · rw [offers_bind, hInner]
            apply (Link.offers_read_plain chunkSize).mono
            rw [Layer.outgoing, hInner] at hSame
            rintro ⟨e | _ | ⟨b, more⟩, link⟩ out ⟨rfl, rfl⟩
            · exact ⟨hSame, rfl⟩
            · exact ⟨hSame, rfl⟩
            · exact ⟨hSame, rfl⟩

/- Nor does a read of any layer there. -/
theorem Layer.offers_read
    {layer : Layer κ θ}
    (hPlain : layer.link = .plain)
    (room : Nat) :
    Offers always (layer.read room)
      (fun (_, after) out =>
        after.outgoing = layer.outgoing ∧ out = gave)
      gave := by
  cases layer with
  | raw link =>
      obtain rfl : link = .plain := hPlain
      rw [Layer.read, offers_bind]
      apply (Link.offers_read_plain room).mono
      rintro ⟨r, link⟩ out ⟨rfl, rfl⟩
      exact ⟨rfl, rfl⟩
  | deflate d =>
      rw [Layer.read, offers_bind]
      exact DeflateStream.offers_read hPlain room

end

------------------------------------------------------------
-- Surrogates
------------------------------------------------------------

namespace Surrogate

open Outflow Routine

/-
  What reading makes of a surrogate: it is as open, and what it
  is to send is as it was.
-/
structure Hears
    (s after : Surrogate κ θ) : Prop where
  closed : after.closed = s.closed
  terminator : after.terminator = s.terminator
  unsent : after.unsent = s.unsent
  outgoing : after.layer.outgoing = s.layer.outgoing

variable {s mid after : Surrogate κ θ}

theorem Hears.refl
    (s : Surrogate κ θ) :
    s.Hears s :=
  ⟨rfl, rfl, rfl, rfl⟩

theorem Hears.trans
    (hFirst : s.Hears mid)
    (hSecond : mid.Hears after) :
    s.Hears after :=
  ⟨hSecond.closed.trans hFirst.closed,
    hSecond.terminator.trans hFirst.terminator,
    hSecond.unsent.trans hFirst.unsent,
    hSecond.outgoing.trans hFirst.outgoing⟩

/- The link under it is the same one. -/
theorem Hears.link
    (hHears : s.Hears after) :
    after.layer.link = s.layer.link := by
  have hLink : ∀ layer : Layer κ θ,
      layer.link = layer.outgoing.1 := by
    intro layer
    cases layer <;> rfl
  rw [hLink, hLink, hHears.outgoing]

section

variable {always : Bytes → Prop} {gave : Bytes}

/- A read puts nothing on the pipe. -/
theorem offers_read
    (hPlain : s.layer.link = .plain)
    (room : Nat) :
    Offers always (s.read room)
      (fun (_, after) out => s.Hears after ∧ out = gave)
      gave := by
  rw [Surrogate.read]
  split
  · exact ⟨.refl s, rfl⟩
  · split
    · rw [offers_bind]
      apply (Layer.offers_read hPlain room).mono
      rintro ⟨r, layer⟩ out ⟨hSame, rfl⟩
      exact ⟨⟨rfl, rfl, rfl, hSame⟩, rfl⟩
    · exact ⟨⟨rfl, rfl, rfl, rfl⟩, rfl⟩

/- Nor do the reads that it takes to read a line. -/
theorem offers_readLine
    (hPlain : s.layer.link = .plain) :
    Offers always s.readLine
      (fun (_, after) out => s.Hears after ∧ out = gave)
      gave := by
  rw [Surrogate.readLine]
  split
  · exact ⟨.refl s, rfl⟩
  · refine ⟨fun now out => s.Hears now.1 ∧ out = gave,
      ⟨.refl s, rfl⟩, ?_⟩
    rintro ⟨now, scanned⟩ out ⟨hNow, rfl⟩
    simp only [lineRound]
    split
    · exact ⟨hNow.trans ⟨rfl, rfl, rfl, rfl⟩, rfl⟩
    · rw [offers_bind]
      apply (Layer.offers_read (hNow.link.trans hPlain)
        chunkSize).mono
      rintro ⟨e | _ | ⟨b, more⟩, layer⟩ out ⟨hSame, rfl⟩
      · exact ⟨hNow.trans ⟨rfl, rfl, rfl, hSame⟩, rfl⟩
      · exact ⟨hNow.trans ⟨rfl, rfl, rfl, hSame⟩, rfl⟩
      · exact ⟨hNow.trans ⟨rfl, rfl, rfl, hSame⟩, rfl⟩

/- Nor those that it takes to read so many bytes. -/
theorem offers_readExact
    (hPlain : s.layer.link = .plain)
    (n : Nat) :
    Offers always (ByteStream.readExact s n)
      (fun (_, after) out => s.Hears after ∧ out = gave)
      gave := by
  refine ⟨fun now out => s.Hears now.1 ∧ out = gave,
    ⟨.refl s, rfl⟩, ?_⟩
  rintro ⟨now, missing, got⟩ out ⟨hNow, rfl⟩
  simp only
  split
  · exact ⟨hNow, rfl⟩
  · rw [offers_bind]
    apply (offers_read (hNow.link.trans hPlain) missing).mono
    rintro ⟨e | _ | ⟨b, more⟩, next⟩ out ⟨hNext, rfl⟩
    · exact ⟨hNow.trans hNext, rfl⟩
    · exact ⟨hNow.trans hNext, rfl⟩
    · exact ⟨hNow.trans hNext, rfl⟩

end

------------------------------------------------------------
-- Steps take nothing back
------------------------------------------------------------

/- Reading so many bytes leaves the kinds of the layers alone. -/
theorem always_readExact
    (s : Surrogate κ θ)
    (n : Nat) :
    (ByteStream.readExact s n).Always fun (_, after) =>
      after.layer.kinds = s.layer.kinds ∧
        after.closed = s.closed := by
  refine always_iterate
    (fun now => now.1.layer.kinds = s.layer.kinds ∧
      now.1.closed = s.closed) ⟨rfl, rfl⟩ ?_
  rintro ⟨now, missing, got⟩ ⟨hKinds, hClosed⟩
  simp only
  split
  · exact always_done ⟨hKinds, hClosed⟩
  · refine ((Layer.kept_kinds s.layer.kinds).always_read
      hKinds missing).bind ?_
    rintro ⟨r, next⟩ ⟨hNext, hSame⟩
    have hBoth : next.layer.kinds = s.layer.kinds ∧
        next.closed = s.closed :=
      ⟨hNext, hSame.trans hClosed⟩
    rcases r with e | _ | ⟨b, more⟩
    · exact always_done hBoth
    · exact always_done hBoth
    · exact always_done hBoth

/- What a call on a surrogate keeps is kept by a step of it. -/
theorem always_reply
    {α : Type}
    {reply : α → Reply}
    {p : Routine endpointInterface (α × Surrogate κ θ)}
    (hGrows : p.Always fun (_, after) => s.Grows after) :
    (p.bind fun (a, after) =>
      (.done (reply a, after) :
        Routine endpointInterface (Reply × Surrogate κ θ))).Always
      fun (_, after) => s.Grows after :=
  hGrows.bind fun _ hAfter => always_done hAfter

/- No step takes anything back. -/
theorem always_take
    (hConn : s.conn = some .held)
    (step : SurrogateStep) :
    (s.take step).Always fun (_, after) => s.Grows after := by
  have hStays : ∀ {α : Type}
      {p : Routine endpointInterface (α × Surrogate κ θ)},
      (p.Always fun (_, after) =>
        after.layer.kinds = s.layer.kinds ∧
          after.closed = s.closed) →
      p.Always fun (_, after) => s.Grows after :=
    fun hStays => hStays.mono fun _ hAfter =>
      Stays.grows hConn ⟨hAfter.1, hAfter.2⟩
  have hLayer : ∀ {α : Type}
      {p : Routine endpointInterface (α × Surrogate κ θ)},
      (p.Always fun (_, after) =>
        after.layer = s.layer ∧ after.closed = s.closed) →
      p.Always fun (_, after) =>
        after.layer.kinds = s.layer.kinds ∧
          after.closed = s.closed :=
    fun hLayer => hLayer.mono fun _ hAfter =>
      ⟨congrArg Layer.kinds hAfter.1, hAfter.2⟩
  have hKept := Layer.kept_kinds (κ := κ) (θ := θ) s.layer.kinds
  cases step with
  | readLine =>
      exact always_reply (hStays (hKept.always_readLine rfl))
  | writeLine line =>
      exact always_reply (hStays (hLayer (s.always_writeLine line)))
  | flush => exact always_reply (hStays (hKept.always_flush rfl))
  | deflate level =>
      exact always_reply fun _ hGives =>
        grows_of_change (c := .deflate level) hConn hGives
  | tls =>
      exact always_reply fun _ hGives =>
        grows_of_change (c := .tls _ _) hConn hGives
  | close first =>
      exact always_reply fun _ hGives => grows_of_close hConn hGives
  | ioFlush =>
      refine always_reply (hStays ?_)
      exact (hKept.always_flush rfl).bind
        fun _ hAfter => always_done hAfter
  | write src =>
      exact always_reply (hStays (hLayer (s.always_write src)))
  | read room =>
      exact always_reply (hStays (hKept.always_read rfl room))
  | readExact n => exact always_reply (hStays (s.always_readExact n))
  | text => exact always_bind fun _ => always_done (.refl hConn)
  | endpoint step =>
      exact always_bind fun _ => always_done (.refl hConn)

end Surrogate

end Parley
