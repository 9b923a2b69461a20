import Parley.Deflate.Codec
import Parley.Tls.Stream
import Parley.Proofs.Upgrade.Kinds
/-
  This file shows that the layers of a surrogate stay well
  formed, whichever calls are made on it in which order, and
  whatever the endpoint and a handshake answer. The link that is
  taken out for a change is always put back; compression,
  encryption and being closed are never undone; a change that
  fails leaves the kinds of all layers as they were, and says why
  it did in a fixed order of reasons.

  Key definitions include:
    * `Change`
    * `Surrogate.change`
    * `Surrogate.refusal`
    * `Step`
    * `Step.carryOut`
    * `Surrogate.Leads`
    * `Surrogate.Grows`

  Key theorems include:
    * `Surrogate.change_of_refusal`
    * `Surrogate.gives_change`
    * `Surrogate.grows_of_gives`
    * `Surrogate.Leads.grows`
    * `Surrogate.stack_spec`
-/

namespace Parley

variable {κ : Codec} {θ : Tls.Provider}

------------------------------------------------------------
-- Changes of the layers
------------------------------------------------------------

/-
  What can be asked of a surrogate's layers: to compress, or to
  encrypt by a session, if one can be set up, and a handshake.
-/
inductive Change (θ : Tls.Provider) where
  | deflate (level : Nat)
  | tls
      (setup : Except SurrogateError θ.Session)
      (handshake : Surrogate.Handshake θ)

/-
  The failure of a change that was made before.
-/
def Change.active : Change θ → SurrogateError
  | .deflate _ => .compressionActive
  | .tls _ _ => .encryptionActive

/-
  How a change can fail once everything is sent. Compressing
  cannot; for a session it is the setup or the handshake.
-/
def Change.Fails : Change θ → SurrogateError → Prop
  | .deflate _, _ => False
  | .tls setup handshake, e =>
    setup = .error e ∨
      ∃ session cause last,
        setup = .ok session ∧
          (handshake session).Gives (.error cause, last) ∧
          e = .handshake cause

/-
  What a change makes of a layer. The compression that goes on
  above a new session is the one that was there.
-/
def Change.Makes : Change θ → Layer κ θ → Layer κ θ → Prop
  | .deflate level, layer, after =>
    after = .compress layer.link level
  | .tls setup handshake, layer, after =>
    ∃ session opened,
      setup = .ok session ∧
        (handshake session).Gives (.ok (), opened) ∧
        after = layer.withLink (.tls opened)

namespace Surrogate

/- Make a change. -/
def change
    (s : Surrogate κ θ) : Change θ → Run κ θ Unit
  | .deflate level => s.enableDeflate level
  | .tls setup handshake => s.enableTlsWith setup handshake

/- Whether a change was made before. -/
def isChanged
    (s : Surrogate κ θ) : Change θ → Bool
  | .deflate _ => s.isCompressed
  | .tls _ _ => s.isEncrypted

/- What remains of a change once everything is prepared. -/
def makeChange
    (s : Surrogate κ θ) : Change θ → Run κ θ Unit
  | .deflate level => s.startDeflate level
  | .tls setup handshake => s.startTls setup handshake

/-
  Why a change is refused before anything is sent, if it is; of
  several reasons the first is given.
-/
def refusal
    (s : Surrogate κ θ)
    (c : Change θ) : Option SurrogateError :=
  if s.closed then some .closed
  else if s.isChanged c then some c.active
  else if s.unread ≠ [] then some (.pendingInput s.unread.length)
  else none

section

open Routine

variable {s s' : Surrogate κ θ} {c : Change θ} {e : SurrogateError}
variable {r : Except SurrogateError Unit}

/- Layers of the same kinds are compressed alike. -/
theorem Stays.isCompressed_eq
    (hStays : s.Stays s') :
    s'.isCompressed = s.isCompressed := by
  rw [isCompressed, isCompressed, Layer.isCompressed_eq,
    Layer.isCompressed_eq, hStays.kinds]

/- They are encrypted alike. -/
theorem Stays.isEncrypted_eq
    (hStays : s.Stays s') :
    s'.isEncrypted = s.isEncrypted := by
  rw [isEncrypted, isEncrypted, Layer.isEncrypted_eq,
    Layer.isEncrypted_eq, hStays.kinds]

theorem Stays.isChanged_eq
    (hStays : s.Stays s')
    (c : Change θ) :
    s'.isChanged c = s.isChanged c := by
  cases c with
  | deflate level => exact hStays.isCompressed_eq
  | tls setup handshake => exact hStays.isEncrypted_eq

/- Where the link is in place, it stays there. -/
theorem Stays.conn
    (hStays : s.Stays s')
    (hConn : s.conn = some .held) :
    s'.conn = some .held := by
  rw [Surrogate.conn, Layer.conn_eq_held_iff] at hConn ⊢
  rwa [hStays.kinds]

/- A change that is new to an open surrogate is prepared first. -/
theorem change_of_new
    (hOpen : ¬s.closed = true)
    (hNew : ¬s.isChanged c = true) :
    s.change c =
      s.prepareUpgrade.ifOk fun () s => s.makeChange c := by
  cases c with
  | deflate level =>
      rw [change, enableDeflate, if_neg hOpen]
      exact if_neg hNew
  | tls setup handshake =>
      rw [change, enableTlsWith, if_neg hOpen]
      exact if_neg hNew

/-
  A change that is refused asks for nothing and leaves the
  surrogate as it is, with all that it has not sent.
-/
theorem change_of_refusal
    (hRefusal : s.refusal c = some e) :
    s.change c = s.fail e := by
  rw [refusal] at hRefusal
  split at hRefusal
  · next hClosed =>
      cases hRefusal
      cases c with
      | deflate level => rw [change, enableDeflate, if_pos hClosed]
      | tls setup handshake =>
          rw [change, enableTlsWith, if_pos hClosed]
  · next hOpen =>
      split at hRefusal
      · next hActive =>
          cases hRefusal
          cases c with
          | deflate level =>
              rw [change, enableDeflate, if_neg hOpen]
              exact if_pos hActive
          | tls setup handshake =>
              rw [change, enableTlsWith, if_neg hOpen]
              exact if_pos hActive
      · next hNew =>
          split at hRefusal
          · next hUnread =>
              cases hRefusal
              rw [change_of_new hOpen hNew, prepareUpgrade,
                if_neg hUnread]
              rfl
          · cases hRefusal

/-
  One that is not refused sends everything, and is made then.
-/
theorem change_of_no_refusal
    (hRefusal : s.refusal c = none) :
    s.closed = false ∧
      s.isChanged c = false ∧
      s.change c = s.flush.ifOk fun () s => s.makeChange c := by
  rw [refusal] at hRefusal
  split at hRefusal
  · cases hRefusal
  · next hOpen =>
      split at hRefusal
      · cases hRefusal
      · next hNew =>
          split at hRefusal
          · cases hRefusal
          · next hRead =>
              refine ⟨eq_false_of_ne_true hOpen,
                eq_false_of_ne_true hNew, ?_⟩
              rw [change_of_new hOpen hNew, prepareUpgrade,
                if_pos (Decidable.not_not.mp hRead)]

/- A link is put in as if none had been taken out before. -/
theorem attachLink_detachLink
    (s : Surrogate κ θ)
    (link : Link θ) :
    s.detachLink.2.attachLink link = s.attachLink link := by
  rw [detachLink, attachLink, attachLink, Layer.withLink_withLink]

/- Putting in the link that is there changes nothing. -/
theorem attachLink_of_link
    (s : Surrogate κ θ)
    {link : Link θ}
    (hLink : s.layer.link = link) :
    s.attachLink link = s := by
  rw [attachLink, ← hLink, Layer.withLink_link]

/-
  What a change comes to on a link that is in place, once
  everything is prepared: it fails and the surrogate is as it
  was, or the layers are changed and nothing else is.
-/
theorem gives_makeChange
    (hConn : s.conn = some .held)
    (hNew : s.isChanged c = false)
    (hGives : (s.makeChange c).Gives (r, s')) :
    (∃ e, r = .error e ∧ c.Fails e ∧ s' = s) ∨
      r = .ok () ∧ ∃ layer,
        c.Makes s.layer layer ∧ s' = s.attachLayer layer := by
  cases c with
  | deflate level =>
      rw [makeChange, startDeflate, detachLayer] at hGives
      cases hLayer : s.layer with
      | raw link =>
          rw [hLayer] at hGives
          cases hGives
          exact .inr ⟨rfl, _, rfl, rfl⟩
      | deflate d =>
          rw [isChanged, isCompressed, hLayer] at hNew
          cases hNew
  | tls setup handshake =>
      cases setup with
      | error e =>
          cases hGives
          exact .inl ⟨e, rfl, .inl rfl, rfl⟩
      | ok session =>
          rw [makeChange, startTls, detachLink] at hGives
          cases hLink : s.layer.link with
          | plain =>
              simp only [hLink] at hGives
              rcases gives_bind hGives with
                ⟨⟨cause | _, last⟩, hHandshake, hEnd⟩
              · have hBack := s.attachLink_detachLink .plain
                rw [s.attachLink_of_link hLink] at hBack
                cases hEnd
                exact .inl ⟨_, rfl,
                  .inr ⟨session, cause, last, rfl, hHandshake, rfl⟩,
                  hBack⟩
              · cases hEnd
                exact .inr ⟨rfl, _,
                  ⟨session, last, rfl, hHandshake, rfl⟩,
                  s.attachLink_detachLink (.tls last)⟩
          | tls other =>
              rw [isChanged, isEncrypted, Layer.isEncrypted,
                hLink] at hNew
              cases hNew
          | detached =>
              rw [conn, hLink] at hConn
              cases hConn

/-
  A change on a link that is in place, if it is not refused: the
  flush before it fails, or it does and nothing is changed since
  the flush, or the layers are changed and nothing else is.
-/
theorem gives_change
    (hConn : s.conn = some .held)
    (hRefusal : s.refusal c = none)
    (hGives : (s.change c).Gives (r, s')) :
    (∃ e, r = .error e ∧ s.Flushed s' ∧
      (s.flush.Gives (.error e, s') ∨
        s.flush.Gives (.ok (), s') ∧ c.Fails e)) ∨
    (r = .ok () ∧ ∃ sent layer,
      s.flush.Gives (.ok (), sent) ∧ s.Flushed sent ∧
        c.Makes sent.layer layer ∧ s' = sent.attachLayer layer) := by
  rcases change_of_no_refusal hRefusal with ⟨hOpen, hNew, hChange⟩
  rw [hChange] at hGives
  rcases gives_ifOk hGives with
    ⟨e, rfl, hFailed⟩ | ⟨_, sent, hSent, hMade⟩
  · have hFlushed := (always_flush hOpen _ hFailed).2
    exact .inl ⟨e, rfl, hFlushed, .inl hFailed⟩
  · have hFlushed := (always_flush hOpen _ hSent).2
    have hStill := hFlushed.stays.isChanged_eq c
    rcases gives_makeChange
      (hFlushed.stays.conn hConn) (hStill.trans hNew) hMade with
      ⟨e, rfl, hFails, rfl⟩ | ⟨rfl, layer, hMakes, rfl⟩
    · exact .inl ⟨e, rfl, hFlushed, .inr ⟨hSent, hFails⟩⟩
    · exact .inr ⟨rfl, sent, layer, hSent, hFlushed, hMakes, rfl⟩

end

end Surrogate

------------------------------------------------------------
-- Calls on a surrogate
------------------------------------------------------------

/- One call of those that can be made on a surrogate. -/
inductive Step (θ : Tls.Provider) where
  | writeLine (line : Bytes)
  | write (src : Bytes)
  | flush
  | readLine
  | read (room : Nat)
  | change (c : Change θ)
  | close (flushes : Bool)

namespace Step

/- Keep of what a call gives only whether it has failed. -/
def verdict
    {ε α : Type}
    (wrap : ε → SurrogateError)
    (p : Routine endpointInterface (Except ε α × Surrogate κ θ)) :
    Surrogate.Run κ θ Unit :=
  p.bind fun (r, s) =>
    .done ((r.mapError wrap).map fun _ => (), s)

/- Make a call. -/
def carryOut
    (s : Surrogate κ θ) : Step θ → Surrogate.Run κ θ Unit
  | .writeLine line => s.writeLine line
  | .write src => verdict .io (s.write src)
  | .flush => s.flush
  | .readLine => verdict id s.readLine
  | .read room => verdict .io (s.read room)
  | .change c => s.change c
  | .close flushes => s.close flushes

/-
  Whether a call only reads, writes or flushes. The others
  change the layers or close them.
-/
def isPlain : Step θ → Bool
  | .change _ => false
  | .close _ => false
  | _ => true

theorem isPlain_or
    (step : Step θ) :
    step.isPlain = true ∨
      (∃ c, step = .change c) ∨ ∃ flushes, step = .close flushes := by
  cases step with
  | change c => exact .inr (.inl ⟨c, rfl⟩)
  | close flushes => exact .inr (.inr ⟨flushes, rfl⟩)
  | _ => exact .inl rfl

section

variable {holds : Layer κ θ → Prop} {s : Surrogate κ θ}

theorem always_verdict
    {ε α : Type}
    {wrap : ε → SurrogateError}
    {p : Routine endpointInterface (Except ε α × Surrogate κ θ)}
    (hKept : p.Always fun (_, after) =>
      holds after.layer ∧ after.closed = s.closed) :
    (verdict wrap p).Always fun (_, after) =>
      holds after.layer ∧ after.closed = s.closed :=
  hKept.bind fun _ hAfter => Routine.always_done hAfter

/-
  A call that only reads, writes or flushes keeps true what
  these keep true of the layers.
-/
theorem always_carryOut
    {step : Step θ}
    (hPlain : step.isPlain = true)
    (hKept : Layer.Kept holds)
    (hHolds : holds s.layer) :
    (step.carryOut s).Always fun (_, after) =>
      holds after.layer ∧ after.closed = s.closed := by
  have hLayer : ∀ {after : Surrogate κ θ},
      after.layer = s.layer ∧ after.closed = s.closed →
      holds after.layer ∧ after.closed = s.closed := by
    rintro after ⟨hSame, hClosed⟩
    rw [hSame]
    exact ⟨hHolds, hClosed⟩
  cases step with
  | writeLine line =>
      exact (s.always_writeLine line).mono fun _ => hLayer
  | write src =>
      exact always_verdict
        ((s.always_write src).mono fun _ => hLayer)
  | flush => exact hKept.always_flush hHolds
  | readLine => exact always_verdict (hKept.always_readLine hHolds)
  | read room => exact always_verdict (hKept.always_read hHolds room)
  | change c => cases hPlain
  | close flushes => cases hPlain

end

end Step

namespace Surrogate

open Routine

/-
  Calls in a row lead from one surrogate to another, whatever
  the endpoint answers and whichever of them fail.
-/
inductive Leads : Surrogate κ θ → List (Step θ) → Surrogate κ θ → Prop
  | nil (s : Surrogate κ θ) : Leads s [] s
  | cons
      {s next s' : Surrogate κ θ}
      {step : Step θ}
      {steps : List (Step θ)}
      {r : Except SurrogateError Unit}
      (hHere : (step.carryOut s).Gives (r, next))
      (hLater : Leads next steps s') :
      Leads s (step :: steps) s'

/-
  A surrogate whose link is in place, and which compresses, is
  encrypted and is closed if the one before was.
-/
structure Grows
    (s after : Surrogate κ θ) : Prop where
  conn : after.conn = some .held
  compressed : s.isCompressed = true → after.isCompressed = true
  encrypted : s.isEncrypted = true → after.isEncrypted = true
  closed : s.closed = true → after.closed = true

section

variable {s mid s' : Surrogate κ θ}
variable {step : Step θ} {steps : List (Step θ)}
variable {r : Except SurrogateError Unit}

theorem Grows.refl
    (hConn : s.conn = some .held) :
    s.Grows s :=
  ⟨hConn, id, id, id⟩

theorem Grows.trans
    (hFirst : s.Grows mid)
    (hSecond : mid.Grows s') :
    s.Grows s' where
  conn := hSecond.conn
  compressed h := hSecond.compressed (hFirst.compressed h)
  encrypted h := hSecond.encrypted (hFirst.encrypted h)
  closed h := hSecond.closed (hFirst.closed h)

/- Layers that keep their kinds lose nothing. -/
theorem Stays.grows
    (hConn : s.conn = some .held)
    (hStays : s.Stays s') :
    s.Grows s' where
  conn := hStays.conn hConn
  compressed := hStays.isCompressed_eq.trans
  encrypted := hStays.isEncrypted_eq.trans
  closed := hStays.closed.trans

/- Layers that are changed are as the change was to make them. -/
theorem isChanged_of_makes
    {c : Change θ}
    {layer : Layer κ θ}
    (hMakes : c.Makes s.layer layer) :
    (s.attachLayer layer).isChanged c = true := by
  cases c with
  | deflate level =>
      cases hMakes
      rfl
  | tls setup handshake =>
      rcases hMakes with ⟨session, opened, -, -, rfl⟩
      rw [isChanged, isEncrypted, Layer.isEncrypted, attachLayer,
        Layer.link_withLink]
      rfl

/- They lose nothing by it. -/
theorem grows_attachLayer
    {c : Change θ}
    {layer : Layer κ θ}
    (hConn : s.conn = some .held)
    (hMakes : c.Makes s.layer layer) :
    s.Grows (s.attachLayer layer) := by
  have hChanged := isChanged_of_makes hMakes
  cases c with
  | deflate level =>
      cases hMakes
      exact ⟨hConn, fun _ => hChanged, id, id⟩
  | tls setup handshake =>
      rcases hMakes with ⟨session, opened, -, -, rfl⟩
      refine ⟨?_, ?_, fun _ => hChanged, id⟩
      · rw [conn, attachLayer, Layer.link_withLink]
        rfl
      · rw [isCompressed, isCompressed, attachLayer,
          Layer.isCompressed_withLink]
        exact id

/- A change that is asked for loses nothing, however it ends. -/
theorem grows_of_change
    {c : Change θ}
    (hConn : s.conn = some .held)
    (hGives : (s.change c).Gives (r, s')) :
    s.Grows s' := by
  cases hRefusal : s.refusal c with
  | some e =>
      rw [change_of_refusal hRefusal] at hGives
      cases hGives
      exact .refl hConn
  | none =>
      rcases gives_change hConn hRefusal hGives with
        ⟨e, -, hFlushed, -⟩ |
        ⟨-, sent, layer, -, hFlushed, hMakes, rfl⟩
      · exact hFlushed.stays.grows hConn
      · have hSent := hFlushed.stays.grows hConn
        exact hSent.trans (grows_attachLayer hSent.conn hMakes)

/-
  The flush before a close; what it puts back on an encrypted
  link is an encrypted link.
-/
theorem always_flushForClose
    (hOpen : s.closed = false) :
    s.flushForClose.Always fun (_, after) => s.Stays after := by
  refine (always_flush hOpen).bind ?_
  rintro ⟨e | _, sent⟩ ⟨-, hFlushed⟩
  · exact always_done hFlushed.stays
  · cases hLink : sent.layer.link with
    | tls session =>
        simp only [hLink]
        refine always_bind fun (r, last) => always_done ?_
        refine ⟨?_, hFlushed.closed⟩
        rw [attachLink, Layer.kinds_withLink, hFlushed.kinds]
        rw [hLink]
        rfl
    | plain =>
        simp only [hLink]
        exact always_done hFlushed.stays
    | detached =>
        simp only [hLink]
        exact always_done hFlushed.stays

/- What is sent before a close leaves the layers in place. -/
theorem always_sendForClose
    (hOpen : s.closed = false)
    (flush : Bool) :
    Always
      (if flush then s.flushForClose else .done (.ok (), s))
      (fun (_, after) => s.Stays after) := by
  split
  · exact always_flushForClose hOpen
  · exact always_done ⟨rfl, rfl⟩

/- A close leaves the layers as they are, and closes. -/
theorem grows_of_close
    {flush : Bool}
    (hConn : s.conn = some .held)
    (hGives : (s.close flush).Gives (r, s')) :
    s.Grows s' := by
  rw [close] at hGives
  split at hGives
  · cases hGives
    exact .refl hConn
  · next hOpen =>
      rcases gives_bind hGives with ⟨⟨r', sent⟩, hFirst, hShut⟩
      rcases gives_bind hShut with ⟨_, -, hEnd⟩
      have hStays := always_sendForClose
        (eq_false_of_ne_true hOpen) flush _ hFirst
      have hGrows := hStays.grows hConn
      cases hEnd
      exact ⟨hGrows.conn, hGrows.compressed, hGrows.encrypted,
        fun _ => rfl⟩

/- No call loses anything of what a surrogate has come to. -/
theorem grows_of_gives
    (hConn : s.conn = some .held)
    (hGives : (step.carryOut s).Gives (r, s')) :
    s.Grows s' := by
  rcases step.isPlain_or with hPlain | ⟨c, rfl⟩ | ⟨flushes, rfl⟩
  · have hKept := Step.always_carryOut hPlain
      (Layer.kept_kinds s.layer.kinds) rfl _ hGives
    exact Stays.grows hConn ⟨hKept.1, hKept.2⟩
  · exact grows_of_change hConn hGives
  · exact grows_of_close hConn hGives

/- Nor do calls in a row. -/
theorem Leads.grows
    (hLeads : s.Leads steps s')
    (hConn : s.conn = some .held) :
    s.Grows s' := by
  induction hLeads with
  | nil s => exact .refl hConn
  | cons hHere _ ih =>
      have hStep := grows_of_gives hConn hHere
      exact hStep.trans (ih hStep.conn)

/-
  A change that fails leaves the kinds of all layers as they
  were.
-/
theorem stays_of_failed
    {c : Change θ}
    {e : SurrogateError}
    (hConn : s.conn = some .held)
    (hGives : (s.change c).Gives (.error e, s')) :
    s.Stays s' := by
  cases hRefusal : s.refusal c with
  | some e =>
      rw [change_of_refusal hRefusal] at hGives
      cases hGives
      exact ⟨rfl, rfl⟩
  | none =>
      rcases gives_change hConn hRefusal hGives with
        ⟨e, -, hFlushed, -⟩ | ⟨hOk, -⟩
      · exact hFlushed.stays
      · cases hOk

/-
  A change that succeeds was not refused; after a flush it
  changes the layers and nothing else.
-/
theorem makes_of_changed
    {c : Change θ}
    (hConn : s.conn = some .held)
    (hGives : (s.change c).Gives (.ok (), s')) :
    s.refusal c = none ∧ ∃ sent layer,
      s.flush.Gives (.ok (), sent) ∧ s.Flushed sent ∧
        c.Makes sent.layer layer ∧ s' = sent.attachLayer layer := by
  cases hRefusal : s.refusal c with
  | some e =>
      rw [change_of_refusal hRefusal] at hGives
      cases hGives
  | none =>
      rcases gives_change hConn hRefusal hGives with
        ⟨e, hError, -⟩ | ⟨-, hMade⟩
      · cases hError
      · exact ⟨rfl, hMade⟩

/-
  A session is opened below the compression that is there: it
  has the same decoder and the same bytes that wait for it, and
  whatever a flush makes of the direction that sends.
-/
theorem deflate_of_makes
    {setup : Except SurrogateError θ.Session}
    {handshake : Handshake θ}
    {layer : Layer κ θ}
    {d : DeflateStream κ (Link θ)}
    (hLayer : s.layer = .deflate d)
    (hFlushed : s.Flushed mid)
    (hMakes : (Change.tls setup handshake).Makes mid.layer layer) :
    ∃ d₁ opened,
      mid.layer = .deflate d₁ ∧
        d₁.decoder = d.decoder ∧ d₁.input = d.input ∧
        layer = .deflate { d₁ with inner := .tls opened } := by
  rcases hMakes with ⟨session, opened, -, -, rfl⟩
  have hKinds := hFlushed.kinds
  have hIntake := hFlushed.intake
  rw [hLayer] at hKinds hIntake
  cases hMid : mid.layer with
  | raw link =>
      rw [hMid] at hKinds
      cases congrArg List.length hKinds
  | deflate d₁ =>
      rw [hMid] at hIntake
      exact ⟨d₁, opened, rfl, congrArg Prod.fst hIntake,
        congrArg Prod.snd hIntake, rfl⟩

------------------------------------------------------------
-- The layers of every surrogate
------------------------------------------------------------

/-
  For every surrogate that calls in a row have led to, whatever
  the endpoint and the handshakes answered: its link is in
  place, and whatever calls come next, it still is after them,
  and compression, encryption and being closed are there if they
  were before.

  A change that is refused fails for the first reason that there
  is, without asking for anything, and leaves the surrogate as
  it is. A change that fails leaves the kinds of all layers as
  they were; if it was not refused, the flush has failed, or
  after it the setup or the handshake. One that succeeds changes
  the layers as it should, and the compression above a new
  session is the one that was there.
-/
theorem stack_spec
    {terminator : Bytes}
    {before : List (Step θ)}
    (hBefore : (new terminator).Leads before s) :
    s.conn = some .held ∧
    (∀ later s', s.Leads later s' → s.Grows s') ∧
    ∀ c : Change θ,
      (∀ e, s.refusal c = some e →
        s.change c = .done (.error e, s)) ∧
      (∀ e s', (s.change c).Gives (.error e, s') →
        s'.layer.kinds = s.layer.kinds ∧
          s'.isCompressed = s.isCompressed ∧
          s'.isEncrypted = s.isEncrypted ∧
          s'.closed = s.closed ∧
          (s.refusal c = none →
            s.flush.Gives (.error e, s') ∨
              s.flush.Gives (.ok (), s') ∧ c.Fails e)) ∧
      (∀ s', (s.change c).Gives (.ok (), s') →
        s.refusal c = none ∧
          s'.isChanged c = true ∧
          ∃ sent layer,
            s.flush.Gives (.ok (), sent) ∧
              sent.layer.kinds = s.layer.kinds ∧
              c.Makes sent.layer layer ∧
              s' = sent.attachLayer layer ∧
              ∀ setup handshake d,
                c = .tls setup handshake → s.layer = .deflate d →
                ∃ d₁ opened,
                  sent.layer = .deflate d₁ ∧
                    d₁.decoder = d.decoder ∧ d₁.input = d.input ∧
                    s'.layer =
                      .deflate { d₁ with inner := .tls opened }) := by
  have hConn : s.conn = some .held := (hBefore.grows rfl).conn
  refine ⟨hConn, fun later s' hLater => hLater.grows hConn,
    fun c => ⟨?_, ?_, ?_⟩⟩
  · intro e hRefusal
    exact change_of_refusal hRefusal
  · intro e s' hGives
    have hStays := stays_of_failed hConn hGives
    refine ⟨hStays.kinds, hStays.isCompressed_eq,
      hStays.isEncrypted_eq, hStays.closed, fun hRefusal => ?_⟩
    rcases gives_change hConn hRefusal hGives with
      ⟨e, hError, -, hWhy⟩ | ⟨hOk, -⟩
    · cases hError
      exact hWhy
    · cases hOk
  · intro s' hGives
    rcases makes_of_changed hConn hGives with
      ⟨hRefusal, sent, layer, hSent, hFlushed, hMakes, rfl⟩
    refine ⟨hRefusal, isChanged_of_makes hMakes, sent, layer, hSent,
      hFlushed.kinds, hMakes, rfl, ?_⟩
    rintro setup handshake d rfl hLayer
    exact deflate_of_makes hLayer hFlushed hMakes

/- A surrogate that compresses since its first call. -/
def compressing : Surrogate rawDeflate Tls.transparent :=
  (new [13, 10]).attachLayer (.compress .plain 6)

/- It is to encrypt, and the client leaves in the middle. -/
def leaving : Change Tls.transparent :=
  .tls (.ok Tls.Session.server) fun session =>
    .done (.error (.tls .handshakeEof), session)

/- The pipe takes in all that is sent, and has nothing to give. -/
def sink : (call : Call) → call.Answer
  | .recv _ => .error .endOfStream
  | .send src => .ok src.length
  | .now => 0
  | .timeout => none
  | .isClosed => false
  | .names => ("server", "client")
  | .close | .clear | .setTimeout _ | .setDeadline _
  | .setReadDeadline _ | .setWriteDeadline _ => ()

/- What comes of it. -/
def left :
    Except SurrogateError Unit ×
      Surrogate rawDeflate Tls.transparent :=
  ((compressing.change leaving).resultBy sink 8).get
    (by decide +kernel)

/-
  It refuses to compress again. A handshake is begun below its
  compression and the client leaves in the middle of that: the
  change fails by the handshake, and the compression and the
  plain link are still there.
-/
theorem stack_spec_of_leaving :
    (new [13, 10]).Leads [.change (.deflate 6)] compressing ∧
      compressing.conn = some .held ∧
      compressing.change (.deflate 6) =
        .done (.error .compressionActive, compressing) ∧
      ∃ s',
        (compressing.change leaving).Gives
            (.error (.handshake (.tls .handshakeEof)), s') ∧
          s'.layer.kinds = [.compressed, .plain] := by
  have hBefore :
      (new [13, 10]).Leads [.change (.deflate 6)] compressing :=
    .cons (.done _) (.nil _)
  have hSpec := stack_spec hBefore
  have hLeft : left.1 = .error (.handshake (.tls .handshakeEof)) := by
    with_unfolding_all rfl
  have hGives : (compressing.change leaving).Gives
      (.error (.handshake (.tls .handshakeEof)), left.2) := by
    rw [← hLeft]
    exact gives_of_resultBy (Option.some_get _).symm
  exact ⟨hBefore, hSpec.1, (hSpec.2.2 _).1 _ rfl, left.2, hGives,
    ((hSpec.2.2 _).2.1 _ _ hGives).1⟩

end

end Surrogate

end Parley
