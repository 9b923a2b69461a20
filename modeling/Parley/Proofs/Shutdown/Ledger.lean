import Parley.Proofs.Shutdown.Outlet
import Parley.Proofs.Shutdown.Reading
import Parley.Proofs.Transcript.Closed
/-
  This file keeps books of a surrogate in use: of all that was
  written to it, what has gone out and what waits to be sent.
  The books are kept over every use of the surrogate, as long as
  no flush was cut short and it is neither closed nor encrypted.

  What others put on the pipe at the same end stands between
  the bytes of the surrogate: a handshake that fails leaves its
  records there, and so does whoever sends at the endpoint
  itself. Where nothing of this kind came, what went out is just
  what was to go out.

  Key definitions include:
    * `Shutdown.Use`
    * `Shutdown.isCut`
    * `Shutdown.disturbs`
    * `Shutdown.Carried`
    * `Shutdown.Delivered`
    * `Shutdown.Ledger`

  Key theorems include:
    * `Shutdown.Ledger.turn`
    * `Shutdown.Ledger.yields_flush`
    * `Shutdown.Ledger.offers_change`
    * `Shutdown.Ledger.offers_use`
    * `Shutdown.offers_uses`
-/

namespace Parley

variable {κ : Codec} {θ : Tls.Provider}

/- Whether a step on an endpoint sends something there. -/
def EndpointStep.isSend : EndpointStep → Bool
  | .send _ => true
  | .write _ => true
  | .writeAll _ => true
  | _ => false

/- Whether a reply says that the stream below has failed. -/
def Reply.isBroken : Reply → Bool
  | .ioFailure _ => true
  | .surrogateFailure (.io _) => true
  | _ => false

------------------------------------------------------------
-- Uses of a surrogate
------------------------------------------------------------

namespace Shutdown

/-
  A use of a surrogate: a step of a conversation, or an upgrade
  to encryption by a session and a handshake of one's own.
-/
inductive Use (θ : Tls.Provider) where
  | take (step : SurrogateStep)
  | secure
      (setup : Except SurrogateError θ.Session)
      (handshake : Surrogate.Handshake θ)

end Shutdown

/- Use a surrogate. -/
def Surrogate.use
    (s : Surrogate κ θ) :
    Shutdown.Use θ → Routine endpointInterface (Reply × Surrogate κ θ)
  | .take step => s.take step
  | .secure setup handshake =>
    (s.enableTlsWith setup handshake).bind fun (r, s) =>
      .done (.ofSurrogate .done r, s)

namespace Shutdown

open Outflow Compression

/- The bytes that a use hands to the surrogate for sending. -/
def Use.written
    (terminator : Bytes) : Use θ → Bytes
  | .take step => step.written terminator
  | .secure _ _ => []

/- Whether a use sends what was written before it. -/
def Use.flushes : Use θ → Bool
  | .take .flush => true
  | .take .ioFlush => true
  | .take (.deflate _) => true
  | .take .tls => true
  | .secure _ _ => true
  | _ => false

/- A use and what it answered. -/
abbrev Turn (θ : Tls.Provider) :=
  Use θ × Reply

/- Whether a flush has failed in a turn. -/
def isCut
    (turn : Turn θ) : Bool :=
  turn.1.flushes && turn.2.isBroken

/-
  Whether a turn may have put other bytes on the pipe than those
  of the surrogate: by a handshake that has failed, or by use of
  the endpoint itself.
-/
def disturbs : Turn θ → Bool
  | (.take .tls, .surrogateFailure (.handshake _)) => true
  | (.secure _ _, .surrogateFailure (.handshake _)) => true
  | (.take (.endpoint step), _) => step.isSend
  | _ => false

/- No flush has failed so far. -/
def Unbroken
    (turns : List (Turn θ)) : Prop :=
  ∀ turn ∈ turns, isCut turn = false

instance (turns : List (Turn θ)) : Decidable (Unbroken turns) :=
  inferInstanceAs (Decidable (∀ turn ∈ turns, isCut turn = false))

/- All that was written in some turns. -/
def said
    (terminator : Bytes)
    (turns : List (Turn θ)) : Bytes :=
  turns.flatMap fun turn => turn.1.written terminator

/- If no flush has failed so far, none had earlier. -/
theorem Unbroken.of_append
    {turns more : List (Turn θ)}
    (hUnbroken : Unbroken (turns ++ more)) :
    Unbroken turns :=
  fun turn hMember =>
    hUnbroken turn (List.mem_append_left more hMember)

/- A turn in which a flush has failed breaks with the rest. -/
theorem not_unbroken_concat
    {turn : Turn θ}
    (turns : List (Turn θ))
    (hCut : isCut turn = true) :
    ¬ Unbroken (turns ++ [turn]) := by
  intro hUnbroken
  have hWhole := hUnbroken turn
    (List.mem_append_right turns (List.mem_singleton_self turn))
  rw [hCut] at hWhole
  cases hWhole

theorem said_concat
    (terminator : Bytes)
    (turns : List (Turn θ))
    (turn : Turn θ) :
    said terminator (turns ++ [turn]) =
      said terminator turns ++ turn.1.written terminator := by
  simp [said]

------------------------------------------------------------
-- What has gone out
------------------------------------------------------------

/-
  What was to go out in some turns is in order among the bytes
  that did, and is all of them if no turn put others there.
-/
structure Carried
    (turns : List (Turn θ))
    (part out : Bytes) : Prop where
  sublist : part.Sublist out
  whole : (∀ turn ∈ turns, disturbs turn = false) → out = part

namespace Carried

variable {turns : List (Turn θ)} {part out : Bytes}

theorem nil :
    Carried (θ := θ) [] [] [] :=
  ⟨.slnil, fun _ => rfl⟩

/- More of it may go out at once. -/
theorem append
    (hCarried : Carried turns part out)
    (more : Bytes) :
    Carried turns (part ++ more) (out ++ more) := by
  refine ⟨hCarried.sublist.append (List.Sublist.refl more), ?_⟩
  intro hQuiet
  rw [hCarried.whole hQuiet]

/- One more turn may only put other bytes behind it. -/
theorem concat
    {turn : Turn θ}
    {noise : Bytes}
    (hCarried : Carried turns part out)
    (hNoise : disturbs turn = false → noise = []) :
    Carried (turns ++ [turn]) part (out ++ noise) := by
  refine ⟨hCarried.sublist.trans (List.sublist_append_left _ _), ?_⟩
  intro hQuiet
  rw [List.forall_mem_append, List.forall_mem_singleton] at hQuiet
  rw [hNoise hQuiet.2, List.append_nil]
  exact hCarried.whole hQuiet.1

end Carried

/- What was written has gone out, but for what is unsent. -/
structure Handed
    (terminator : Bytes)
    (turns : List (Turn θ))
    (unsent out : Bytes) : Prop where
  carried :
    ∃ sent,
      said terminator turns = sent ++ unsent ∧
        Carried turns sent out

/-
  Compression of some level began in one of these turns. What
  was written earlier has gone out. Of what was written since,
  all but the unsent bytes was handed to the compressed stream,
  and that has sent `sent`.
-/
structure Coded
    (terminator : Bytes)
    (turns : List (Turn θ))
    (level : Nat)
    (handed sent unsent out : Bytes) : Prop where
  begun :
    ∃ early chosen late plain coded,
      turns = early ++ (.take (.deflate chosen), .ok) :: late ∧
        level = min chosen Layer.highestLevel ∧
        out = plain ++ coded ∧
        Carried early (said terminator early) plain ∧
        said terminator late = handed ++ unsent ∧
        Carried late sent coded

/-
  All that was written has gone out, as it is or, since the turn
  in which compression began, in a form from which it can be
  decoded; the flag says whether there is compression.
-/
inductive Delivered
    (text : Nat → Bytes → Bytes)
    (terminator : Bytes)
    (turns : List (Turn θ))
    (out : Bytes) : (compressed : Bool) → Prop where
  | plain
      (hCarried : Carried turns (said terminator turns) out) :
      Delivered text terminator turns out false
  | coded
      {early late : List (Turn θ)}
      {level : Nat}
      {plain coded sent : Bytes}
      (hTurns :
        turns = early ++ (.take (.deflate level), .ok) :: late)
      (hOut : out = plain ++ coded)
      (hEarly : Carried early (said terminator early) plain)
      (hLate : Carried late sent coded)
      (hText :
        text (min level Layer.highestLevel) sent =
          said terminator late) :
      Delivered text terminator turns out true

/- A codec whose laws hold for every level that is used. -/
def Keeps
    (κ : Codec)
    (text : Nat → Bytes → Bytes)
    (bound : Nat → Nat → Nat) : Prop :=
  ∀ level ≤ Layer.highestLevel,
    κ.Lawful level (text level) (bound level)

------------------------------------------------------------
-- The books
------------------------------------------------------------

/-
  The books of an open surrogate on a plain link. They are right
  as long as no flush has failed; its layers are in order in any
  case.
-/
inductive Ledger
    (terminator : Bytes)
    (turns : List (Turn θ))
    (s : Surrogate κ θ)
    (out : Bytes) : Prop where
  | plain
      (hOpen : s.closed = false)
      (hTerminator : s.terminator = terminator)
      (hLayer : s.layer = .raw .plain)
      (hBooks :
        Unbroken turns → Handed terminator turns s.unsent out)
  | coded
      {d : DeflateStream κ (Link θ)}
      {level : Nat}
      {handed sent : Bytes}
      (hOpen : s.closed = false)
      (hTerminator : s.terminator = terminator)
      (hLayer : s.layer = .deflate d)
      (hInner : d.inner = .plain)
      (hLevel : level ≤ Layer.highestLevel)
      (hSending : Sending level d handed sent)
      (hBooks :
        Unbroken turns →
          Coded terminator turns level handed sent s.unsent out)

/-
  How a flush ends: everything was sent, or it was cut short and
  whatever the books said before, they are right for turns in
  which a flush has failed.
-/
inductive Settles
    (text : Nat → Bytes → Bytes)
    (terminator : Bytes)
    (turns : List (Turn θ)) :
    Except SurrogateError Unit × Surrogate κ θ → Bytes → Prop where
  | sent
      {s : Surrogate κ θ}
      {out : Bytes}
      (hUnsent : s.unsent = [])
      (hLedger : Ledger terminator turns s out)
      (hDelivered :
        Unbroken turns →
          Delivered text terminator turns out s.isCompressed) :
      Settles text terminator turns (.ok (), s) out
  | cut
      {e : IoError}
      {s : Surrogate κ θ}
      {out : Bytes}
      (hLedger : ∀ later,
        ¬ Unbroken later → Ledger terminator later s out) :
      Settles text terminator turns (.error (.io e), s) out

section

variable {text : Nat → Bytes → Bytes} {bound : Nat → Nat → Nat}
variable {terminator : Bytes} {turns : List (Turn θ)}
variable {s s' : Surrogate κ θ} {out : Bytes}

namespace Ledger

/- A surrogate of which books are kept is on a plain link. -/
theorem link
    (hLedger : Ledger terminator turns s out) :
    s.layer.link = .plain := by
  cases hLedger with
  | plain _ _ hLayer => rw [hLayer, Layer.link]
  | coded _ _ hLayer hInner => rw [hLayer, Layer.link, hInner]

theorem conn
    (hLedger : Ledger terminator turns s out) :
    s.conn = some .held := by
  rw [Surrogate.conn, hLedger.link, Link.conn]

theorem isOpen
    (hLedger : Ledger terminator turns s out) :
    s.closed = false := by
  cases hLedger with
  | plain hOpen => exact hOpen
  | coded hOpen => exact hOpen

theorem terminator_eq
    (hLedger : Ledger terminator turns s out) :
    s.terminator = terminator := by
  cases hLedger with
  | plain _ hTerminator => exact hTerminator
  | coded _ hTerminator => exact hTerminator

/-
  The books are carried on over a turn that leaves what is to be
  sent as it is, puts what it writes behind it, and puts nothing
  on the pipe unless it is one that disturbs.
-/
theorem turn
    {use : Use θ}
    {noise : Bytes}
    (hLedger : Ledger terminator turns s out)
    (hHears :
      Surrogate.Hears
        { s with unsent := s.unsent ++ use.written terminator } s')
    (reply : Reply)
    (hNoise : disturbs (use, reply) = false → noise = []) :
    Ledger terminator (turns ++ [(use, reply)]) s'
      (out ++ noise) := by
  rcases hHears with ⟨hClosed, hSame, hUnsent, hOutgoing⟩
  simp only at hClosed hSame hUnsent hOutgoing
  cases hLedger with
  | plain hOpen hTerminator hLayer hBooks =>
      have hLayer' : s'.layer = .raw .plain := by
        rw [hLayer] at hOutgoing
        cases hAfter : s'.layer with
        | raw link =>
            rw [hAfter] at hOutgoing
            exact congrArg (fun next => Layer.raw next.1) hOutgoing
        | deflate d =>
            rw [hAfter] at hOutgoing
            cases congrArg Prod.snd hOutgoing
      refine .plain (hClosed.trans hOpen) (hSame.trans hTerminator)
        hLayer' fun hUnbroken => ?_
      rcases hBooks hUnbroken.of_append with
        ⟨sent, hSaid, hCarried⟩
      refine ⟨sent, ?_, hCarried.concat hNoise⟩
      rw [said_concat, hSaid, hUnsent, List.append_assoc]
  | @coded d level handed sent hOpen hTerminator hLayer hInner
      hLevel hSending hBooks =>
      rw [hLayer] at hOutgoing
      cases hAfter : s'.layer with
      | raw link =>
          rw [hAfter] at hOutgoing
          cases congrArg Prod.snd hOutgoing
      | deflate d' =>
          rw [hAfter] at hOutgoing
          simp only [Layer.outgoing, Prod.mk.injEq,
            Option.some.injEq] at hOutgoing
          rcases hOutgoing with ⟨hLink, hEncoder, hOutput⟩
          have hSending' : Sending level d' handed sent := by
            refine ⟨?_, ?_⟩
            · rw [hEncoder]
              exact hSending.waiting_eq
            · rw [hEncoder, hOutput]
              exact hSending.compresses
          refine .coded (hClosed.trans hOpen)
            (hSame.trans hTerminator) hAfter (hLink.trans hInner)
            hLevel hSending' fun hUnbroken => ?_
          rcases hBooks hUnbroken.of_append with
            ⟨early, chosen, late, plain, coded, rfl, hChosen, rfl,
              hEarly, hSaid, hLate⟩
          refine ⟨early, chosen, late ++ [(use, reply)], plain,
            coded ++ noise, ?_, hChosen, ?_, hEarly, ?_,
            hLate.concat hNoise⟩
          · rw [List.append_assoc, List.cons_append]
          · rw [List.append_assoc]
          · rw [said_concat, hSaid, hUnsent, List.append_assoc]

/- A turn that puts nothing on the pipe. -/
theorem quiet
    {use : Use θ}
    (hLedger : Ledger terminator turns s out)
    (hHears :
      Surrogate.Hears
        { s with unsent := s.unsent ++ use.written terminator } s')
    (reply : Reply) :
    Ledger terminator (turns ++ [(use, reply)]) s' out := by
  have hNext := hLedger.turn hHears reply fun _ => rfl
  rw [List.append_nil] at hNext
  exact hNext

/- A turn that does nothing to what is sent. -/
theorem idle
    {use : Use θ}
    (hLedger : Ledger terminator turns s out)
    (hHears : s.Hears s')
    (hWritten : use.written terminator = [])
    (reply : Reply) :
    Ledger terminator (turns ++ [(use, reply)]) s' out := by
  apply hLedger.quiet
  rw [hWritten, List.append_nil]
  exact hHears

------------------------------------------------------------
-- Flushing
------------------------------------------------------------

/-
  A flush comes to an end, whatever becomes of its sends. If it
  succeeds, all that was written has gone out.
-/
theorem yields_flush
    (hLedger : Ledger terminator turns s out)
    (hKeeps : s.isCompressed = true → Keeps κ text bound) :
    Routine.Yields outlet (Settles text terminator turns) s.flush
      out := by
  cases hLedger with
  | plain hOpen hTerminator hLayer hBooks =>
      have hRaw : s.isCompressed = false := by
        rw [Surrogate.isCompressed, hLayer, Layer.isCompressed]
      apply (Surrogate.yields_flush_plain hOpen hLayer out).mono
      rintro ⟨r, s'⟩ out' ⟨rfl, ⟨rfl, rfl⟩ | ⟨e, rfl⟩⟩
      · have hCarried : Unbroken turns →
            Carried turns (said terminator turns)
              (out ++ s.unsent) := by
          intro hUnbroken
          rcases hBooks hUnbroken with ⟨sent, hSaid, hCarried⟩
          rw [hSaid]
          exact hCarried.append s.unsent
        refine .sent rfl (.plain hOpen hTerminator hLayer ?_) ?_
        · intro hUnbroken
          exact ⟨_, (List.append_nil _).symm, hCarried hUnbroken⟩
        · intro hUnbroken
          change Delivered _ _ _ _ s.isCompressed
          rw [hRaw]
          exact .plain (hCarried hUnbroken)
      · exact .cut fun later hBroken =>
          .plain hOpen hTerminator hLayer fun hUnbroken =>
            absurd hUnbroken hBroken
  | @coded d level handed sent hOpen hTerminator hLayer hInner
      hLevel hSending hBooks =>
      have hCompressed : s.isCompressed = true := by
        rw [Surrogate.isCompressed, hLayer, Layer.isCompressed]
      have hLawful := hKeeps hCompressed level hLevel
      apply (Surrogate.yields_flush_coded hOpen hLayer hLawful
        hInner hSending out).mono
      rintro ⟨r, s'⟩ out' ⟨d', rfl, hInner',
        ⟨more, rfl, rfl, hSending', hText⟩ |
        ⟨⟨e, rfl⟩, hSending'⟩⟩
      · refine .sent rfl
          (.coded hOpen hTerminator rfl hInner' hLevel hSending' ?_)
          ?_
        · intro hUnbroken
          rcases hBooks hUnbroken with
            ⟨early, chosen, late, plain, coded, hTurns, hChosen,
              rfl, hEarly, hSaid, hLate⟩
          refine ⟨early, chosen, late, plain, coded ++ more, hTurns,
            hChosen, List.append_assoc _ _ _, hEarly, ?_,
            hLate.append more⟩
          rw [hSaid, List.append_nil]
        · intro hUnbroken
          rcases hBooks hUnbroken with
            ⟨early, chosen, late, plain, coded, hTurns, rfl, rfl,
              hEarly, hSaid, hLate⟩
          refine .coded hTurns (List.append_assoc _ _ _) hEarly
            (hLate.append more) ?_
          rw [hText, hSaid]
      · exact .cut fun later hBroken =>
          .coded hOpen hTerminator rfl hInner' hLevel hSending'
            fun hUnbroken => absurd hUnbroken hBroken

end Ledger

/-
  A surrogate that is closed or encrypted, of which no books are
  kept.
-/
def Past
    (s : Surrogate κ θ) : Prop :=
  s.closed = true ∨ s.isEncrypted = true

------------------------------------------------------------
-- Changes of the layers
------------------------------------------------------------

namespace Ledger

/-
  A change that is refused leaves the books as they are. One
  that is not begins with a flush; if that is cut short, so are
  the books.
-/
theorem offers_change
    {use : Use θ}
    {c : Change θ}
    (hLedger : Ledger terminator turns s out)
    (hKeeps : s.isCompressed = true → Keeps κ text bound)
    (hFlushes : use.flushes = true)
    (hWritten : use.written terminator = [])
    (hMake : ∀ (s' : Surrogate κ θ) out',
      s'.unsent = [] →
      Ledger terminator turns s' out' →
      Offers (fun _ => True) (s'.makeChange c)
        (fun (r, s') out' =>
          Past s' ∨
            Ledger terminator
              (turns ++ [(use, .ofSurrogate .done r)]) s' out')
        out') :
    Offers (fun _ => True) (s.change c)
      (fun (r, s') out' =>
        Past s' ∨
          Ledger terminator
            (turns ++ [(use, .ofSurrogate .done r)]) s' out')
      out := by
  cases hRefusal : s.refusal c with
  | some e =>
      rw [Surrogate.change_of_refusal hRefusal]
      exact .inr (hLedger.idle (.refl s) hWritten _)
  | none =>
      rw [(Surrogate.change_of_no_refusal hRefusal).2.2,
        Routine.ifOk, offers_bind]
      apply (offers_of_yields (hLedger.yields_flush hKeeps)).mono
      rintro ⟨r, s'⟩ out' hSettles
      cases hSettles with
      | sent hUnsent hSent => exact hMake s' out' hUnsent hSent
      | @cut e _ _ hCut =>
          refine .inr (hCut _ (not_unbroken_concat turns ?_))
          rw [isCut, hFlushes]
          rfl

/- Compression begins with new books behind the old ones. -/
theorem offers_deflate
    (hLedger : Ledger terminator turns s out)
    (hKeeps : s.isCompressed = true → Keeps κ text bound)
    (level : Nat) :
    Offers (fun _ => True) (s.change (.deflate level))
      (fun (r, s') out' =>
        Past s' ∨
          Ledger terminator
            (turns ++
              [(.take (.deflate level), .ofSurrogate .done r)])
            s' out')
      out := by
  apply hLedger.offers_change hKeeps rfl rfl
  intro s' out' hUnsent hSent
  rw [Surrogate.makeChange, Surrogate.startDeflate,
    Surrogate.detachLayer]
  cases hLayer : s'.layer with
  | raw link =>
      have hNew : Sending (min level Layer.highestLevel)
          (DeflateStream.new (κ := κ) link
            (min level Layer.highestLevel)) [] [] :=
        ⟨rfl, 0, .new⟩
      refine .inr (.coded hSent.isOpen hSent.terminator_eq rfl ?_
        (Nat.min_le_right _ _) hNew fun hUnbroken => ?_)
      · have hLink := hSent.link
        rw [hLayer] at hLink
        exact hLink
      · refine ⟨turns, level, [], out', [], rfl, rfl,
          (List.append_nil out').symm, ?_, ?_, .nil⟩
        · cases hSent with
          | plain _ _ _ hBooks =>
              rcases hBooks hUnbroken.of_append with
                ⟨sent, hSaid, hCarried⟩
              rw [hSaid, hUnsent, List.append_nil]
              exact hCarried
          | coded _ _ hOther =>
              rw [hLayer] at hOther
              cases hOther
        · simp only [Surrogate.attachLayer, hUnsent]
          rfl
  | deflate d =>
      refine .inr (hSent.idle ?_ rfl _)
      refine ⟨rfl, rfl, rfl, ?_⟩
      rw [hLayer]
      rfl

/-
  An upgrade to encryption succeeds, or its handshake leaves
  something behind on the pipe and nothing else.
-/
theorem offers_secure
    {use : Use θ}
    (hLedger : Ledger terminator turns s out)
    (hKeeps : s.isCompressed = true → Keeps κ text bound)
    (hFlushes : use.flushes = true)
    (hWritten : use.written terminator = [])
    (hDisturbs : ∀ e,
      disturbs (use, .surrogateFailure (.handshake e)) = true)
    (setup : Except SurrogateError θ.Session)
    (handshake : Surrogate.Handshake θ) :
    Offers (fun _ => True) (s.change (.tls setup handshake))
      (fun (r, s') out' =>
        Past s' ∨
          Ledger terminator
            (turns ++ [(use, .ofSurrogate .done r)]) s' out')
      out := by
  apply hLedger.offers_change hKeeps hFlushes hWritten
  intro s' out' _ hSent
  cases setup with
  | error e => exact .inr (hSent.idle (.refl s') hWritten _)
  | ok session =>
      rw [Surrogate.makeChange, Surrogate.startTls,
        Surrogate.detachLink, hSent.link]
      simp only [offers_bind]
      apply (offers_grows (handshake session) out').mono
      rintro ⟨r, last⟩ _ ⟨noise, rfl⟩
      cases r with
      | ok =>
          refine .inl (.inr ?_)
          rw [Surrogate.isEncrypted, Layer.isEncrypted,
            Surrogate.attachLink, Layer.link_withLink]
          rfl
      | error e =>
          have hBack := s'.attachLink_detachLink .plain
          rw [s'.attachLink_of_link hSent.link] at hBack
          change Past _ ∨ Ledger terminator _
            (s'.detachLink.2.attachLink .plain) _
          rw [hBack]
          refine .inr (hSent.turn ?_ _ ?_)
          · rw [hWritten, List.append_nil]
            exact .refl s'
          · intro hQuiet
            rw [Reply.ofSurrogate, hDisturbs e] at hQuiet
            cases hQuiet

end Ledger

------------------------------------------------------------
-- All uses
------------------------------------------------------------

/- A routine that never sends gives nothing. -/
theorem offers_of_only
    {always : Bytes → Prop}
    {α : Type}
    {p : Routine endpointInterface α}
    {gave : Bytes}
    (hOnly : p.Only fun call => ∀ src, call ≠ .send src) :
    Offers always p (fun _ out => out = gave) gave := by
  induction p with
  | done a => rfl
  | ask call k ih =>
      cases call with
      | send src => exact absurd rfl (hOnly.1 src)
      | _ => exact fun a => ih a (hOnly.2 a)
  | loop body s k ihBody ih =>
      refine ⟨fun _ out => out = gave, rfl, fun s out hOut => ?_⟩
      subst hOut
      apply (ihBody s (hOnly.1 s)).mono
      rintro (s | b) out rfl
      · rfl
      · exact ih b (hOnly.2 b)

/- A step on the endpoint that does not send gives nothing. -/
theorem offers_take_quiet
    {always : Bytes → Prop}
    {step : EndpointStep}
    {gave : Bytes}
    (hQuiet : step.isSend = false) :
    Offers always step.take (fun _ out => out = gave) gave := by
  apply offers_of_only
  have hRead : ∀ room,
      (Endpoint.read room).Only fun call =>
        ∀ src, call ≠ .send src := by
    intro room
    refine ⟨nofun, fun a => ?_⟩
    rcases a with (_ | _) | got <;> trivial
  have hStream : ∀ (e : Endpoint) room,
      (ByteStream.read e room).Only fun call =>
        ∀ src, call ≠ .send src :=
    fun _ room => Routine.Only.bind (hRead room) fun _ => trivial
  cases step with
  | send src => cases hQuiet
  | write src => cases hQuiet
  | writeAll src => cases hQuiet
  | flush => trivial
  | read room => exact (hRead room).bind fun _ => trivial
  | readExact n =>
      refine ⟨fun u => ?_, fun _ => trivial⟩
      rcases u with ⟨e, missing, got⟩
      simp only
      split
      · trivial
      · refine (hStream e missing).bind fun next => ?_
        rcases next with ⟨e | _ | ⟨b, more⟩, e'⟩ <;> trivial
  | readToEnd =>
      refine ⟨fun u => ?_, fun last => ?_⟩
      · refine (hStream u.1 _).bind fun next => ?_
        rcases next with ⟨e | _ | ⟨b, more⟩, e'⟩ <;> trivial
      · rcases last with ⟨got, _ | e, e'⟩ <;> trivial
  | setDeadline direction offset =>
      cases offset with
      | none =>
          rcases direction with _ | _ | _ <;>
            exact ⟨nofun, fun _ => trivial⟩
      | some offset =>
          refine ⟨nofun, fun now => ?_⟩
          rcases direction with _ | _ | _ <;>
            exact ⟨nofun, fun _ => trivial⟩
  | _ => exact ⟨nofun, fun _ => trivial⟩

/- A use that flushes carries the books on, however it ends. -/
theorem Settles.ledger
    {use : Use θ}
    {r : Except SurrogateError Unit}
    {reply : Reply}
    (hSettles : Settles text terminator turns (r, s') out)
    (hWritten : use.written terminator = [])
    (hCut : ∀ e, r = .error (.io e) → isCut (use, reply) = true) :
    Ledger terminator (turns ++ [(use, reply)]) s' out := by
  cases hSettles with
  | sent _ hSent => exact hSent.idle (.refl s') hWritten reply
  | @cut e _ _ hLater =>
      exact hLater _ (not_unbroken_concat turns (hCut e rfl))

/- A step on the endpoint leaves the surrogate as it is. -/
theorem Ledger.offers_endpoint
    (hLedger : Ledger terminator turns s out)
    (step : EndpointStep) :
    Offers (fun _ => True) step.take
      (fun reply out' =>
        Ledger terminator (turns ++ [(.take (.endpoint step), reply)])
          s out')
      out := by
  cases hSend : step.isSend with
  | false =>
      apply (offers_take_quiet hSend).mono
      rintro reply out rfl
      exact hLedger.idle (.refl s) rfl _
  | true =>
      apply (offers_grows step.take out).mono
      rintro reply _ ⟨noise, rfl⟩
      refine hLedger.turn ?_ reply fun hQuiet => ?_
      · exact ⟨rfl, rfl, (List.append_nil _).symm, rfl⟩
      · rw [disturbs, hSend] at hQuiet
        cases hQuiet

/- Every use carries the books on, as long as there are any. -/
theorem Ledger.offers_use
    (hLedger : Ledger terminator turns s out)
    (hKeeps : s.isCompressed = true → Keeps κ text bound)
    (use : Use θ) :
    Offers (fun _ => True) (s.use use)
      (fun (reply, s') out' =>
        Past s' ∨
          Ledger terminator (turns ++ [(use, reply)]) s' out')
      out := by
  have hOpen := ne_true_of_eq_false hLedger.isOpen
  cases use with
  | secure setup handshake =>
      rw [Surrogate.use, offers_bind]
      exact hLedger.offers_secure hKeeps rfl rfl (fun _ => rfl)
        setup handshake
  | take step =>
      rw [Surrogate.use]
      cases step with
      | readLine =>
          rw [Surrogate.take, offers_bind]
          apply (Surrogate.offers_readLine hLedger.link).mono
          rintro ⟨r, s'⟩ out ⟨hHears, rfl⟩
          exact .inr (hLedger.idle hHears rfl _)
      | read room =>
          rw [Surrogate.take, offers_bind]
          apply (Surrogate.offers_read hLedger.link room).mono
          rintro ⟨r, s'⟩ out ⟨hHears, rfl⟩
          exact .inr (hLedger.idle hHears rfl _)
      | readExact n =>
          rw [Surrogate.take, offers_bind]
          apply (Surrogate.offers_readExact hLedger.link n).mono
          rintro ⟨r, s'⟩ out ⟨hHears, rfl⟩
          exact .inr (hLedger.idle hHears rfl _)
      | text => exact fun _ => .inr (hLedger.idle (.refl s) rfl _)
      | writeLine line =>
          rw [Surrogate.take, Surrogate.writeLine, if_neg hOpen]
          refine .inr (hLedger.quiet ?_ _)
          refine ⟨rfl, rfl, ?_, rfl⟩
          rw [hLedger.terminator_eq]
          exact List.append_assoc _ _ _
      | write src =>
          rw [Surrogate.take, Surrogate.write, if_neg hOpen]
          exact .inr (hLedger.quiet ⟨rfl, rfl, rfl, rfl⟩ _)
      | flush =>
          rw [Surrogate.take, offers_bind]
          apply (offers_of_yields (hLedger.yields_flush hKeeps)).mono
          rintro ⟨r, s'⟩ out' hSettles
          refine .inr (hSettles.ledger rfl ?_)
          rintro e rfl
          rfl
      | ioFlush =>
          rw [Surrogate.take, offers_bind]
          change Offers _ (Routine.bind _ _) _ _
          rw [offers_bind]
          apply (offers_of_yields (hLedger.yields_flush hKeeps)).mono
          rintro ⟨r, s'⟩ out' hSettles
          refine .inr (hSettles.ledger rfl ?_)
          rintro e rfl
          rfl
      | deflate level =>
          rw [Surrogate.take, offers_bind]
          exact hLedger.offers_deflate hKeeps level
      | tls =>
          rw [Surrogate.take, offers_bind]
          exact hLedger.offers_secure hKeeps rfl rfl
            (fun _ => rfl) _ _
      | close first =>
          rw [Surrogate.take, offers_bind]
          have hClosed : (s.close first).Always fun (_, s') =>
              s'.closed = true :=
            fun _ => Transcript.closed_of_gives_close
          apply (concludes_of_always hClosed out).mono
          intro _ _ hEnd
          exact .inl (.inl hEnd)
      | endpoint step =>
          rw [Surrogate.take, offers_bind]
          apply (hLedger.offers_endpoint step).mono
          exact fun _ _ => .inr

/- A new surrogate has nothing to send. -/
theorem ledger_new
    (terminator : Bytes) :
    Ledger terminator []
      (Surrogate.new (κ := κ) (θ := θ) terminator) [] :=
  .plain rfl rfl rfl fun _ => ⟨[], rfl, .nil⟩

/- A use of a surrogate takes nothing back either. -/
theorem always_use
    (hConn : s.conn = some .held)
    (use : Use θ) :
    (s.use use).Always fun (_, after) => s.Grows after := by
  cases use with
  | take step => exact s.always_take hConn step
  | secure setup handshake =>
      exact Surrogate.always_reply fun _ hGives =>
        Surrogate.grows_of_change (c := .tls _ _) hConn hGives

/-
  How far the books of a surrogate go: they are kept, or it is
  closed or encrypted, or it compresses with a codec that does
  not keep its laws.
-/
def Booked
    (text : Nat → Bytes → Bytes)
    (bound : Nat → Nat → Nat)
    (terminator : Bytes)
    (turns : List (Turn θ))
    (s : Surrogate κ θ)
    (out : Bytes) : Prop :=
  s.conn = some .held ∧
    (Past s ∨ ¬ (s.isCompressed = true → Keeps κ text bound) ∨
      Ledger terminator turns s out)

/- Where it is none of this, the books are kept. -/
theorem Booked.ledger
    (hBooked : Booked text bound terminator turns s out)
    (hOpen : s.closed = false)
    (hPlain : s.isEncrypted = false)
    (hKeeps : s.isCompressed = true → Keeps κ text bound) :
    Ledger terminator turns s out := by
  rcases hBooked.2 with (hClosed | hSecure) | hBad | hLedger
  · exact absurd hClosed (ne_true_of_eq_false hOpen)
  · exact absurd hSecure (ne_true_of_eq_false hPlain)
  · exact absurd hKeeps hBad
  · exact hLedger

/- The books go as far after every use. -/
theorem Booked.offers_use
    (hBooked : Booked text bound terminator turns s out)
    (use : Use θ) :
    Offers (fun _ => True) (s.use use)
      (fun (reply, s') out' =>
        Booked text bound terminator (turns ++ [(use, reply)]) s'
          out')
      out := by
  rcases hBooked with ⟨hConn, hBooked⟩
  have hGrows := always_use hConn use
  rcases hBooked with hPast | hBad | hLedger
  · apply (concludes_of_always hGrows out).mono
    intro next _ hGrows
    exact ⟨hGrows.conn,
      .inl (hPast.imp hGrows.closed hGrows.encrypted)⟩
  · apply (concludes_of_always hGrows out).mono
    intro next _ hGrows
    refine ⟨hGrows.conn, .inr (.inl fun hKeeps => hBad ?_)⟩
    exact fun hCompressed => hKeeps (hGrows.compressed hCompressed)
  · by_cases hKeeps : s.isCompressed = true → Keeps κ text bound
    · apply ((hLedger.offers_use hKeeps use).and_always hGrows).mono
      intro next _ hNext
      rcases hNext with ⟨hPast | hLedger, hGrows⟩
      · exact ⟨hGrows.conn, .inl hPast⟩
      · exact ⟨hGrows.conn, .inr (.inr hLedger)⟩
    · apply (concludes_of_always hGrows out).mono
      intro next _ hGrows
      refine ⟨hGrows.conn, .inr (.inl fun hLater => hKeeps ?_)⟩
      exact fun hCompressed => hLater (hGrows.compressed hCompressed)

/- So do any uses in a row, each of which is answered. -/
theorem offers_uses
    (hBooked : Booked text bound terminator turns s out)
    (uses : List (Use θ)) :
    Offers (fun _ => True) (Routine.forEach Surrogate.use s uses)
      (fun (replies, s') out' =>
        replies.length = uses.length ∧
          Booked text bound terminator (turns ++ uses.zip replies)
            s' out')
      out := by
  induction uses generalizing turns s out with
  | nil =>
      refine ⟨rfl, ?_⟩
      rw [List.zip_nil_left, List.append_nil]
      exact hBooked
  | cons use uses ih =>
      rw [Routine.forEach, offers_bind]
      apply (hBooked.offers_use use).mono
      rintro ⟨reply, next⟩ out hNext
      rw [offers_bind]
      apply (ih hNext).mono
      rintro ⟨replies, last⟩ out ⟨hLength, hLast⟩
      refine ⟨congrArg (· + 1) hLength, ?_⟩
      rw [List.zip_cons_cons, List.append_cons]
      exact hLast

end

end Shutdown

end Parley
