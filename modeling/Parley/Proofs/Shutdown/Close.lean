import Parley.Tls.Stream
import Parley.Client
import Parley.Proofs.Compression.Stored
import Parley.Proofs.Shutdown.Ledger
import Parley.Proofs.Shutdown.Stages
import Parley.Proofs.Traffic.EndOfStream
/-
  This file shows what closing a surrogate on a plain link comes
  to, with and without compression. Whatever becomes of the last
  flush, both directions of the pipe end and the surrogate is
  closed for good; its result is that of the flush. What the
  pipe has accepted stays to be received by the clients, and the
  end of the stream behind it. If no flush has failed, this is
  all that was written.

  On a compressed link it can be decoded as long as nothing else
  was put on the pipe since compression began. A handshake that
  fails there leaves an alert in the middle of the compressed
  stream, and the client cannot decode what follows.

  Key definitions include:
    * `Surrogate.lastFlush`
    * `Surrogate.Inert`
    * `Shutdown.session`
    * `Shutdown.Shut`
    * `Traffic.Drains`

  Key theorems include:
    * `Surrogate.ends_close_iff`
    * `Shutdown.Ledger.yields_close`
    * `Shutdown.offers_session`
    * `Shutdown.exists_closes_of_session`
    * `Traffic.Run.drains`
    * `Shutdown.close_spec`
    * `Shutdown.alert_within_stream`
-/

namespace Parley

variable {κ : Codec} {θ : Tls.Provider}

------------------------------------------------------------
-- What a close does
------------------------------------------------------------

namespace Routine

/- A routine gives what it can end with in an environment. -/
theorem Ends.gives
    {I : Interface}
    {W α : Type}
    {env : Environment I W}
    {p : Routine I α}
    {a : α}
    {w w' : W}
    (hEnds : Ends env p w a w') :
    p.Gives a := by
  induction hEnds with
  | done a w => exact .done a
  | ask _ _ ih => exact .ask _ ih
  | loop _ ih => exact .loop ih

end Routine

namespace Surrogate

open Routine

variable {s : Surrogate κ θ}

/- The flush before a close, if one is asked for. -/
def lastFlush
    (s : Surrogate κ θ)
    (first : Bool) : Run κ θ Unit :=
  if first then s.flush else .done (.ok (), s)

/- It leaves the link in place, and plain if it was. -/
theorem always_lastFlush
    (hOpen : s.closed = false)
    (hPlain : s.layer.link = .plain)
    (first : Bool) :
    (s.lastFlush first).Always fun (_, sent) =>
      sent.layer.link = .plain := by
  rw [lastFlush]
  split
  · refine (always_flush hOpen).mono ?_
    rintro ⟨r, sent⟩ ⟨-, hFlushed⟩
    have hKinds := hFlushed.kinds
    have hKind : ∀ layer : Layer κ θ,
        layer.kinds.getLast? = some layer.link.kind := by
      intro layer
      cases layer <;> rfl
    have hLink := hKind sent.layer
    rw [hKinds, hKind, hPlain] at hLink
    show sent.layer.link = .plain
    generalize sent.layer.link = link at hLink ⊢
    cases link with
    | plain => rfl
    | tls session => cases hLink
    | detached => cases hLink
  · exact always_done hPlain

/- As long as the link is in place, its endpoint is closed. -/
theorem closeConn_eq
    (hConn : s.conn = some .held) :
    s.closeConn = Endpoint.close := by
  rw [closeConn, hConn]

/- On a plain link a close sends nothing behind its flush. -/
theorem ends_sendForClose_iff
    (hOpen : s.closed = false)
    (hPlain : s.layer.link = .plain)
    {first : Bool}
    {W : Type}
    (env : Environment endpointInterface W)
    (w : W)
    (r : Except SurrogateError Unit)
    (sent : Surrogate κ θ)
    (w' : W) :
    Ends env (if first then s.flushForClose else .done (.ok (), s))
        w (r, sent) w' ↔
      Ends env (s.lastFlush first) w (r, sent) w' := by
  have hAlways := always_lastFlush hOpen hPlain first
  rw [lastFlush] at hAlways ⊢
  cases first with
  | false => exact Iff.rfl
  | true =>
      simp only [if_true] at hAlways ⊢
      rw [flushForClose, ifOk, ends_bind_iff]
      constructor
      · rintro ⟨⟨r', sent'⟩, mid, hEnds, hRest⟩
        have hLink := hAlways _ hEnds.gives
        simp only at hLink
        cases r' with
        | error e =>
            cases hRest
            exact hEnds
        | ok =>
            simp only [hLink] at hRest
            cases hRest
            exact hEnds
      · intro hEnds
        have hLink := hAlways _ hEnds.gives
        simp only at hLink
        refine ⟨_, _, hEnds, ?_⟩
        cases r with
        | error e => exact .done _ _
        | ok =>
            simp only [hLink]
            exact .done _ _

/-
  In every environment a close ends as its flush does, with a
  close of the endpoint behind it and the surrogate closed.
-/
theorem ends_close_iff
    (hOpen : s.closed = false)
    (hPlain : s.layer.link = .plain)
    {first : Bool}
    {W : Type}
    (env : Environment endpointInterface W)
    (w : W)
    (r : Except SurrogateError Unit)
    (s' : Surrogate κ θ)
    (w' : W) :
    Ends env (s.close first) w (r, s') w' ↔
      ∃ sent mid,
        Ends env (s.lastFlush first) w (r, sent) mid ∧
          s' = { sent with closed := true } ∧
          env.answers mid .close () w' := by
  have hConn : ∀ {r sent mid},
      Ends env (s.lastFlush first) w (r, sent) mid →
      sent.closeConn = Endpoint.close := by
    intro r sent mid hEnds
    have hLink := always_lastFlush hOpen hPlain first _ hEnds.gives
    simp only at hLink
    exact closeConn_eq (by rw [conn, hLink, Link.conn])
  rw [close, if_neg (ne_true_of_eq_false hOpen), ends_bind_iff]
  constructor
  · rintro ⟨⟨r', sent⟩, mid, hEnds, hClose⟩
    rw [ends_sendForClose_iff hOpen hPlain] at hEnds
    simp only [hConn hEnds] at hClose
    cases hClose with
    | ask hAnswers hRest =>
        cases hRest
        exact ⟨sent, mid, hEnds, rfl, hAnswers⟩
  · rintro ⟨sent, mid, hEnds, rfl, hAnswers⟩
    refine ⟨(r, sent), mid,
      (ends_sendForClose_iff hOpen hPlain ..).mpr hEnds, ?_⟩
    simp only [hConn hEnds]
    exact .ask hAnswers (.done _ _)

/-
  A surrogate on which every call is over at once and leaves it
  as it is: a close succeeds, and whatever else is asked of it
  fails.
-/
structure Inert
    (s : Surrogate κ θ) : Prop where
  close : ∀ first, s.close first = .done (.ok (), s)
  writeLine : ∀ line, s.writeLine line = .done (.error .closed, s)
  readLine : s.readLine = .done (.error .closed, s)
  flush : s.flush = .done (.error .closed, s)
  enableDeflate :
    ∀ level, s.enableDeflate level = .done (.error .closed, s)
  enableTls : s.enableTls = .done (.error .closed, s)
  enableTlsWith :
    ∀ setup handshake,
      s.enableTlsWith setup handshake = .done (.error .closed, s)

/- A closed surrogate is such a one. -/
theorem inert_of_closed
    (hClosed : s.closed = true) :
    s.Inert where
  close _ := if_pos hClosed
  writeLine _ := if_pos hClosed
  readLine := if_pos hClosed
  flush := if_pos hClosed
  enableDeflate _ := if_pos hClosed
  enableTls := if_pos hClosed
  enableTlsWith _ _ := if_pos hClosed

end Surrogate

namespace Shutdown

open Outflow Traffic

section

variable {text : Nat → Bytes → Bytes} {bound : Nat → Nat → Nat}
variable {terminator : Bytes} {turns : List (Turn θ)}
variable {s : Surrogate κ θ} {out : Bytes}

/- Once a flush has failed, the books say nothing of what is out. -/
theorem Ledger.of_broken
    {later : List (Turn θ)}
    (hLedger : Ledger terminator turns s out)
    (hBroken : ¬ Unbroken later)
    (out' : Bytes) :
    Ledger terminator later s out' := by
  cases hLedger with
  | plain hOpen hTerminator hLayer =>
      exact .plain hOpen hTerminator hLayer
        fun hUnbroken => absurd hUnbroken hBroken
  | coded hOpen hTerminator hLayer hInner hLevel hSending =>
      exact .coded hOpen hTerminator hLayer hInner hLevel hSending
        fun hUnbroken => absurd hUnbroken hBroken

/-
  How a close ends: the surrogate is closed, and if its flush was
  to succeed and did, all that was written has gone out.
-/
structure Closes
    (text : Nat → Bytes → Bytes)
    (terminator : Bytes)
    (turns : List (Turn θ))
    (first : Bool)
    (next : Except SurrogateError Unit × Surrogate κ θ)
    (out : Bytes) : Prop where
  closed : next.2.closed = true
  delivered :
    first = true → next.1 = .ok () → Unbroken turns →
      Delivered text terminator turns out next.2.isCompressed

/- When the flush is over, what is left closes the endpoint. -/
theorem yields_shut
    {r : Except SurrogateError Unit}
    {first : Bool}
    (hConn : s.conn = some .held)
    (hDelivered :
      first = true → r = .ok () → Unbroken turns →
        Delivered text terminator turns out s.isCompressed) :
    Routine.Yields outlet (Closes text terminator turns first)
      (s.closeConn.bind fun _ => .done (r, { s with closed := true }))
      out := by
  rw [Surrogate.closeConn_eq hConn]
  refine .ask trivial ?_
  rintro _ _ rfl
  exact .done ⟨rfl, hDelivered⟩

/-
  A close comes to an end, whatever becomes of the sends of its
  flush. If that succeeds, all that was written has gone out.
-/
theorem Ledger.yields_close
    (hLedger : Ledger terminator turns s out)
    (hKeeps : s.isCompressed = true → Keeps κ text bound)
    (first : Bool) :
    Routine.Yields outlet (Closes text terminator turns first)
      (s.close first) out := by
  rw [Surrogate.close,
    if_neg (ne_true_of_eq_false hLedger.isOpen)]
  cases first with
  | false =>
      refine yields_shut hLedger.conn ?_
      rintro ⟨⟩
  | true =>
      rw [if_pos rfl, Surrogate.flushForClose, Routine.ifOk,
        Routine.bind_assoc]
      apply (hLedger.yields_flush hKeeps).bind
      rintro ⟨r, sent⟩ out' hSettles
      cases hSettles with
      | sent _ hSent hDelivered =>
          simp only [hSent.link, Routine.done_bind]
          exact yields_shut hSent.conn fun _ _ => hDelivered
      | @cut e _ _ hCut =>
          have hLate : Ledger terminator
              [(.take .flush, .surrogateFailure (.io e))] sent
              out' :=
            hCut _ (not_unbroken_concat [] rfl)
          refine yields_shut hLate.conn ?_
          rintro - ⟨⟩

end

------------------------------------------------------------
-- Sessions
------------------------------------------------------------

/-
  What there is at the end of a session: what its uses answered,
  the surrogate before it was closed, what the close came to,
  and the surrogate then.
-/
structure Ending (κ : Codec) (θ : Tls.Provider) where
  replies : List Reply
  before : Surrogate κ θ
  result : Except SurrogateError Unit
  after : Surrogate κ θ

/- Use a new surrogate in these ways, and close it. -/
def session
    (terminator : Bytes)
    (uses : List (Use θ))
    (first : Bool) : Routine endpointInterface (Ending κ θ) :=
  (Routine.forEach Surrogate.use (Surrogate.new terminator)
    uses).bind fun (replies, before) =>
      (before.close first).bind fun (result, after) =>
        .done ⟨replies, before, result, after⟩

/- All the uses of a session, each with its answer. -/
def Ending.turns
    (e : Ending κ θ)
    (uses : List (Use θ)) : List (Turn θ) :=
  uses.zip e.replies

/-
  What was given over a session whose surrogate was open and not
  encrypted when it was closed.
-/
theorem offers_session
    (text : Nat → Bytes → Bytes)
    (bound : Nat → Nat → Nat)
    (terminator : Bytes)
    (uses : List (Use θ))
    (first : Bool) :
    Offers (fun _ => True)
      (session (κ := κ) (θ := θ) terminator uses first)
      (fun e out =>
        e.replies.length = uses.length ∧
          e.before.conn = some .held ∧
          (e.before.closed = false →
            e.before.isEncrypted = false →
            (e.before.isCompressed = true → Keeps κ text bound) →
            ∃ gave,
              Ledger terminator (e.turns uses) e.before gave ∧
                Closes text terminator (e.turns uses) first
                  (e.result, e.after) out))
      [] := by
  have hBooked : Booked text bound terminator []
      (Surrogate.new (κ := κ) (θ := θ) terminator) [] :=
    ⟨rfl, .inr (.inr (ledger_new terminator))⟩
  rw [session, offers_bind]
  apply (offers_uses hBooked uses).mono
  rintro ⟨replies, before⟩ out ⟨hLength, hBooked⟩
  rw [List.nil_append] at hBooked
  have hConn := hBooked.1
  rw [offers_bind]
  by_cases hThere : before.closed = false ∧
      before.isEncrypted = false ∧
      (before.isCompressed = true → Keeps κ text bound)
  · rcases hThere with ⟨hOpen, hPlain, hKeeps⟩
    have hLedger := hBooked.ledger hOpen hPlain hKeeps
    apply (offers_of_yields
      (hLedger.yields_close hKeeps first)).mono
    rintro ⟨result, after⟩ out' hCloses
    exact ⟨hLength, hConn, fun _ _ _ => ⟨out, hLedger, hCloses⟩⟩
  · apply (concludes_trivial (before.close first) out).mono
    intro next _ _
    refine ⟨hLength, hConn, fun hOpen hPlain hKeeps => ?_⟩
    exact absurd ⟨hOpen, hPlain, hKeeps⟩ hThere

/- What a session ends with comes of a close. -/
theorem gives_close_of_session
    {terminator : Bytes}
    {uses : List (Use θ)}
    {first : Bool}
    {e : Ending κ θ}
    (hGives : (session terminator uses first).Gives e) :
    (e.before.close first).Gives (e.result, e.after) := by
  rcases Routine.gives_bind hGives with ⟨⟨_, _⟩, -, hRest⟩
  rcases Routine.gives_bind hRest with ⟨⟨_, _⟩, hClose, hEnd⟩
  cases hEnd
  exact hClose

/- A close without a flush closes and does nothing else. -/
theorem eq_of_gives_close_false
    {s s' : Surrogate κ θ}
    {r : Except SurrogateError Unit}
    (hOpen : s.closed = false)
    (hGives : (s.close false).Gives (r, s')) :
    r = .ok () ∧ s' = { s with closed := true } := by
  rw [Surrogate.close, if_neg (ne_true_of_eq_false hOpen)]
    at hGives
  rcases Routine.gives_bind hGives with ⟨⟨_, _⟩, hNone, hShut⟩
  cases hNone
  rcases Routine.gives_bind hShut with ⟨_, -, hEnd⟩
  cases hEnd
  exact ⟨rfl, rfl⟩

/- A link that is in place and not encrypted is plain. -/
theorem link_eq_plain
    {s : Surrogate κ θ}
    (hConn : s.conn = some .held)
    (hPlain : s.isEncrypted = false) :
    s.layer.link = .plain := by
  rw [Surrogate.conn] at hConn
  rw [Surrogate.isEncrypted, Layer.isEncrypted] at hPlain
  generalize s.layer.link = link at hConn hPlain ⊢
  cases link with
  | plain => rfl
  | tls session => cases hPlain
  | detached => cases hConn

end Shutdown

------------------------------------------------------------
-- Directions that have ended
------------------------------------------------------------

namespace Traffic

variable {ι : Type} [DecidableEq ι] {R : ι → Type}

/-
  What is left for the reader at side `s` of a direction that
  has ended: the rest of what was accepted for it, less what a
  clear threw away. Every read gets some of it as long as there
  is any, and is told of the end of the stream then.
-/
structure Drains
    (s : Side)
    (log : List (Visit ι))
    (t : Traffic R) : Prop where
  rest :
    delivered s log ++ (t.pipe.queues.get s).unread = kept s log
  whole :
    (∀ v ∈ log, v.call ≠ .clear) → kept s log = accepted s log
  more :
    (t.pipe.queues.get s).unread ≠ [] →
    ∀ room stage now,
      room ≠ 0 → stage.timer.hasExpired now = false →
      ((Call.recv room).look stage t.pipe s now).1 =
        .answer (.ok ((t.pipe.queues.get s).unread.take room))
  last :
    (t.pipe.queues.get s).unread = [] →
    ∀ room stage now,
      ((Call.recv room).look stage t.pipe s now).1 =
        .answer (.error .endOfStream)

/- Once an end has closed, so it is for every end that has not. -/
theorem Run.drains
    {seat : ι → Side}
    {nameA nameB : String}
    {capacity : Nat}
    {routines : (i : ι) → Routine endpointInterface (R i)}
    {log : List (Visit ι)}
    {t : Traffic R}
    (hRun :
      Run seat (new (.pair nameA nameB capacity) routines) log t)
    (hClosed : ∃ v ∈ log, ∃ r, v.closes r)
    {s : Side}
    (hOpen : ∀ v ∈ log, ¬ v.closes s) :
    Drains s log t where
  rest := by
    rcases (hRun.balanced s).balance with ⟨rest, hKept, hRest⟩
    rw [hKept, hRest (hRun.isReleased_eq_false hOpen)]
  whole := kept_eq_accepted s
  more hUnread _ _ _ hRoom hTimer :=
    Call.look_recv_of_unread hUnread hTimer hRoom
  last := by
    intro hUnread room stage now
    have hEnd : t.pipe.isClosed s = true :=
      ((hRun.sound (.pair nameA nameB capacity)).isClosed_iff s).mpr
        ⟨(hRun.eof_iff s).mpr hClosed, hUnread⟩
    rw [Call.look_recv_of_isClosed hEnd]

/- After a close nothing more is accepted. -/
theorem Run.accepted_append_of_closes
    {seat : ι → Side}
    {nameA nameB : String}
    {capacity : Nat}
    {routines : (i : ι) → Routine endpointInterface (R i)}
    {log more : List (Visit ι)}
    {t u : Traffic R}
    (hRun :
      Run seat (new (.pair nameA nameB capacity) routines) log t)
    (hClosed : ∃ v ∈ log, ∃ r, v.closes r)
    (hMore : Run seat t more u)
    (s : Side) :
    accepted s (log ++ more) = accepted s log := by
  have hNone : accepted s more = [] := by
    rw [accepted, List.flatMap_eq_nil_iff]
    intro v hMember
    exact hRun.accepted_eq_nil_of_closes hClosed hMore hMember s
  have hSplit : accepted s (log ++ more) =
      accepted s log ++ accepted s more :=
    List.flatMap_append
  rw [hSplit, hNone, List.append_nil]

end Traffic

------------------------------------------------------------
-- Closing always closes
------------------------------------------------------------

namespace Shutdown

open Outflow Traffic

section

variable {ι : Type} [DecidableEq ι] {R : ι → Type}
variable {clients : (i : ι) → Routine endpointInterface (R i)}
variable {home : Side} {nameA nameB : String} {capacity : Nat}
variable {terminator : Bytes} {uses : List (Use θ)} {first : Bool}
variable {log : List (Visit (Option ι))} {e : Ending κ θ}
variable {t : Traffic (Result (Ending κ θ) R)}

/-
  A session whose surrogate was open with its link in place has
  closed the endpoint when it is over.
-/
theorem exists_closes_of_session
    (hRun :
      Run (seat home)
        (new (.pair nameA nameB capacity)
          (routines (session terminator uses first) clients))
        log t)
    (hDone : t.parties none = .ready (.done e))
    (hOpen : e.before.closed = false)
    (hConn : e.before.conn = some .held) :
    ∃ v ∈ log, v.closes home := by
  rcases hRun.exists_end_of_bind (i := none) rfl hDone with
    ⟨⟨replies, before⟩, earlier, mid, later, -, rfl, -, hThere,
      hLater⟩
  rcases Routine.gives_bind (hLater.gives_of_done hThere hDone)
    with ⟨⟨r, after⟩, -, hEnd⟩
  cases hEnd
  simp only at hOpen hConn hThere
  rw [Surrogate.close, if_neg (ne_true_of_eq_false hOpen),
    Routine.bind_assoc] at hThere
  rcases hLater.exists_end_of_bind hThere hDone with
    ⟨⟨r', sent⟩, first', mid', later', hGives, rfl, -, hShut,
      hLast⟩
  have hStays := before.always_sendForClose hOpen first _ hGives
  simp only [Surrogate.closeConn_eq (hStays.conn hConn)] at hShut
  rcases hLast.exists_visit_of_ask hShut hDone with
    ⟨v, hMember, hSide, hCall⟩
  refine ⟨v, ?_, hSide, ?_⟩
  · exact List.mem_append_right _ (List.mem_append_right _ hMember)
  · rcases v with ⟨party, side, call, stage, now, pipe⟩
    cases hCall
    rfl

/-
  What there is when a session is over, for a surrogate that was
  open and not encrypted before its close.
-/
structure Shut
    (home : Side)
    (terminator : Bytes)
    (uses : List (Use θ))
    (first : Bool)
    (log : List (Visit (Option ι)))
    (t : Traffic (Result (Ending κ θ) R))
    (e : Ending κ θ) : Prop where
  /- Every use was answered. -/
  answered : e.replies.length = uses.length
  /- The surrogate is closed, and every later call sees it. -/
  closed : e.after.closed = true
  inert : e.after.Inert
  /- Both directions of the pipe have ended. -/
  ended : ∀ side, (t.pipe.queues.get side).eof = true
  /-
    What was accepted stays to be received, with the end of the
    stream behind it, as long as the clients do not close.
  -/
  drains :
    ∀ more u,
      Run (seat home) t more u →
      accepted home.other (log ++ more) = accepted home.other log ∧
        ((∀ v ∈ log ++ more, ¬ v.closes home.other) →
          Drains home.other (log ++ more) u)
  /- Without a flush a close succeeds and does nothing else. -/
  unflushed :
    first = false →
      e.result = .ok () ∧ e.after = { e.before with closed := true }
  /- The result is that of the flush, wherever this may end. -/
  flushed :
    ∀ {W : Type} (env : Environment endpointInterface W) w r s' w',
      Routine.Ends env (e.before.close first) w (r, s') w' ↔
        ∃ sent mid,
          Routine.Ends env (e.before.lastFlush first) w (r, sent)
              mid ∧
            s' = { sent with closed := true } ∧
            env.answers mid .close () w'
  /- A close comes to its end whatever its sends are answered. -/
  yields :
    ∀ text bound,
      (e.before.isCompressed = true → Keeps κ text bound) →
      ∀ gave,
        Routine.Yields outlet (fun (_, s') _ => s'.closed = true)
          (e.before.close first) gave
  /- If no flush has failed, all that was written has gone out. -/
  delivered :
    ∀ text bound,
      (e.before.isCompressed = true → Keeps κ text bound) →
      first = true → e.result = .ok () → Unbroken (e.turns uses) →
      Delivered text terminator (e.turns uses)
        (accepted home.other log) e.after.isCompressed

/-
  A session in which the surrogate is open and not encrypted
  before it is closed ends so, in every run against any clients.
-/
theorem close_spec
    (hRun :
      Run (seat home)
        (new (.pair nameA nameB capacity)
          (routines (session terminator uses first) clients))
        log t)
    (hDone : t.parties none = .ready (.done e))
    (hOpen : e.before.closed = false)
    (hPlain : e.before.isEncrypted = false) :
    Shut home terminator uses first log t e := by
  have hBooks := fun text bound =>
    (given_of_run hRun trivial
      (offers_session text bound terminator uses first)).2 e hDone
  rcases hBooks (fun _ => id) (fun _ => id) with
    ⟨hLength, hConn, -⟩
  have hLink := link_eq_plain hConn hPlain
  have hGives : (e.before.close first).Gives (e.result, e.after) :=
    gives_close_of_session (hRun.gives_of_done rfl hDone)
  have hClosed := Transcript.closed_of_gives_close hGives
  have hEnd : ∃ v ∈ log, ∃ r, v.closes r := by
    rcases exists_closes_of_session hRun hDone hOpen hConn with
      ⟨v, hMember, hCloses⟩
    exact ⟨v, hMember, home, hCloses⟩
  refine {
    answered := hLength
    closed := hClosed
    inert := Surrogate.inert_of_closed hClosed
    ended := fun side => (hRun.eof_iff side).mpr hEnd
    drains := ?_
    unflushed := ?_
    flushed := Surrogate.ends_close_iff hOpen hLink
    yields := ?_
    delivered := ?_ }
  · intro more u hMore
    refine ⟨hRun.accepted_append_of_closes hEnd hMore _, ?_⟩
    rcases hEnd with ⟨v, hMember, hCloses⟩
    exact (hRun.append hMore).drains
      ⟨v, List.mem_append_left more hMember, hCloses⟩
  · rintro rfl
    exact eq_of_gives_close_false hOpen hGives
  · intro text bound hKeeps gave
    rcases (hBooks text bound).2.2 hOpen hPlain hKeeps with
      ⟨_, hLedger, -⟩
    have hBroken :
        ¬ Unbroken (θ := θ)
          [(.take .flush, .ioFailure .shortOutput)] :=
      not_unbroken_concat [] rfl
    have hYields := (hLedger.of_broken hBroken gave).yields_close
      hKeeps first
    exact hYields.mono fun _ _ hCloses => hCloses.closed
  · intro text bound hKeeps
    rcases (hBooks text bound).2.2 hOpen hPlain hKeeps with
      ⟨_, -, hCloses⟩
    exact hCloses.delivered

end

/-
  Compression begins, a handshake fails, and one letter is
  written behind it.
-/
def alertUses : List (Use Tls.transparent) :=
  [.take (.deflate 0), .take .tls, .take (.write [120])]

/-
  A session with these uses. The client sends a word that opens
  no handshake, and decodes all that comes back.
-/
def alertRoutines :
    (i : Option Unit) →
      Routine endpointInterface
        (Result (Ending rawDeflate Tls.transparent)
          (fun _ => Except IoError Bytes) i) :=
  routines (session [13, 10] alertUses true) fun _ =>
    ((Client.new (κ := rawDeflate) (θ := Tls.transparent)
      [13, 10]).send
        [104, 101, 108, 108, 111]).bind fun (_, c) =>
      (c.enableDeflate 0).2.readToEnd.bind fun (got, _) =>
        .done got

/- The run, up to the point where the client gives up. -/
def alertRun :
    List (Visit (Option Unit)) ×
      Traffic (Result (Ending rawDeflate Tls.transparent)
        fun _ : Unit => Except IoError Bytes) :=
  playPaced (seat .b)
    (List.replicate 3 (0, some ()) ++
      List.replicate 30 (0, none) ++
      List.replicate 10 (0, some ()))
    (new (.pair "client" "server" 32) alertRoutines)

/- What there is when the session is over. -/
def alerted : Ending rawDeflate Tls.transparent :=
  (alertRun.2.parties none).result?.get (by decide +kernel)

/-
  No flush has failed and the last one has sent the letter, but
  the client stops at the alert, which stands before it.
-/
theorem alert_within_stream :
    Run (seat .b) (new (.pair "client" "server" 32) alertRoutines)
        alertRun.1 alertRun.2 ∧
      alertRun.2.parties none = .ready (.done alerted) ∧
      alerted.before.closed = false ∧
      alerted.before.isEncrypted = false ∧
      alerted.before.isCompressed = true ∧
      alerted.result = .ok () ∧
      Unbroken (alerted.turns alertUses) ∧
      said [13, 10] (alerted.turns alertUses) = [120] ∧
      accepted .a alertRun.1 =
        [0, 0, 0, 255, 255] ++ [21, 3, 3, 0, 2, 2, 50] ++
          [0, 1, 0, 254, 255, 120, 0, 0, 0, 255, 255] ∧
      alertRun.2.parties (some ()) =
        .ready (.done (.error (.inflate .corrupt))) := by
  have hAccepted : accepted .a alertRun.1 =
      [0, 0, 0, 255, 255] ++ [21, 3, 3, 0, 2, 2, 50] ++
        [0, 1, 0, 254, 255, 120, 0, 0, 0, 255, 255] := by
    decide +kernel
  refine ⟨run_playPaced _ _ _, ?_, by decide +kernel,
    by decide +kernel, by decide +kernel, by decide +kernel,
    by decide +kernel, by decide +kernel, hAccepted, ?_⟩
  · exact Party.eq_ready_of_result? (Option.some_get _).symm
  · have hGot :
        Party.result? (α := Except IoError Bytes)
            (alertRun.2.parties (some ())) =
          some (.error (.inflate .corrupt)) := by
      decide +kernel
    exact Party.eq_ready_of_result? hGot

/- One letter is written as it is and one compressed. -/
def letterUses : List (Use θ) :=
  [.take (.write [104]), .take (.deflate 0), .take (.write [105])]

/- A session with these uses, and a client that receives once. -/
def letterRoutines
    (κ : Codec)
    (θ : Tls.Provider) :
    (i : Option Unit) →
      Routine endpointInterface
        (Result (Ending κ θ) (fun _ => Except PipeError Bytes) i) :=
  routines (session [13, 10] letterUses true) fun _ =>
    Endpoint.recv 32

/- The run: the client receives when the session is over. -/
def letterRun
    (κ : Codec)
    (θ : Tls.Provider) :
    List (Visit (Option Unit)) ×
      Traffic (Result (Ending κ θ)
        fun _ : Unit => Except PipeError Bytes) :=
  playPaced (seat .b)
    (List.replicate 30 (0, none) ++ List.replicate 4 (0, some ()))
    (new (.pair "client" "server" 32) (letterRoutines κ θ))

/- What there is when the session is over. -/
def lettered : Ending storedCodec Tls.transparent :=
  ((letterRun storedCodec Tls.transparent).2.parties none).result?.get
    (by decide +kernel)

theorem close_spec_of_letters :
    Shut .b [13, 10] letterUses true
        (letterRun storedCodec Tls.transparent).1
        (letterRun storedCodec Tls.transparent).2 lettered ∧
      lettered.result = .ok () ∧
      Delivered (fun _ => Stored.text) [13, 10]
        (lettered.turns letterUses)
        (accepted .a (letterRun storedCodec Tls.transparent).1) true ∧
      accepted .a (letterRun storedCodec Tls.transparent).1 =
        accepted .a (letterRun rawDeflate Tls.transparent).1 := by
  have hDone :
      (letterRun storedCodec Tls.transparent).2.parties none =
        .ready (.done lettered) :=
    Party.eq_ready_of_result? (Option.some_get _).symm
  have hShut :=
    close_spec (run_playPaced _ _ _) hDone (by decide +kernel)
      (by decide +kernel)
  have hKeeps : Keeps storedCodec (fun _ => Stored.text)
      (fun _ => (6 * ·)) :=
    fun level _ => lawful_storedCodec level
  have hResult : lettered.result = .ok () := by decide +kernel
  have hCompressed : lettered.after.isCompressed = true := by
    decide +kernel
  have hDelivered := hShut.delivered _ _ (fun _ => hKeeps) rfl
    hResult (by decide +kernel)
  rw [hCompressed] at hDelivered
  exact ⟨hShut, hResult, hDelivered, by decide +kernel⟩

end Shutdown

end Parley
