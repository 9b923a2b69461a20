import Parley.Tls.Stream
import Parley.Proofs.Upgrade.Sessions
/-
  This file shows that sessions that hide nothing are lawful.
  The bytes that the server's end has sent and those that it has
  queued make up one stream; sending moves the line between
  them, and only queueing makes it longer. So the first byte is
  settled by what is queued first: the answer to the hello of
  the client, which is a handshake message, or, if that was no
  hello, an alert.

  Key definitions include:
    * `Session.stream`
    * `Session.Greets`
    * `Session.Opened`

  Key theorems include:
    * `Session.greets_takeRecords`
    * `Session.opened_process`
    * `Session.offers_exchange`
    * `Session.always_exchange`
    * `Session.concludes_flush`
    * `lawful_transparent`
-/

namespace Parley.Tls

namespace Session

open Routine Outflow

variable {s s' : Session} {sent out : Bytes}

------------------------------------------------------------
-- The stream of a session
------------------------------------------------------------

/- All that a session has sent, and what it has queued. -/
def stream
    (s : Session)
    (sent : Bytes) : Bytes :=
  sent ++ (s.outgoing.map fun chunk => chunk.1).flatten

/- A chunk of some bytes has these bytes and no others. -/
theorem flatten_ofBytes?
    (src : Bytes) :
    ((Chunk.ofBytes? src).toList.map fun chunk => chunk.1).flatten =
      src := by
  cases src with
  | nil => rfl
  | cons b rest => simp [Chunk.ofBytes?]

theorem stream_queue
    (s : Session)
    (r : Record)
    (sent : Bytes) :
    (s.queue r).stream sent = s.stream sent ++ r.encode := by
  simp [stream, queue, Record.chunk]

/- What was sent is where the stream begins. -/
theorem isPrefix_stream
    (s : Session)
    (sent : Bytes) :
    sent <+: s.stream sent :=
  List.prefix_append sent _

/-
  The server waits for the hello and has nothing to say yet, or
  has begun with a handshake message.
-/
def Greets
    (stage : Stage)
    (stream : Bytes) : Prop :=
  stage = .clientHello ∧ stream = [] ∨
    ∃ rest, stream = Record.handshake :: rest

/- The server has begun with a handshake message or an alert. -/
def Speaks
    (_ : Stage)
    (stream : Bytes) : Prop :=
  Opens openingTypes stream

theorem Greets.speaks
    {stage : Stage}
    {stream : Bytes}
    (hGreets : Greets stage stream) :
    Speaks stage stream := by
  rcases hGreets with ⟨-, rfl⟩ | ⟨rest, rfl⟩
  · exact .nil openingTypes
  · exact .cons List.mem_cons_self rest

theorem Greets.opens
    {stage : Stage}
    {stream : Bytes}
    (hGreets : Greets stage stream) :
    Opens [Record.handshake] stream := by
  rcases hGreets with ⟨-, rfl⟩ | ⟨rest, rfl⟩
  · exact .nil _
  · exact .cons List.mem_cons_self rest

------------------------------------------------------------
-- What is queued
------------------------------------------------------------

/- What is in a sealed record queues nothing. -/
theorem takeSealed_cases
    {r : Record}
    (hTaken : s.takeSealed r = .ok s') :
    s'.stage = s.stage ∧ s'.outgoing = s.outgoing := by
  unfold takeSealed at hTaken
  split at hTaken
  · cases hTaken
    exact ⟨rfl, rfl⟩
  · split at hTaken
    · split at hTaken <;> cases hTaken
      exact ⟨rfl, rfl⟩
    · cases hTaken
      exact ⟨rfl, rfl⟩

/- A record that is taken in keeps the greeting a greeting. -/
theorem greets_takeRecord
    {r : Record}
    (hTaken : s.takeRecord r = .ok s')
    (hGreets : Greets s.stage (s.stream sent)) :
    Greets s'.stage (s'.stream sent) := by
  -- What is queued goes behind a handshake message, or is one.
  have hQueued : ∀ (u : Session) (q : Record),
      u.outgoing = s.outgoing →
      (s.stage = .clientHello → q.contentType = Record.handshake) →
      Greets (u.queue q).stage ((u.queue q).stream sent) := by
    intro u q hSame hFirst
    rw [stream_queue, stream, hSame]
    rcases hGreets with ⟨hStage, hNone⟩ | ⟨rest, hSome⟩
    · rw [stream] at hNone
      rw [hNone, Record.encode, hFirst hStage]
      exact .inr ⟨_, rfl⟩
    · rw [stream] at hSome
      rw [hSome]
      exact .inr ⟨_, rfl⟩
  unfold takeRecord at hTaken
  split at hTaken
  · split at hTaken
    · split at hTaken
      · rcases takeSealed_cases hTaken with ⟨hStage, hOutgoing⟩
        rw [stream, hStage, hOutgoing]
        exact hGreets
      · cases hTaken
    · cases hTaken
  · split at hTaken
    · split at hTaken <;> cases hTaken
    · split at hTaken
      · split at hTaken <;> cases hTaken
        exact hQueued _ _ rfl fun _ => rfl
      · next hStage =>
          split at hTaken <;> cases hTaken
          exact hQueued _ _ rfl fun hHello => by
            rw [hStage] at hHello
            cases hHello
      · next hHello _ =>
          split at hTaken <;> cases hTaken
          exact hQueued _ _ rfl fun hStage =>
            absurd hStage hHello

/- An open session stays open. -/
theorem established_takeRecord
    {r : Record}
    (hTaken : s.takeRecord r = .ok s')
    (hOpen : s.stage = .established) :
    s'.stage = .established := by
  rw [takeRecord, if_pos hOpen] at hTaken
  split at hTaken
  · split at hTaken
    · rw [(takeSealed_cases hTaken).1]
      exact hOpen
    · cases hTaken
  · cases hTaken

/- What every record keeps true, all that have arrived keep. -/
theorem keeps_takeRecords
    (keeps : Stage → List Chunk → Prop)
    (hRecord : ∀ (s s' : Session) (r : Record),
      s.takeRecord r = .ok s' →
      keeps s.stage s.outgoing → keeps s'.stage s'.outgoing)
    {fuel : Nat}
    (hTaken : takeRecords fuel s = .ok s')
    (hKeeps : keeps s.stage s.outgoing) :
    keeps s'.stage s'.outgoing := by
  induction fuel generalizing s with
  | zero =>
      cases hTaken
      exact hKeeps
  | succ fuel ih =>
      rw [takeRecords] at hTaken
      split at hTaken
      · cases hTaken
        exact hKeeps
      · split at hTaken
        · cases hTaken
        · cases hTaken
          exact hKeeps
        · split at hTaken
          · cases hTaken
          · next rest _ _ _ hFirst =>
              exact ih hTaken
                (hRecord { s with incoming := rest } _ _ hFirst
                  hKeeps)

/- So the greeting stays a greeting. -/
theorem greets_takeRecords
    {fuel : Nat}
    (hTaken : takeRecords fuel s = .ok s')
    (hGreets : Greets s.stage (s.stream sent)) :
    Greets s'.stage (s'.stream sent) :=
  keeps_takeRecords
    (fun stage outgoing =>
      Greets stage
        (sent ++ (outgoing.map fun chunk => chunk.1).flatten))
    (fun _ _ _ hFirst => greets_takeRecord hFirst) hTaken hGreets

/- And an open session stays open. -/
theorem established_takeRecords
    {fuel : Nat}
    (hTaken : takeRecords fuel s = .ok s')
    (hOpen : s.stage = .established) :
    s'.stage = .established :=
  keeps_takeRecords (fun stage _ => stage = .established)
    (fun _ _ _ hFirst => established_takeRecord hFirst) hTaken hOpen

/-
  How a part of the opening exchange ends: with a greeting, or,
  if it fails, with whatever a server may begin with.
-/
def Opened
    {ε α : Type} :
    Except ε α × Session → Bytes → Prop
  | (.ok _, s), out => Greets s.stage (s.stream out)
  | (.error _, s), out => Speaks s.stage (s.stream out)

/-
  What has arrived keeps the greeting a greeting, or breaks the
  session, which then says so behind it or instead of it.
-/
theorem opened_process
    (hGreets : Greets s.stage (s.stream out)) :
    Opened s.process out := by
  unfold process
  split
  · exact hGreets.speaks
  · split
    · next hTaken => exact greets_takeRecords hTaken hGreets
    · change Opens openingTypes (Session.stream (queue _ _) out)
      rw [stream_queue]
      change Opens openingTypes (s.stream out ++ _)
      rcases hGreets with ⟨-, hNone⟩ | ⟨rest, hSome⟩
      · rw [hNone]
        exact .cons (List.mem_cons_of_mem _ List.mem_cons_self) _
      · rw [hSome]
        exact .cons List.mem_cons_self _

/- Whatever has arrived, an open session stays open. -/
theorem established_process
    (hOpen : s.stage = .established) :
    s.process.2.stage = .established := by
  unfold process
  split
  · exact hOpen
  · split
    · next hTaken => exact established_takeRecords hTaken hOpen
    · exact hOpen

------------------------------------------------------------
-- The opening exchange
------------------------------------------------------------

section

variable {P : Stage → Bytes → Prop}

/-
  Sending some of the queue leaves the stream as it is, however
  much is accepted.
-/
theorem offers_sendSome
    (hOpens : ∀ stage stream,
      P stage stream → Opens openingTypes stream)
    (hStream : P s.stage (s.stream out)) :
    Offers (Opens openingTypes) (sendSome s)
      (fun (_, s') out => P s'.stage (s'.stream out)) out := by
  unfold sendSome
  split
  · exact hStream
  · next first rest hQueue =>
      have hParts : s.stream out =
          out ++ first.1 ++
            (rest.map fun chunk => chunk.1).flatten := by
        rw [stream, hQueue, List.map_cons, List.flatten_cons,
          List.append_assoc]
      have hFits : ∀ n ≤ first.1.length,
          Opens openingTypes (out ++ first.1.take n) := by
        intro n _
        apply (hOpens _ _ hStream).of_isPrefix
        rw [hParts, List.append_assoc,
          List.prefix_append_right_inj]
        exact (List.take_prefix n first.1).trans
          (List.prefix_append first.1 _)
      rw [offers_bind]
      apply (offers_write hFits).mono
      rintro r out' (⟨n, -, rfl, -, rfl⟩ | ⟨⟨e, rfl⟩, rfl⟩)
      · have hSame : Session.stream
            { s with
              outgoing :=
                (Chunk.ofBytes? (first.1.drop n)).toList ++ rest }
            (out ++ first.1.take n) = s.stream out := by
          rw [hParts, stream, List.map_append, List.flatten_append,
            flatten_ofBytes?]
          rw [← List.append_assoc, List.append_assoc out,
            List.take_append_drop]
        change P s.stage (Session.stream _ _)
        rw [hSame]
        exact hStream
      · exact hStream

/- So does sending the whole queue. -/
theorem offers_sendQueued
    (hOpens : ∀ stage stream,
      P stage stream → Opens openingTypes stream)
    (hStream : P s.stage (s.stream out)) :
    Offers (Opens openingTypes) (sendQueued s)
      (fun (_, s') out => P s'.stage (s'.stream out)) out := by
  refine ⟨fun u out => P u.1.stage (u.1.stream out), hStream, ?_⟩
  rintro ⟨s, count⟩ out hStream
  simp only
  split
  · rw [offers_bind]
    apply (offers_sendSome hOpens hStream).mono
    rintro ⟨e | n, s'⟩ out hSent
    · exact hSent
    · simp only
      split <;> exact hSent
  · exact hStream

end

/- Receiving gives nothing. -/
theorem offers_receiveSome
    (hGreets : Greets s.stage (s.stream out)) :
    Offers (Opens openingTypes) (receiveSome s)
      (fun (_, s') out => Greets s'.stage (s'.stream out)) out := by
  unfold receiveSome
  rw [offers_bind]
  apply (offers_read chunkSize).mono
  rintro (e | _ | ⟨b, got⟩) out rfl
  · exact hGreets
  · exact hGreets
  · exact hGreets

/- Taking in what has arrived. -/
theorem offers_digest
    (hGreets : Greets s.stage (s.stream out)) :
    Offers (Opens openingTypes) (digest s) Opened out := by
  have hProcess := opened_process hGreets
  unfold digest
  split
  · next hTaken =>
      rw [hTaken] at hProcess
      exact hProcess
  · next fault s' hTaken =>
      rw [hTaken] at hProcess
      rw [offers_bind]
      exact offers_sendSome (P := Speaks) (fun _ _ => id) hProcess

/-
  One part of the exchange after the other: the queue is sent,
  something is received and taken in.
-/
theorem offers_exchange
    (hGreets : Greets s.stage (s.stream out)) :
    Offers (Opens openingTypes) (exchange s) Opened out := by
  refine ⟨fun u out => Greets u.1.stage (u.1.stream out),
    hGreets, ?_⟩
  rintro ⟨s, received⟩ out hGreets
  simp only
  split
  · exact hGreets
  · rw [offers_bind]
    apply (offers_sendQueued (P := Greets)
      (fun _ _ => Greets.speaks) hGreets).mono
    rintro ⟨e | count, s'⟩ out hSent
    · exact Greets.speaks hSent
    · simp only
      split
      · exact hSent
      · have hReceived : Offers (Opens openingTypes)
            (if s'.wantsRead then receiveSome s'
              else .done (.ok 0, s'))
            (fun got out => Greets got.2.stage (got.2.stream out))
            out := by
          split
          · exact offers_receiveSome hSent
          · exact hSent
        rw [offers_bind]
        apply hReceived.mono
        rintro ⟨e | n, s''⟩ out hGot
        · exact Greets.speaks hGot
        · rw [offers_bind]
          apply (offers_digest hGot).mono
          rintro ⟨e | _, last⟩ out hTaken
          · exact hTaken
          · simp only
            split
            · exact hTaken
            · split
              · exact hTaken
              · split
                · exact Greets.speaks hTaken
                · exact hTaken

------------------------------------------------------------
-- Open sessions
------------------------------------------------------------

/- Sending some of the queue leaves the stage as it is. -/
theorem always_sendSome
    (s : Session) :
    (sendSome s).Always fun (_, after) => after.stage = s.stage := by
  unfold sendSome
  split
  · exact always_done rfl
  · refine always_bind ?_
    rintro (e | n)
    · exact always_done rfl
    · exact always_done rfl

/- So does sending all of it. -/
theorem always_sendQueued
    (s : Session) :
    (sendQueued s).Always fun (_, after) =>
      after.stage = s.stage := by
  refine always_iterate (fun u => u.1.stage = s.stage) rfl ?_
  rintro ⟨now, count⟩ hNow
  simp only
  split
  · refine (always_sendSome now).bind ?_
    rintro ⟨e | n, next⟩ hNext
    · exact always_done (hNext.trans hNow)
    · simp only
      split <;> exact always_done (hNext.trans hNow)
  · exact always_done hNow

/- So does receiving. -/
theorem always_receiveSome
    (s : Session) :
    (receiveSome s).Always fun (_, after) =>
      after.stage = s.stage := by
  refine always_bind ?_
  rintro (e | _ | ⟨b, got⟩)
  · exact always_done rfl
  · exact always_done rfl
  · exact always_done rfl

/- What has arrived leaves an open session open. -/
theorem always_digest
    (hOpen : s.stage = .established) :
    (digest s).Always fun (_, after) =>
      after.stage = .established := by
  have hProcess := established_process hOpen
  unfold digest
  split
  · next hTaken =>
      rw [hTaken] at hProcess
      exact always_done hProcess
  · next hTaken =>
      rw [hTaken] at hProcess
      refine (always_sendSome _).bind ?_
      rintro ⟨r, after⟩ hAfter
      exact always_done (hAfter.trans hProcess)

/- So does an exchange. -/
theorem always_exchange
    (hOpen : s.stage = .established) :
    (exchange s).Always fun (_, after) =>
      after.stage = .established := by
  refine always_iterate (fun u => u.1.stage = .established) hOpen ?_
  rintro ⟨now, received⟩ hNow
  simp only
  split
  · exact always_done hNow
  · refine (always_sendQueued now).bind ?_
    rintro ⟨e | sent, next⟩ hNext
    · exact always_done (hNext.trans hNow)
    · simp only
      split
      · exact always_done (hNext.trans hNow)
      · have hReceived : Always
            (if next.wantsRead then receiveSome next
              else .done (.ok 0, next))
            (fun (_, after) => after.stage = .established) := by
          split
          · exact (always_receiveSome next).mono fun _ hAfter =>
              (hAfter.trans hNext).trans hNow
          · exact always_done (hNext.trans hNow)
        refine hReceived.bind ?_
        rintro ⟨e | n, got⟩ hGot
        · exact always_done hGot
        · refine (always_digest hGot).bind ?_
          rintro ⟨e | _, last⟩ hLast
          · exact always_done hLast
          · simp only
            split
            · exact always_done hLast
            · split
              · exact always_done hLast
              · split
                · exact always_done hLast
                · exact always_done hLast

theorem always_exchangeIf
    (reason : Bool)
    (hOpen : s.stage = .established) :
    (exchangeIf reason s).Always fun (_, after) =>
      after.stage = .established := by
  unfold exchangeIf
  split
  · refine (always_exchange hOpen).bind ?_
    rintro ⟨e | n, after⟩ hAfter
    · exact always_done hAfter
    · exact always_done hAfter
  · exact always_done hOpen

/- So does finishing what was left undone. -/
theorem always_finishPrior
    (hOpen : s.stage = .established) :
    (finishPrior s).Always fun (_, after) =>
      after.stage = .established := by
  refine (always_exchangeIf _ hOpen).bind ?_
  rintro ⟨e | _, after⟩ hAfter
  · exact always_done hAfter
  · exact always_exchangeIf _ hAfter

/- So does waiting for data. -/
theorem always_await
    (hOpen : s.stage = .established) :
    (await s).Always fun (_, after) =>
      after.stage = .established := by
  refine always_iterate (fun now => now.stage = .established)
    hOpen ?_
  intro now hNow
  simp only
  split
  · refine (always_exchange hNow).bind ?_
    rintro ⟨e | n, after⟩ hAfter
    · exact always_done hAfter
    · simp only
      split <;> exact always_done hAfter
  · exact always_done hNow

theorem always_read
    (hOpen : s.stage = .established)
    (room : Nat) :
    (s.read room).Always fun (_, after) =>
      after.stage = .established := by
  rw [Session.read]
  split
  · exact always_done hOpen
  · refine (always_finishPrior hOpen).bind ?_
    rintro ⟨e | _, now⟩ hNow
    · exact always_done hNow
    · refine (always_await hNow).bind ?_
      rintro ⟨e | _, last⟩ hLast
      · exact always_done hLast
      · simp only
        split <;> exact always_done hLast

theorem always_write
    (hOpen : s.stage = .established)
    (src : Bytes) :
    (s.write src).Always fun (_, after) =>
      after.stage = .established := by
  refine (always_finishPrior hOpen).bind ?_
  rintro ⟨e | _, now⟩ hNow
  · exact always_done hNow
  · refine (always_exchange (s := now.queueData _) hNow).bind ?_
    rintro ⟨r, after⟩ hAfter
    exact always_done hAfter

theorem always_flush
    (hOpen : s.stage = .established) :
    s.flush.Always fun (_, after) =>
      after.stage = .established := by
  refine (always_finishPrior hOpen).bind ?_
  rintro ⟨e | _, now⟩ hNow
  · exact always_done hNow
  · exact always_exchangeIf _ hNow

------------------------------------------------------------
-- Flushes
------------------------------------------------------------

/- A chunk has at least a byte, so that some of it is sent. -/
theorem concludes_sendSome
    (hQueued : s.wantsWrite = true) :
    Concludes (sendSome s)
      (fun (r, _) => ∀ n, r = .ok n → 0 < n) := by
  unfold sendSome
  split
  · next hNone =>
      rw [wantsWrite, hNone] at hQueued
      cases hQueued
  · next first rest hQueue =>
      intro gave
      rw [offers_bind]
      apply (offers_write fun _ _ => trivial).mono
      rintro r out (⟨n, -, rfl, hSome, -⟩ | ⟨⟨e, rfl⟩, -⟩)
      · rintro m ⟨⟩
        exact hSome first.2
      · exact nofun

/- Sending the queue goes on until it is empty, or it fails. -/
theorem concludes_sendQueued
    (hQueued : s.wantsWrite = true) :
    Concludes (sendQueued s)
      (fun (r, after) => ∀ n, r = .ok n →
        0 < n ∧ after.wantsWrite = false) := by
  refine concludes_iterate
    (fun u => u.1.wantsWrite = true ∨ 0 < u.2) (.inl hQueued) ?_
  rintro ⟨now, count⟩ hNow
  simp only
  split
  · next hMore =>
      apply (concludes_sendSome hMore).bind
      rintro ⟨e | n, next⟩ hSome
      · exact fun _ => nofun
      · have hSent : 0 < n := hSome n rfl
        simp only
        split
        · next hNone =>
            rw [hNone] at hSent
            cases hSent
        · exact fun _ => .inr (Nat.add_pos_right count hSent)
  · next hAll =>
      rintro gave n ⟨⟩
      have hEmpty := eq_false_of_ne_true hAll
      rcases hNow with hMore | hSome
      · rw [hEmpty] at hMore
        cases hMore
      · exact ⟨hSome, hEmpty⟩

/- An exchange of an open session with a queue sends the queue. -/
theorem concludes_exchange
    (hOpen : s.stage = .established)
    (hQueued : s.wantsWrite = true) :
    Concludes (exchange s)
      (fun (r, after) => ∀ n, r = .ok n →
        after.wantsWrite = false) := by
  have hNotOpening : s.isHandshaking = false := by
    rw [isHandshaking, hOpen]
    rfl
  refine concludes_iterate (fun u => u.1 = s) rfl ?_
  rintro ⟨now, received⟩ rfl
  simp only [hQueued, hNotOpening, Bool.not_true, Bool.false_and,
    Bool.not_false, Bool.true_and]
  rw [if_neg Bool.false_ne_true]
  apply (concludes_sendQueued hQueued).bind
  rintro ⟨e | sent, after⟩ hSent
  · exact fun _ => nofun
  · rcases hSent sent rfl with ⟨hSome, hEmpty⟩
    simp only [hSome, decide_true, if_true]
    exact fun _ _ _ => hEmpty

/- A flush that comes to a good end has sent everything. -/
theorem concludes_flush
    (hOpen : s.stage = .established) :
    Concludes s.flush
      (fun (r, after) => r = .ok () → after.wantsWrite = false) := by
  apply (concludes_of_always (always_finishPrior hOpen)).bind
  rintro ⟨e | _, now⟩ hNow
  · exact fun _ => nofun
  · simp only [exchangeIf]
    split
    · next hQueued =>
        apply (concludes_exchange hNow hQueued).bind
        rintro ⟨e | n, after⟩ hSent
        · exact fun _ => nofun
        · exact fun _ _ => hSent n rfl
    · next hEmpty => exact fun _ _ => eq_false_of_ne_true hEmpty

end Session

------------------------------------------------------------
-- The laws
------------------------------------------------------------

/- A session is open just when its stage says so. -/
theorem transparent_isOpen_iff
    {s : Session} :
    transparent.isHandshaking s = false ↔ s.stage = .established := by
  change (s.stage != .established) = false ↔ _
  simp

/- Sessions that hide nothing are lawful. -/
theorem lawful_transparent :
    transparent.Lawful where
  greets := by
    intro n
    refine Provider.offers_exchanges (θ := transparent)
      (fun s out => Session.Greets s.stage (s.stream out))
      ?_ ?_ n (.inl ⟨rfl, rfl⟩)
    · intro s out hGreets
      apply (Session.offers_exchange hGreets).mono
      rintro ⟨e | n, s'⟩ out hOpened
      · exact ⟨hOpened.of_isPrefix (s'.isPrefix_stream out), nofun⟩
      · exact hOpened
    · intro s out hGreets
      exact ⟨hGreets.speaks.of_isPrefix (s.isPrefix_stream out),
        fun _ _ =>
          hGreets.opens.of_isPrefix (s.isPrefix_stream out)⟩
  read := by
    intro session room hOpen
    refine (Session.always_read (transparent_isOpen_iff.mp hOpen)
      room).mono ?_
    exact fun _ => transparent_isOpen_iff.mpr
  write := by
    intro session src hOpen
    refine (Session.always_write (transparent_isOpen_iff.mp hOpen)
      src).mono ?_
    exact fun _ => transparent_isOpen_iff.mpr
  flush := by
    intro session hOpen
    refine (Session.always_flush
      (transparent_isOpen_iff.mp hOpen)).mono ?_
    exact fun _ => transparent_isOpen_iff.mpr
  sends := by
    intro session hOpen
    exact Session.concludes_flush (transparent_isOpen_iff.mp hOpen)
  silent := by
    rintro (session : Session) ⟨hOpen, hSent⟩
    change session.isHandshaking = false at hOpen
    change session.wantsWrite = false at hSent
    change session.flush = _
    simp only [Session.flush, Session.finishPrior,
      Session.exchangeIf, hOpen, hSent, Bool.false_eq_true,
      if_false, Routine.ifOk, Routine.bind]
    rfl

end Parley.Tls
