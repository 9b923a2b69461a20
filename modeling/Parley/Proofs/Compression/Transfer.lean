import Parley.Deflate.Codec
import Parley.Proofs.Compression.Stored
import Parley.Proofs.Compression.Streams
/-
  This file lets two compressed streams talk over a transport
  that cuts what is sent into any non-empty parts. The one
  writes and flushes, the other reads with any room; each goes
  on by single steps, in any order.

  What was read is at any time a first part of what was written
  before the last flush, and all of it before the reader waits
  for bytes that no flush has sent yet; a write sends nothing.

  Key definitions include:
    * `Compression.Transfer`
    * `Compression.Transfer.Begins`
    * `Compression.Transfer.GoesOn`
    * `Compression.Transfer.Run`
    * `Compression.Transfer.Faithful`

  Key theorems include:
    * `Compression.Transfer.Sound.begins`
    * `Compression.Transfer.Sound.goesOn`
    * `Compression.Transfer.Sound.acc`
    * `Compression.Transfer.faithful_of_run`
-/

namespace Parley

namespace Compression

open Routine

variable {κ : Codec} {level : Nat} {text : Bytes → Bytes}
variable {bound : Nat → Nat}

------------------------------------------------------------
-- The two streams and the transport
------------------------------------------------------------

/- The calls that send. -/
inductive Sends where
  | write
  | flush
deriving DecidableEq

/- The stream that sends, between calls or in one. -/
inductive Sender (κ : Codec) where
  | idle (d : DeflateStream κ Endpoint)
  | calling
      {α : Type}
      (call : Sends)
      (p : Routine endpointInterface
        (Except IoError α × DeflateStream κ Endpoint))

/- The stream that receives, between reads or in one. -/
inductive Receiver (κ : Codec) where
  | idle (d : DeflateStream κ Endpoint)
  | reading
      (p : Routine endpointInterface
        (Except IoError Bytes × DeflateStream κ Endpoint))

/-
  Two streams and what has passed between them: the bytes that
  the transport accepted and those that it delivered, what was
  written all in all, before the last flush, and before the last
  flush that came to its end, and what was read.
-/
structure Transfer (κ : Codec) where
  sender : Sender κ
  receiver : Receiver κ
  sent : Bytes
  received : Bytes
  written : Bytes
  offered : Bytes
  flushed : Bytes
  got : Bytes

namespace Transfer

/- Two new streams, each with a level of its own. -/
def new
    (level level' : Nat) : Transfer κ where
  sender := .idle (DeflateStream.new .held level)
  receiver := .idle (DeflateStream.new .held level')
  sent := []
  received := []
  written := []
  offered := []
  flushed := []
  got := []

/- A call begins at one of the streams. -/
inductive Begins : Transfer κ → Transfer κ → Prop where
  | write
      {t : Transfer κ}
      {d : DeflateStream κ Endpoint}
      (hIdle : t.sender = .idle d)
      (src : Bytes) :
      Begins t
        { t with
          sender := .calling .write (d.write src)
          written := t.written ++ src }
  | flush
      {t : Transfer κ}
      {d : DeflateStream κ Endpoint}
      (hIdle : t.sender = .idle d) :
      Begins t
        { t with
          sender := .calling .flush d.flush
          offered := t.written }
  | read
      {t : Transfer κ}
      {d : DeflateStream κ Endpoint}
      (hIdle : t.receiver = .idle d)
      {room : Nat}
      (hRoom : 0 < room) :
      Begins t { t with receiver := .reading (d.read room) }

/-
  The sender goes on: with the next round of a loop, after a
  send of which the transport accepted something, or by coming
  to the end of its call.
-/
inductive SenderGoesOn : Transfer κ → Transfer κ → Prop where
  | around
      {t : Transfer κ}
      {call : Sends}
      {α σ β : Type}
      {body : σ → Routine endpointInterface (σ ⊕ β)}
      {s : σ}
      {k : β → Routine endpointInterface
        (Except IoError α × DeflateStream κ Endpoint)}
      (hThere : t.sender = .calling call (.loop body s k)) :
      SenderGoesOn t
        { t with sender := .calling call (unroll body s k) }
  | accepted
      {t : Transfer κ}
      {call : Sends}
      {α : Type}
      {src : Bytes}
      {k : Except ShortWrite Nat → Routine endpointInterface
        (Except IoError α × DeflateStream κ Endpoint)}
      {r : Except ShortWrite Nat}
      {n : Nat}
      (hThere :
        t.sender =
          .calling call (.ask (I := endpointInterface)
            (Call.send src) k))
      (hAccepts : Accepts src r n) :
      SenderGoesOn t
        { t with
          sender := .calling call (k r)
          sent := t.sent ++ src.take n }
  | ended
      {t : Transfer κ}
      {call : Sends}
      {α : Type}
      {a : α}
      {d : DeflateStream κ Endpoint}
      (hThere : t.sender = .calling call (.done (.ok a, d))) :
      SenderGoesOn t
        { t with
          sender := .idle d
          flushed :=
            match call with
            | .write => t.flushed
            | .flush => t.offered }

/-
  The receiver goes on: with the next round of a loop, after a
  receive to which the transport delivered something, or by
  coming to the end of its read.
-/
inductive ReceiverGoesOn : Transfer κ → Transfer κ → Prop where
  | around
      {t : Transfer κ}
      {σ β : Type}
      {body : σ → Routine endpointInterface (σ ⊕ β)}
      {s : σ}
      {k : β → Routine endpointInterface
        (Except IoError Bytes × DeflateStream κ Endpoint)}
      (hThere : t.receiver = .reading (.loop body s k)) :
      ReceiverGoesOn t
        { t with receiver := .reading (unroll body s k) }
  | delivered
      {t : Transfer κ}
      {room : Nat}
      {k : Except PipeError Bytes → Routine endpointInterface
        (Except IoError Bytes × DeflateStream κ Endpoint)}
      {chunk : Bytes}
      (hThere :
        t.receiver =
          .reading (.ask (I := endpointInterface)
            (Call.recv room) k))
      (hSome : chunk ≠ [])
      (hFits : chunk.length ≤ room)
      (hSent : t.received ++ chunk <+: t.sent) :
      ReceiverGoesOn t
        { t with
          receiver := .reading (k (.ok chunk))
          received := t.received ++ chunk }
  | ended
      {t : Transfer κ}
      {chunk : Bytes}
      {d : DeflateStream κ Endpoint}
      (hThere : t.receiver = .reading (.done (.ok chunk, d))) :
      ReceiverGoesOn t
        { t with
          receiver := .idle d
          got := t.got ++ chunk }

/- A call that is under way goes on by one step. -/
def GoesOn
    (t u : Transfer κ) : Prop :=
  t.SenderGoesOn u ∨ t.ReceiverGoesOn u

/- What the two streams can come to. -/
inductive Run
    (level level' : Nat) : Transfer κ → Prop where
  | new : Run level level' (new level level')
  | begins
      {t u : Transfer κ}
      (hRun : Run level level' t)
      (hBegins : t.Begins u) :
      Run level level' u
  | goesOn
      {t u : Transfer κ}
      (hRun : Run level level' t)
      (hGoesOn : t.GoesOn u) :
      Run level level' u

/- The receiver waits in a read and nothing is on its way. -/
def Waits
    (t : Transfer κ) : Prop :=
  ∃ room k,
    t.receiver =
        .reading (.ask (I := endpointInterface)
          (Call.recv room) k) ∧
      t.received = t.sent

/-
  What is promised of every transfer. No step follows only if no
  call is under way but a read that waits, and such a point is
  always reached as long as no further call begins; so no call
  fails and none goes on forever.
-/
structure Faithful
    (t : Transfer κ) : Prop where
  got_isPrefix : t.got <+: t.offered
  got_of_waits : t.Waits → t.flushed <+: t.got
  offered_eq :
    (∀ α p, t.sender ≠ .calling (α := α) .flush p) →
      t.offered = t.flushed
  sent_eq :
    ∀ u, t.GoesOn u →
      (∀ α p, t.sender ≠ .calling (α := α) .flush p) →
      u.sent = t.sent
  settles :
    (∀ u, ¬ t.GoesOn u) →
      (∃ d, t.sender = .idle d) ∧
        ((∃ d, t.receiver = .idle d) ∨ t.Waits)
  acc : Acc (fun u t => GoesOn t u) t

------------------------------------------------------------
-- What every step keeps
------------------------------------------------------------

/- Where the sender is, and what its call will come to. -/
def SenderSound
    (level : Nat)
    (text : Bytes → Bytes)
    (t : Transfer κ) : Prop :=
  match t.sender with
  | .idle d =>
    t.offered = t.flushed ∧ text t.sent = t.flushed ∧
      Sending level d t.written t.sent
  | .calling .write p =>
    t.offered = t.flushed ∧ text t.sent = t.flushed ∧
      Yields (silence endpointInterface Unit)
        (fun (r, d) _ =>
          (∃ a, r = .ok a) ∧ Sending level d t.written t.sent)
        p ()
  | .calling .flush p =>
    t.offered = t.written ∧
      Yields (sink κ level text t.written)
        (fun (r, d) sent =>
          (∃ a, r = .ok a) ∧
            text sent = t.written ∧
            Sending level d t.written sent)
        p t.sent

/-
  Where the receiver is, and what its read will come to, however
  much there will be to receive.
-/
def ReceiverSound
    (level : Nat)
    (text : Bytes → Bytes)
    (t : Transfer κ) : Prop :=
  match t.receiver with
  | .idle d => Receiving d t.received t.got
  | .reading p =>
    ∀ limit, t.received.length ≤ limit →
      Yields (source κ level text t.got limit)
        (fun (r, d) received => ∃ chunk,
          r = .ok chunk ∧
            chunk ≠ [] ∧
            t.got ++ chunk <+: text received ∧
            Receiving d received (t.got ++ chunk))
        p t.received

/-
  What every step keeps: each stream is where its calls so far
  have led it, and everything is in order from what was read to
  what was written.
-/
structure Sound
    (level : Nat)
    (text : Bytes → Bytes)
    (t : Transfer κ) : Prop where
  sender : t.SenderSound level text
  receiver : t.ReceiverSound level text
  emits : κ.Emits level t.sent
  got_text : t.got <+: text t.received
  received_sent : t.received <+: t.sent
  flushed_text : t.flushed <+: text t.sent
  text_offered : text t.sent <+: t.offered
  offered_written : t.offered <+: t.written

section

variable {t u : Transfer κ}

/- Nothing has happened to new streams. -/
theorem sound_new
    (hLawful : κ.Lawful level text bound)
    (level' : Nat) :
    Sound level text (new level level' : Transfer κ) where
  sender :=
    ⟨rfl, hLawful.text_nil, rfl, 0, .new⟩
  receiver := ⟨[], .new, rfl⟩
  emits := ⟨_, _, _, _, .new, List.prefix_refl _⟩
  got_text := List.nil_prefix
  received_sent := List.prefix_refl _
  flushed_text := List.nil_prefix
  text_offered := by
    simp only [new, hLawful.text_nil, List.nil_prefix]
  offered_written := List.prefix_refl _

/- A call begins as the stream that it is made on is. -/
theorem Sound.begins
    (hLawful : κ.Lawful level text bound)
    (hSound : Sound level text t)
    (hBegins : t.Begins u) :
    Sound level text u := by
  have hSender := hSound.sender
  have hReceiver := hSound.receiver
  cases hBegins with
  | write hIdle src =>
      rw [SenderSound, hIdle] at hSender
      rcases hSender with ⟨hOffered, hText, hSending⟩
      refine { hSound with
        sender := ⟨hOffered, hText, ?_⟩
        offered_written :=
          hSound.offered_written.trans (List.prefix_append _ _) }
      apply (hLawful.yields_write hSending src).mono
      rintro ⟨r, d⟩ _ ⟨-, rfl, hNext⟩
      exact ⟨⟨_, rfl⟩, hNext⟩
  | flush hIdle =>
      rw [SenderSound, hIdle] at hSender
      rcases hSender with ⟨hOffered, hText, hSending⟩
      refine { hSound with
        sender := ⟨rfl, ?_⟩
        text_offered :=
          hSound.text_offered.trans hSound.offered_written
        offered_written := List.prefix_refl _ }
      apply (hLawful.yields_flush hSending).mono
      rintro ⟨r, d⟩ _ ⟨rfl, hNext, hAll⟩
      exact ⟨⟨_, rfl⟩, hAll, hNext⟩
  | read hIdle hRoom =>
      rw [ReceiverSound, hIdle] at hReceiver
      refine { hSound with receiver := ?_ }
      intro limit hLimit
      exact hLawful.yields_read hReceiver
        (hSound.emits.of_isPrefix hSound.received_sent) hRoom hLimit

/- A step of the sender keeps everything in order. -/
theorem Sound.senderGoesOn
    (hLawful : κ.Lawful level text bound)
    (hSound : Sound level text t)
    (hGoesOn : t.SenderGoesOn u) :
    Sound level text u := by
  have hSender := hSound.sender
  cases hGoesOn with
  | @around call _ _ _ _ _ _ hThere =>
      rw [SenderSound, hThere] at hSender
      cases call with
      | write =>
          rcases hSender with ⟨hOffered, hText, hYields⟩
          exact { hSound with
            sender := ⟨hOffered, hText, hYields.unroll⟩ }
      | flush =>
          rcases hSender with ⟨hOffered, hYields⟩
          exact { hSound with
            sender := ⟨hOffered, hYields.unroll⟩ }
  | @accepted call _ src _ r n hThere hAccepts =>
      rw [SenderSound, hThere] at hSender
      cases call with
      | write =>
          rcases hSender with ⟨-, -, hYields⟩
          exact hYields.of_ask.1.elim
      | flush =>
          rcases hSender with ⟨hOffered, hYields⟩
          rcases hYields.of_ask with
            ⟨⟨-, c, given, marks, hCompresses, hAll, hDue⟩, hNext⟩
          have hSent : t.sent ++ src.take n <+: given := by
            apply List.IsPrefix.trans _ hDue
            rw [List.prefix_append_right_inj]
            exact List.take_prefix n src
          have hGiven : κ.Emits level given :=
            ⟨c, _, given, marks, hCompresses, List.prefix_refl _⟩
          have hEmits := hGiven.of_isPrefix hSent
          have hMore : t.sent <+: t.sent ++ src.take n :=
            List.prefix_append _ _
          refine { hSound with
            sender := ⟨hOffered, hNext _ _ ⟨n, hAccepts, rfl⟩⟩
            emits := hEmits
            received_sent := hSound.received_sent.trans hMore
            flushed_text :=
              hSound.flushed_text.trans
                (hLawful.text_mono hEmits hMore)
            text_offered := ?_ }
          rw [hOffered, ← hAll]
          exact hLawful.text_mono hGiven hSent
  | @ended call _ _ d hThere =>
      rw [SenderSound, hThere] at hSender
      cases call with
      | write =>
          rcases hSender with ⟨hOffered, hText, hYields⟩
          exact { hSound with
            sender :=
              ⟨hOffered, hText, hYields.post_of_done.2⟩ }
      | flush =>
          rcases hSender with ⟨hOffered, hYields⟩
          rcases hYields.post_of_done with ⟨-, hText, hSending⟩
          have hFlushed := hText.trans hOffered.symm
          exact { hSound with
            sender := ⟨rfl, hFlushed, hSending⟩
            flushed_text := hFlushed ▸ List.prefix_refl _ }

/- A step of the receiver keeps everything in order. -/
theorem Sound.receiverGoesOn
    (hLawful : κ.Lawful level text bound)
    (hSound : Sound level text t)
    (hGoesOn : t.ReceiverGoesOn u) :
    Sound level text u := by
  have hReceiver := hSound.receiver
  cases hGoesOn with
  | around hThere =>
      rw [ReceiverSound, hThere] at hReceiver
      exact { hSound with
        receiver := fun limit hLimit =>
          (hReceiver limit hLimit).unroll }
  | @delivered room k chunk hThere hSome hFits hSent =>
      rw [ReceiverSound, hThere] at hReceiver
      have hEmits := hSound.emits.of_isPrefix hSent
      refine { hSound with
        receiver := ?_
        got_text :=
          hSound.got_text.trans
            (hLawful.text_mono hEmits (List.prefix_append _ _))
        received_sent := hSent }
      intro limit hLimit
      have hBefore : t.received.length ≤ limit := by
        simp only [List.length_append] at hLimit
        omega
      exact (hReceiver limit hBefore).of_ask.2 _ _
        ⟨chunk, rfl, hSome, hFits, rfl, hEmits, hLimit⟩
  | @ended chunk d hThere =>
      rw [ReceiverSound, hThere] at hReceiver
      rcases (hReceiver _ (Nat.le_refl _)).post_of_done with
        ⟨_, hChunk, -, hText, hReceiving⟩
      cases hChunk
      exact { hSound with
        receiver := hReceiving
        got_text := hText }

end

------------------------------------------------------------
-- Every call comes to its end or waits
------------------------------------------------------------

/-
  Whatever the receiver does, a step of this sender leads to a
  point from where only finitely many steps follow.
-/
def SenderEnds
    (level : Nat)
    (text : Bytes → Bytes)
    (sender : Sender κ)
    (sent : Bytes) : Prop :=
  ∀ t u : Transfer κ,
    Sound level text t → t.sender = sender → t.sent = sent →
      t.SenderGoesOn u → Acc (fun u t => GoesOn t u) u

section

variable {t : Transfer κ}

/- A receiver that is idle takes no step of its own. -/
theorem acc_of_idle
    {d : DeflateStream κ Endpoint}
    (hEnds : SenderEnds level text t.sender t.sent)
    (hSound : Sound level text t)
    (hIdle : t.receiver = .idle d) :
    Acc (fun u t => GoesOn t u) t := by
  refine ⟨t, ?_⟩
  rintro u (hGoesOn | hGoesOn)
  · exact hEnds t u hSound rfl rfl hGoesOn
  · cases hGoesOn with
    | around hThere => rw [hIdle] at hThere; cases hThere
    | delivered hThere => rw [hIdle] at hThere; cases hThere
    | ended hThere => rw [hIdle] at hThere; cases hThere

/- A read goes on for finitely many steps. -/
theorem acc_of_reading
    (hLawful : κ.Lawful level text bound)
    {gave received : Bytes}
    {limit : Nat}
    {post : Except IoError Bytes × DeflateStream κ Endpoint →
      Bytes → Prop}
    {p : Routine endpointInterface
      (Except IoError Bytes × DeflateStream κ Endpoint)}
    (hYields : Yields (source κ level text gave limit) post p received)
    (hEnds : SenderEnds level text t.sender t.sent)
    (hSound : Sound level text t)
    (hReading : t.receiver = .reading p)
    (hReceived : t.received = received)
    (hLimit : t.sent.length ≤ limit) :
    Acc (fun u t => GoesOn t u) t := by
  induction hYields generalizing t with
  | done _ =>
      refine ⟨t, ?_⟩
      rintro u (hGoesOn | hGoesOn)
      · exact hEnds t u hSound rfl rfl hGoesOn
      · have hNext := hSound.receiverGoesOn hLawful hGoesOn
        cases hGoesOn with
        | around hThere => rw [hReading] at hThere; cases hThere
        | delivered hThere => rw [hReading] at hThere; cases hThere
        | ended hThere => exact acc_of_idle hEnds hNext rfl
  | ask _ _ ih =>
      subst hReceived
      refine ⟨t, ?_⟩
      rintro u (hGoesOn | hGoesOn)
      · exact hEnds t u hSound rfl rfl hGoesOn
      · have hNext := hSound.receiverGoesOn hLawful hGoesOn
        cases hGoesOn with
        | around hThere => rw [hReading] at hThere; cases hThere
        | ended hThere => rw [hReading] at hThere; cases hThere
        | @delivered room k chunk hThere hSome hFits hSent =>
            rw [hReading] at hThere
            cases hThere
            have hEmits := hSound.emits.of_isPrefix hSent
            have hLength := Nat.le_trans hSent.length_le hLimit
            exact ih (.ok chunk) _
              ⟨chunk, rfl, hSome, hFits, rfl, hEmits, hLength⟩
              hEnds hNext rfl rfl hLimit
  | loop _ ih =>
      refine ⟨t, ?_⟩
      rintro u (hGoesOn | hGoesOn)
      · exact hEnds t u hSound rfl rfl hGoesOn
      · have hNext := hSound.receiverGoesOn hLawful hGoesOn
        cases hGoesOn with
        | delivered hThere => rw [hReading] at hThere; cases hThere
        | ended hThere => rw [hReading] at hThere; cases hThere
        | around hThere =>
            rw [hReading] at hThere
            cases hThere
            exact ih hEnds hNext rfl hReceived hLimit

/- So only the steps of the sender matter. -/
theorem Sound.acc_of_senderEnds
    (hLawful : κ.Lawful level text bound)
    (hSound : Sound level text t)
    (hEnds : SenderEnds level text t.sender t.sent) :
    Acc (fun u t => GoesOn t u) t := by
  have hReceiver := hSound.receiver
  cases hThere : t.receiver with
  | idle d => exact acc_of_idle hEnds hSound hThere
  | reading p =>
      rw [ReceiverSound, hThere] at hReceiver
      exact acc_of_reading hLawful
        (hReceiver t.sent.length hSound.received_sent.length_le)
        hEnds hSound hThere rfl (Nat.le_refl _)

/- A sender that is idle takes no step of its own. -/
theorem senderEnds_idle
    (d : DeflateStream κ Endpoint)
    (sent : Bytes) :
    SenderEnds level text (.idle d) sent := by
  intro t u _ hIdle _ hGoesOn
  cases hGoesOn with
  | around hThere => rw [hIdle] at hThere; cases hThere
  | accepted hThere => rw [hIdle] at hThere; cases hThere
  | ended hThere => rw [hIdle] at hThere; cases hThere

/- A call that sends goes on for finitely many steps. -/
theorem senderEnds_calling
    (hLawful : κ.Lawful level text bound)
    {call : Sends}
    {α W : Type}
    {env : Environment endpointInterface W}
    {post : Except IoError α × DeflateStream κ Endpoint → W → Prop}
    {p : Routine endpointInterface
      (Except IoError α × DeflateStream κ Endpoint)}
    {w : W}
    {sent : Bytes}
    (view : W → Bytes → Prop)
    (hYields : Yields env post p w)
    (hView : view w sent)
    (hAnswers : ∀ w sent src r n,
      env.admits w (.send src) → view w sent → Accepts src r n →
      ∃ w', env.answers w (.send src) r w' ∧
        view w' (sent ++ src.take n)) :
    SenderEnds level text (.calling call p) sent := by
  induction hYields generalizing sent with
  | done _ =>
      intro t u hSound hCalling hSent hGoesOn
      have hNext := hSound.senderGoesOn hLawful hGoesOn
      cases hGoesOn with
      | around hThere => rw [hCalling] at hThere; cases hThere
      | accepted hThere => rw [hCalling] at hThere; cases hThere
      | ended hThere =>
          exact hNext.acc_of_senderEnds hLawful
            (senderEnds_idle _ _)
  | ask hAdmits _ ih =>
      intro t u hSound hCalling hSent hGoesOn
      have hNext := hSound.senderGoesOn hLawful hGoesOn
      cases hGoesOn with
      | around hThere => rw [hCalling] at hThere; cases hThere
      | ended hThere => rw [hCalling] at hThere; cases hThere
      | @accepted _ _ src _ r n hThere hAccepts =>
          rw [hCalling] at hThere
          cases hThere
          subst hSent
          rcases hAnswers _ _ _ _ _ hAdmits hView hAccepts with
            ⟨w', hAnswer, hView'⟩
          exact hNext.acc_of_senderEnds hLawful
            (ih r w' hAnswer hView')
  | loop _ ih =>
      intro t u hSound hCalling hSent hGoesOn
      have hNext := hSound.senderGoesOn hLawful hGoesOn
      cases hGoesOn with
      | accepted hThere => rw [hCalling] at hThere; cases hThere
      | ended hThere => rw [hCalling] at hThere; cases hThere
      | around hThere =>
          rw [hCalling] at hThere
          cases hThere
          subst hSent
          exact hNext.acc_of_senderEnds hLawful (ih hView)

/- All calls come to their ends, or to a read that waits. -/
theorem Sound.acc
    (hLawful : κ.Lawful level text bound)
    (hSound : Sound level text t) :
    Acc (fun u t => GoesOn t u) t := by
  apply hSound.acc_of_senderEnds hLawful
  have hSender := hSound.sender
  cases hThere : t.sender with
  | idle d => exact senderEnds_idle d _
  | calling call p =>
      rw [SenderSound, hThere] at hSender
      cases call with
      | write =>
          exact senderEnds_calling hLawful (fun _ _ => True)
            hSender.2.2 trivial fun _ _ _ _ _ hAdmits =>
              hAdmits.elim
      | flush =>
          exact senderEnds_calling hLawful (fun w sent => w = sent)
            hSender.2 rfl
            fun _ _ _ _ n _ hView hAccepts =>
              ⟨_, ⟨n, hAccepts, rfl⟩, hView ▸ rfl⟩

end

------------------------------------------------------------
-- What is promised of every transfer
------------------------------------------------------------

section

variable {t : Transfer κ}

/- A sender that cannot go on is idle. -/
theorem Sound.idle_of_stuck
    (hSound : Sound level text t)
    (hStuck : ∀ u, ¬ t.SenderGoesOn u) :
    ∃ d, t.sender = .idle d := by
  have hSender := hSound.sender
  cases hThere : t.sender with
  | idle d => exact ⟨d, rfl⟩
  | calling call p =>
      rw [SenderSound, hThere] at hSender
      cases p with
      | loop body s k => exact absurd (.around hThere) (hStuck _)
      | done end_ =>
          rcases end_ with ⟨r, d⟩
          have hOk : ∃ a, r = .ok a := by
            cases call with
            | write => exact hSender.2.2.post_of_done.1
            | flush => exact hSender.2.post_of_done.1
          rcases hOk with ⟨a, rfl⟩
          exact absurd (.ended hThere) (hStuck _)
      | ask op k =>
          cases call with
          | write => exact hSender.2.2.of_ask.1.elim
          | flush =>
              have hAdmits := hSender.2.of_ask.1
              cases op with
              | send src =>
                  have hAccepts : Accepts src (.ok src.length)
                      src.length :=
                    ⟨List.length_pos_iff.mpr hAdmits.1,
                      Nat.le_refl _, .inl ⟨rfl, rfl⟩⟩
                  exact absurd (.accepted hThere hAccepts)
                    (hStuck _)
              | _ => exact hAdmits.elim

/- A receiver that cannot go on is idle, or waits. -/
theorem Sound.waits_of_stuck
    (hSound : Sound level text t)
    (hStuck : ∀ u, ¬ t.ReceiverGoesOn u) :
    (∃ d, t.receiver = .idle d) ∨ t.Waits := by
  have hReceiver := hSound.receiver
  cases hThere : t.receiver with
  | idle d => exact .inl ⟨d, rfl⟩
  | reading p =>
      rw [ReceiverSound, hThere] at hReceiver
      replace hReceiver := hReceiver _ (Nat.le_refl _)
      cases p with
      | loop body s k => exact absurd (.around hThere) (hStuck _)
      | done end_ =>
          rcases end_ with ⟨r, d⟩
          rcases hReceiver.post_of_done with ⟨chunk, rfl, -⟩
          exact absurd (.ended hThere) (hStuck _)
      | ask op k =>
          have hAdmits := hReceiver.of_ask.1
          cases op with
          | recv room =>
              right
              refine ⟨room, k, hThere, ?_⟩
              rcases hSound.received_sent with ⟨rest, hRest⟩
              cases rest with
              | nil => rw [← hRest, List.append_nil]
              | cons b rest =>
                  have hSent : t.received ++ [b] <+: t.sent :=
                    ⟨rest, by rw [← hRest, List.append_assoc]; rfl⟩
                  exact absurd
                    (.delivered hThere (List.cons_ne_nil b [])
                      hAdmits.1 hSent)
                    (hStuck _)
          | _ => exact hAdmits.elim

/- A transfer in which everything is in order is faithful. -/
theorem Sound.faithful
    (hLawful : κ.Lawful level text bound)
    (hSound : Sound level text t) :
    t.Faithful where
  got_isPrefix :=
    (hSound.got_text.trans
      (hLawful.text_mono hSound.emits hSound.received_sent)).trans
      hSound.text_offered
  got_of_waits := by
    rintro ⟨room, k, hThere, hAll⟩
    have hReceiver := hSound.receiver
    rw [ReceiverSound, hThere] at hReceiver
    have hGot := (hReceiver _ (Nat.le_refl _)).of_ask.1.2
    rw [hGot, hAll]
    exact hSound.flushed_text
  offered_eq := by
    intro hNoFlush
    have hSender := hSound.sender
    cases hThere : t.sender with
    | idle d =>
        rw [SenderSound, hThere] at hSender
        exact hSender.1
    | calling call p =>
        rw [SenderSound, hThere] at hSender
        cases call with
        | write => exact hSender.1
        | flush => exact absurd hThere (hNoFlush _ p)
  sent_eq := by
    rintro u (hGoesOn | hGoesOn) hNoFlush
    · have hSender := hSound.sender
      cases hGoesOn with
      | around => rfl
      | ended => rfl
      | @accepted call _ _ _ _ _ hThere =>
          rw [SenderSound, hThere] at hSender
          cases call with
          | write => exact hSender.2.2.of_ask.1.elim
          | flush => exact absurd hThere (hNoFlush _ _)
    · cases hGoesOn <;> rfl
  settles hStuck :=
    ⟨hSound.idle_of_stuck fun u hGoesOn =>
        hStuck u (.inl hGoesOn),
      hSound.waits_of_stuck fun u hGoesOn =>
        hStuck u (.inr hGoesOn)⟩
  acc := hSound.acc hLawful

end

/- Everything is in order in every transfer. -/
theorem Run.sound
    {level' : Nat}
    {t : Transfer κ}
    (hLawful : κ.Lawful level text bound)
    (hRun : Run level level' t) :
    Sound level text t := by
  induction hRun with
  | new => exact sound_new hLawful level'
  | begins _ hBegins ih => exact ih.begins hLawful hBegins
  | goesOn _ hGoesOn ih =>
      rcases hGoesOn with hGoesOn | hGoesOn
      · exact ih.senderGoesOn hLawful hGoesOn
      · exact ih.receiverGoesOn hLawful hGoesOn

/-
  With a codec that keeps the laws at the level of the sender,
  every order of calls on two compressed streams, of their steps
  and of what the transport does between them is faithful.
-/
theorem faithful_of_run
    {level' : Nat}
    {t : Transfer κ}
    (hLawful : κ.Lawful level text bound)
    (hRun : Run level level' t) :
    t.Faithful :=
  (hRun.sound hLawful).faithful hLawful

/- What two letters and a flush are compressed to at level 0. -/
def lettersCompressed
    (κ : Codec) : Bytes :=
  let written :=
    κ.compress (κ.compressor 0) [104, 105] .none 4096
  (κ.compress written.encoder [] .sync 4096).produced

/-
  Two letters are written and flushed. They arrive in two parts,
  each part is read for itself, and a third read waits with both
  letters read. What is sent is what the real codec sends.
-/
theorem faithful_of_run_of_letters :
    ∃ t : Transfer storedCodec,
      Run 0 0 t ∧
        t.Waits ∧
        t.sent = lettersCompressed rawDeflate ∧
        t.got = [104, 105] := by
  have hNew : Run 0 0 (new 0 0 : Transfer storedCodec) := .new
  -- The letters are taken in within one round.
  have hWrite := hNew.begins (.write rfl [104, 105])
  have hWritten := (hWrite.goesOn (.inl (.around rfl))).goesOn
    (.inl (.ended rfl))
  -- They are produced in one round and sent in another.
  have hFlush := hWritten.begins (.flush rfl)
  have hProduced := (hFlush.goesOn (.inl (.around rfl))).goesOn
    (.inl (.around rfl))
  have hAccepts : Accepts (lettersCompressed storedCodec)
      (.ok 12) 12 :=
    ⟨by decide, by decide, .inl ⟨rfl, rfl⟩⟩
  have hSent := hProduced.goesOn (.inl (.accepted rfl hAccepts))
  have hFlushed := (hSent.goesOn (.inl (.around rfl))).goesOn
    (.inl (.ended rfl))
  -- The first part ends with the first letter.
  have hFirst := (hFlushed.begins (.read rfl (Nat.succ_pos 63))).goesOn
    (.inr (.around rfl))
  have hSome : ([0, 2, 0, 253, 255, 104] : Bytes) ≠ [] :=
    List.cons_ne_nil _ _
  have hPart := hFirst.goesOn (.inr (.delivered rfl hSome
    (by decide) (by decide)))
  have hRead := (hPart.goesOn (.inr (.around rfl))).goesOn
    (.inr (.ended rfl))
  have hSecond := (hRead.begins (.read rfl (Nat.succ_pos 0))).goesOn
    (.inr (.around rfl))
  have hMore : ([105, 0, 0, 0, 255, 255] : Bytes) ≠ [] :=
    List.cons_ne_nil _ _
  have hRest := hSecond.goesOn (.inr (.delivered rfl hMore
    (by decide) (by decide)))
  have hBoth := (hRest.goesOn (.inr (.around rfl))).goesOn
    (.inr (.ended rfl))
  have hLast := (hBoth.begins (.read rfl (Nat.succ_pos 0))).goesOn
    (.inr (.around rfl))
  have hFaithful := faithful_of_run (lawful_storedCodec 0) hLast
  have hWaits := hFaithful.got_of_waits ⟨_, _, rfl, rfl⟩
  refine ⟨_, hLast, ⟨_, _, rfl, rfl⟩, ?_, ?_⟩
  · show lettersCompressed storedCodec = _
    decide +kernel
  · exact hFaithful.got_isPrefix.eq_of_length_le hWaits.length_le

end Transfer

end Compression

end Parley
