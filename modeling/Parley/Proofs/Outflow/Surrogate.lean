import Parley.Deflate.Codec
import Parley.Tls.Stream
import Parley.Conversation.Surrogate
import Parley.Proofs.Outflow.Flushing
/-
  This file shows what a surrogate on a plain link sends when
  its flushes may be cut short. Every flush offers just what was
  written since the flush before it, and takes it out of the
  surrogate, also when it fails: what a flush that was cut short
  has left over is never sent.

  So what the pipe accepts is a first part of what was written
  as long as no flush fails, and after a flush that was cut
  short it may have a gap.

  Key definitions include:
    * `SurrogateStep.written`
    * `SurrogateStep.isOutput`
    * `Outflow.batches`

  Key theorems include:
    * `Outflow.flatten_batches_isPrefix`
    * `Outflow.offers_flush`
    * `Outflow.offers_conversation`
    * `Outflow.surrogate_outflow_spec`
    * `Outflow.exists_gap`
-/

namespace Parley

variable {κ : Codec} {θ : Tls.Provider}

------------------------------------------------------------
-- Steps that write
------------------------------------------------------------

namespace SurrogateStep

/- The bytes that a step hands to the surrogate for sending. -/
def written
    (terminator : Bytes) : SurrogateStep → Bytes
  | .writeLine line => line ++ terminator
  | .write src => src
  | _ => []

/- Whether a step is a flush. -/
def isFlush : SurrogateStep → Bool
  | .flush => true
  | .ioFlush => true
  | _ => false

/-
  Whether a step has to do with sending only: it writes, it
  flushes, or it limits the time that this may take.
-/
def isOutput : SurrogateStep → Bool
  | .writeLine _ => true
  | .write _ => true
  | .flush => true
  | .ioFlush => true
  | .endpoint step => step.isLimit
  | _ => false

end SurrogateStep

/- A surrogate over a plain endpoint, with bytes to be sent. -/
def Surrogate.keeping
    (terminator unsent : Bytes) : Surrogate κ θ :=
  { Surrogate.new terminator with unsent := unsent }

namespace Outflow

open Traffic

variable {terminator kept : Bytes} {history : List Flushing}

------------------------------------------------------------
-- What is written between flushes
------------------------------------------------------------

/- All that the steps of a conversation write. -/
def written
    (terminator : Bytes)
    (steps : List SurrogateStep) : Bytes :=
  steps.flatMap (SurrogateStep.written terminator)

/-
  What is written up to each flush, since the flush before it;
  `kept` was written before the steps.
-/
def batches
    (terminator : Bytes) :
    (kept : Bytes) → List SurrogateStep → List Bytes
  | _, [] => []
  | kept, step :: steps =>
    if step.isFlush then kept :: batches terminator [] steps
    else
      batches terminator (kept ++ step.written terminator) steps

/- A flush writes nothing itself. -/
theorem written_of_isFlush
    {step : SurrogateStep}
    (hFlush : step.isFlush = true) :
    step.written terminator = [] := by
  cases step with
  | flush => rfl
  | ioFlush => rfl
  | _ => exact Bool.noConfusion hFlush

/- All batches together are a first part of what is written. -/
theorem flatten_batches_isPrefix
    (terminator kept : Bytes)
    (steps : List SurrogateStep) :
    (batches terminator kept steps).flatten <+:
      kept ++ written terminator steps := by
  induction steps generalizing kept with
  | nil => exact List.nil_prefix
  | cons step steps ih =>
      rw [batches]
      split
      · next hFlush =>
          rw [written, List.flatMap_cons,
            written_of_isFlush hFlush, List.nil_append,
            List.flatten_cons, List.prefix_append_right_inj]
          exact ih []
      · rw [written, List.flatMap_cons, ← List.append_assoc]
        exact ih (kept ++ step.written terminator)

------------------------------------------------------------
-- Single steps
------------------------------------------------------------

/- Plain layers hand what is written to the endpoint. -/
theorem write_plain
    (src : Bytes) :
    ByteStream.write (Layer.raw Link.plain : Layer κ θ) src =
      (Endpoint.write src).bind fun r =>
        .done (r, .raw .plain) := by
  change Routine.bind (Link.plain.write src) _ = _
  rw [Link.write, Routine.bind_assoc]
  rfl

/- What a flush of an open surrogate on a plain link does. -/
theorem flush_keeping
    (terminator kept : Bytes) :
    (Surrogate.keeping (κ := κ) (θ := θ) terminator kept).flush =
      Routine.ifOk
        (if kept = [] then
            .done (.ok (), Surrogate.keeping terminator [])
          else
            (Surrogate.keeping terminator []).onLayer
              (ByteStream.writeAll
                (Layer.raw Link.plain : Layer κ θ) kept))
        fun () s => s.onLayer s.layer.flush :=
  rfl

/-
  A flush adds one flush to the history, which offers what is
  kept. Nothing is kept afterwards, whatever has become of it.
-/
theorem offers_flush
    {always : Bytes → Prop}
    (hAlways : ∀ f : Flushing,
      f.offered = kept → always (taken (history ++ [f]))) :
    Offers always
      (Surrogate.keeping (κ := κ) (θ := θ) terminator kept).flush
      (fun (r, s) out =>
        s = Surrogate.keeping terminator [] ∧
        ∃ f : Flushing,
          f.offered = kept ∧
          f.finished = r.isOk ∧
          out = taken (history ++ [f]))
      (taken history) := by
  rw [flush_keeping, Routine.ifOk]
  split
  · next hNothing =>
      subst hNothing
      exact ⟨rfl, ⟨[], 0, true, Nat.le_refl 0, fun _ => rfl⟩,
        rfl, rfl, by simp [Flushing.taken]⟩
  · rw [Surrogate.onLayer, Routine.bind_assoc, offers_bind]
    apply (offers_flushing write_plain hAlways).mono
    rintro ⟨r, layer⟩ out ⟨rfl, f, hOffered, hFinished, rfl⟩
    cases r with
    | ok => exact ⟨rfl, f, hOffered, hFinished, rfl⟩
    | error e => exact ⟨rfl, f, hOffered, hFinished, rfl⟩

/- A flush is the same through either of its two names. -/
theorem offers_take_of_isFlush
    {always : Bytes → Prop}
    {step : SurrogateStep}
    (hFlush : step.isFlush = true)
    (hAlways : ∀ f : Flushing,
      f.offered = kept → always (taken (history ++ [f]))) :
    Offers always
      ((Surrogate.keeping (κ := κ) (θ := θ) terminator
        kept).take step)
      (fun (reply, s) out =>
        s = Surrogate.keeping terminator [] ∧
        ∃ f : Flushing,
          f.offered = kept ∧
          f.finished = reply.isOk ∧
          out = taken (history ++ [f]))
      (taken history) := by
  cases step with
  | flush =>
      rw [Surrogate.take, offers_bind]
      apply (offers_flush hAlways).mono
      rintro ⟨r, s⟩ out ⟨hKept, f, hOffered, hFinished, hOut⟩
      refine ⟨hKept, f, hOffered, ?_, hOut⟩
      cases r <;> exact hFinished
  | ioFlush =>
      rw [Surrogate.take, offers_bind]
      change Offers always (Routine.bind _ _) _ _
      rw [offers_bind]
      apply (offers_flush hAlways).mono
      rintro ⟨r, s⟩ out ⟨hKept, f, hOffered, hFinished, hOut⟩
      refine ⟨hKept, f, hOffered, ?_, hOut⟩
      cases r <;> exact hFinished
  | _ => exact Bool.noConfusion hFlush

/- Every other step of output gives nothing and only writes. -/
theorem offers_take_of_isOutput
    {always : Bytes → Prop}
    {step : SurrogateStep}
    {gave : Bytes}
    (hOutput : step.isOutput = true)
    (hFlush : ¬ step.isFlush = true) :
    Offers always
      ((Surrogate.keeping (κ := κ) (θ := θ) terminator
        kept).take step)
      (fun (_, s) out =>
        s = Surrogate.keeping terminator
          (kept ++ step.written terminator) ∧
        out = gave)
      gave := by
  cases step with
  | writeLine line =>
      refine ⟨?_, rfl⟩
      simp [Surrogate.keeping, SurrogateStep.written, Surrogate.new]
  | write src => exact ⟨rfl, rfl⟩
  | endpoint step =>
      rw [Surrogate.take, offers_bind]
      apply (offers_take_of_isLimit hOutput).mono
      rintro reply out rfl
      simp only [SurrogateStep.written, List.append_nil]
      exact ⟨rfl, rfl⟩
  | flush => exact absurd rfl hFlush
  | ioFlush => exact absurd rfl hFlush
  | _ => exact Bool.noConfusion hOutput

------------------------------------------------------------
-- Conversations
------------------------------------------------------------

/- Bytes that some flushes gave, which offered these batches. -/
def Accounted
    (offered : List Bytes)
    (gave : Bytes) : Prop :=
  ∃ history : List Flushing,
    gave = taken history ∧
    history.map Flushing.offered <+: offered

/-
  The steps of a conversation add a flush to the history for
  each batch that they write, and confirm just those flushes
  that came to a good end.
-/
theorem offers_conversation
    {offered : List Bytes}
    {steps : List SurrogateStep}
    (terminator kept : Bytes)
    (history : List Flushing)
    (hOutput : ∀ step ∈ steps, step.isOutput = true)
    (hOffered :
      history.map Flushing.offered ++
          batches terminator kept steps <+:
        offered) :
    Offers (Accounted offered)
      (Routine.forEach Surrogate.take
        (Surrogate.keeping (κ := κ) (θ := θ) terminator kept) steps)
      (fun (replies, _) out =>
        ∃ later : List Flushing,
          out = taken (history ++ later) ∧
          later.map Flushing.offered =
            batches terminator kept steps ∧
          later.map Flushing.finished =
            confirmations SurrogateStep.isFlush steps replies)
      (taken history) := by
  induction steps generalizing history kept with
  | nil => exact ⟨[], by rw [List.append_nil], rfl, rfl⟩
  | cons step steps ih =>
      rw [List.forall_mem_cons] at hOutput
      rcases hOutput with ⟨hFirst, hRest⟩
      rw [batches] at hOffered ⊢
      rw [Routine.forEach, offers_bind]
      by_cases hFlush : step.isFlush = true
      · rw [if_pos hFlush] at hOffered ⊢
        have hSofar : ∀ f : Flushing, f.offered = kept →
            (history ++ [f]).map Flushing.offered ++
                batches terminator [] steps <+: offered := by
          rintro f rfl
          simpa using hOffered
        have hAlways : ∀ f : Flushing, f.offered = kept →
            Accounted offered (taken (history ++ [f])) := by
          intro f hKept
          have hPart := List.prefix_append
            ((history ++ [f]).map Flushing.offered)
            (batches terminator [] steps)
          exact ⟨_, rfl, hPart.trans (hSofar f hKept)⟩
        apply (offers_take_of_isFlush hFlush hAlways).mono
        rintro ⟨reply, s⟩ out ⟨rfl, f, hKept, hFinished, rfl⟩
        rw [offers_bind]
        apply (ih [] (history ++ [f]) hRest
          (hSofar f hKept)).mono
        rintro ⟨replies, s⟩ out ⟨later, rfl, hLater, hFlags⟩
        refine ⟨f :: later, ?_, ?_, ?_⟩
        · rw [List.append_assoc, List.singleton_append]
        · rw [List.map_cons, hKept, hLater]
        · simp [confirmations, hFlush, hFinished, hFlags]
      · rw [if_neg hFlush] at hOffered ⊢
        apply (offers_take_of_isOutput hFirst hFlush).mono
        rintro ⟨reply, s⟩ out ⟨rfl, rfl⟩
        rw [offers_bind]
        apply (ih _ history hRest hOffered).mono
        rintro ⟨replies, s⟩ out ⟨later, rfl, hLater, hFlags⟩
        refine ⟨later, rfl, hLater, ?_⟩
        simp [confirmations, hFlush, hFlags]

section

variable {ι : Type} [DecidableEq ι] {R : ι → Type}
variable {clients : (i : ι) → Routine endpointInterface (R i)}
variable {home : Side} {nameA nameB : String} {capacity : Nat}
variable {steps : List SurrogateStep}
variable {log : List (Visit (Option ι))}
variable {t : Traffic (Result (List Reply × Surrogate κ θ) R)}

/-
  For every conversation of writes and flushes on a surrogate
  over a plain link, whatever is done at the far end and in
  whatever order: at every moment the pipe has accepted a first
  part of what each flush offered, and the flushes offered what
  was written between them. As long as all flushes but the last
  came to a good end, this is a first part of all that is
  written. When the conversation is over, every flush has
  offered its batch once, and those that came to a good end,
  and were accepted whole, are those that were confirmed.
-/
theorem surrogate_outflow_spec
    (hRun :
      Run (seat home)
        (new (.pair nameA nameB capacity)
          (routines
            (Routine.forEach Surrogate.take
              (Surrogate.new (κ := κ) (θ := θ) terminator) steps)
            clients))
        log t)
    (hOutput : ∀ step ∈ steps, step.isOutput = true) :
    ∃ history : List Flushing,
      accepted home.other log = taken history ∧
      history.map Flushing.offered <+:
        batches terminator [] steps ∧
      ((∀ f ∈ history.dropLast, f.finished = true) →
        accepted home.other log <+: written terminator steps) ∧
      ∀ replies s, t.parties none = .ready (.done (replies, s)) →
        history.map Flushing.offered =
          batches terminator [] steps ∧
        history.map Flushing.finished =
          confirmations SurrogateStep.isFlush steps replies := by
  have hWritten : ∀ history : List Flushing,
      history.map Flushing.offered <+:
        batches terminator [] steps →
      (∀ f ∈ history.dropLast, f.finished = true) →
      taken history <+: written terminator steps := by
    rintro history ⟨rest, hOffered⟩ hFinished
    have hBatches := flatten_batches_isPrefix terminator [] steps
    rw [← hOffered, List.flatten_append, List.nil_append]
      at hBatches
    exact (taken_isPrefix hFinished).trans
      ((List.prefix_append _ _).trans hBatches)
  have hOffers := offers_conversation (κ := κ) (θ := θ) terminator
    [] []
    hOutput (List.prefix_refl (batches terminator [] steps))
  rcases given_of_run hRun ⟨[], rfl, List.nil_prefix⟩ hOffers
    with ⟨⟨history, hTaken, hOffered⟩, hEnd⟩
  by_cases hDone : ∃ a : List Reply × Surrogate κ θ,
      t.parties none = .ready (.done a)
  · rcases hDone with ⟨⟨replies, s⟩, hDone⟩
    rcases hEnd _ hDone with ⟨history, hTaken, hAll, hFlags⟩
    have hOffered :
        history.map Flushing.offered <+:
          batches terminator [] steps :=
      ⟨[], (List.append_nil _).trans hAll⟩
    refine ⟨history, hTaken, hOffered, ?_, ?_⟩
    · rw [hTaken]
      exact hWritten history hOffered
    · intro replies' s' hDone'
      rw [hDone] at hDone'
      cases hDone'
      exact ⟨hAll, hFlags⟩
  · refine ⟨history, hTaken, hOffered, ?_, ?_⟩
    · rw [hTaken]
      exact hWritten history hOffered
    · intro replies s hOver
      exact absurd ⟨_, hOver⟩ hDone

end

/-
  Six bytes are written and flushed into a pipe that holds four.
  The flush runs into its time limit; the client takes the four
  bytes; two more bytes are written and flushed.
-/
def gapSteps : List SurrogateStep :=
  [.endpoint (.setTimeout (some (.ofMillis 12))),
    .write [97, 98, 99, 100, 101, 102], .flush,
    .write [103, 104], .flush]

/- The surrogate and its client. -/
def gapRoutines :
    (i : Option Unit) →
      Routine endpointInterface
        (Result (List Reply × Surrogate rawDeflate Tls.transparent)
          (fun _ => Except PipeError Bytes) i) :=
  routines
    (Routine.forEach Surrogate.take (Surrogate.new [13, 10])
      gapSteps)
    fun _ => Endpoint.recv 4

/-
  The run: the first flush waits with four of its bytes accepted
  until its time is up, tries the other two in vain, and fails.
-/
def gapRun :
    List (Visit (Option Unit)) ×
      Traffic (Result
        (List Reply × Surrogate rawDeflate Tls.transparent)
        (fun _ : Unit => Except PipeError Bytes)) :=
  playPaced (seat .b)
    [(0, none), (0, none), (0, none), (20000000, none),
      (0, none), (0, none), (20000000, none), (0, some ()),
      (0, none), (0, none), (0, none)]
    (new (.pair "client" "server" 4) gapRoutines)

/- The two bytes that the first flush left over are missing. -/
theorem exists_gap :
    ∃ (log : List (Visit (Option Unit)))
      (t : Traffic (Result
        (List Reply × Surrogate rawDeflate Tls.transparent)
        (fun _ : Unit => Except PipeError Bytes))),
      Run (seat .b)
          (new (.pair "client" "server" 4) gapRoutines) log t ∧
        (∀ step ∈ gapSteps, step.isOutput = true) ∧
        written [13, 10] gapSteps =
          [97, 98, 99, 100, 101, 102, 103, 104] ∧
        accepted .a log = [97, 98, 99, 100, 103, 104] ∧
        ¬ accepted .a log <+: written [13, 10] gapSteps :=
  ⟨gapRun.1, gapRun.2, run_playPaced _ _ _,
    by decide, by decide, by decide, by decide⟩

theorem surrogate_outflow_spec_of_gap :
    ∃ history : List Flushing,
      accepted .a gapRun.1 = taken history ∧
        history.map Flushing.offered =
          [[97, 98, 99, 100, 101, 102], [103, 104]] ∧
        history.map Flushing.finished = [false, true] := by
  have hRun :
      Run (seat .b) (new (.pair "client" "server" 4) gapRoutines)
        gapRun.1 gapRun.2 :=
    run_playPaced _ _ _
  rcases surrogate_outflow_spec hRun (by decide) with
    ⟨history, hTaken, -, -, hEnd⟩
  rcases hEnd _ _ rfl with ⟨hOffered, hFinished⟩
  exact ⟨history, hTaken, hOffered, hFinished⟩

end Outflow

end Parley
