import Mathlib.Data.List.Chain
import Parley.Deflate.Codec
import Parley.Conversation.Compressed
import Parley.Proofs.Outflow.Flushing
/-
  This file shows what a compressed stream sends when its
  flushes may be cut short. What the encoder gives is kept until
  a flush comes to a good end; a flush that was cut short leaves
  all of it behind, also the part that was accepted. The next
  flush offers the same bytes again from the first one on.

  So what the pipe accepts is a first part of what the encoder
  gave as long as no flush fails, and after a flush that was cut
  short the accepted part comes a second time.

  Key definitions include:
    * `Codec.emit`
    * `CompressedStep.isOutput`
    * `Outflow.confirmed`
    * `Outflow.Resends`
    * `Outflow.Streamed`
    * `Outflow.Grows`

  Key theorems include:
    * `Codec.emit_append`
    * `Outflow.Resends.concat`
    * `Outflow.Streamed.encodes`
    * `Outflow.Streamed.flushes`
    * `Outflow.offers_produce_grows`
    * `Outflow.offers_produce`
    * `Outflow.compressed_outflow_spec`
    * `Outflow.exists_repetition`
-/

namespace Parley

variable {κ : Codec}

------------------------------------------------------------
-- What an encoder gives
------------------------------------------------------------

/- The calls that can be made on an encoder. -/
inductive EncoderCall where
  | write (src : Bytes)
  | encode (flush : Flush) (room : Nat)

/- The bytes that a call hands to the encoder. -/
def EncoderCall.written : EncoderCall → Bytes
  | .write src => src
  | .encode _ _ => []

namespace Codec

/-
  An encoder after some calls, and all the bytes that it gave in
  answer to them.
-/
def emit
    (κ : Codec) :
    κ.Encoder → List EncoderCall → κ.Encoder × Bytes
  | e, [] => (e, [])
  | e, .write src :: calls => emit κ (κ.write e src) calls
  | e, .encode flush room :: calls =>
    let (e, out) := κ.encode e flush room
    let (e, more) := emit κ e calls
    (e, out ++ more)

/- Two lists of calls give their bytes one after the other. -/
theorem emit_append
    (e : κ.Encoder)
    (calls later : List EncoderCall) :
    κ.emit e (calls ++ later) =
      ((κ.emit (κ.emit e calls).1 later).1,
        (κ.emit e calls).2 ++
          (κ.emit (κ.emit e calls).1 later).2) := by
  induction calls generalizing e with
  | nil => rfl
  | cons call calls ih =>
      cases call with
      | write src => exact ih (κ.write e src)
      | encode flush room =>
          simp only [List.cons_append, emit, ih,
            List.append_assoc]

end Codec

------------------------------------------------------------
-- Steps that write
------------------------------------------------------------

namespace CompressedStep

/- The bytes that a step hands to the encoder. -/
def written : CompressedStep → Bytes
  | .write src => src
  | _ => []

/- Whether a step is a flush. -/
def isFlush : CompressedStep → Bool
  | .flush => true
  | _ => false

/-
  Whether a step has to do with sending only: it writes, it
  flushes, or it limits the time that this may take.
-/
def isOutput : CompressedStep → Bool
  | .write _ => true
  | .flush => true
  | .endpoint step => step.isLimit
  | _ => false

end CompressedStep

namespace Outflow

open Traffic

variable {history : List Flushing} {stream : Bytes}

------------------------------------------------------------
-- Flushes that begin again
------------------------------------------------------------

/- What was offered by flushes that came to a good end. -/
def confirmed
    (history : List Flushing) : Bytes :=
  (history.filter Flushing.finished).flatMap Flushing.offered

@[simp] theorem confirmed_concat
    (history : List Flushing)
    (f : Flushing) :
    confirmed (history ++ [f]) =
      confirmed history ++
        if f.finished then f.offered else [] := by
  rw [confirmed, List.filter_append, List.flatMap_append]
  cases hFinished : f.finished <;>
    simp [confirmed, hFinished]

/-
  A history of flushes that each offer a stream from the first
  byte on that is not confirmed. A flush after one that failed
  offers the same bytes again, and maybe more behind them.
-/
structure Resends
    (stream : Bytes)
    (history : List Flushing) : Prop where
  from_confirmed : ∀ earlier f,
    earlier ++ [f] <+: history →
      confirmed earlier ++ f.offered <+: stream
  again :
    history.IsChain fun f g =>
      f.finished = false → f.offered <+: g.offered

/- A stream that goes on is offered by the same flushes. -/
theorem Resends.mono
    (hResends : Resends stream history)
    (more : Bytes) :
    Resends (stream ++ more) history := by
  refine ⟨?_, hResends.again⟩
  intro earlier f hHistory
  exact (hResends.from_confirmed earlier f hHistory).trans
    (List.prefix_append stream more)

/- A flush may be added that offers all that is left. -/
theorem Resends.concat
    {f : Flushing}
    (hResends : Resends stream history)
    (hStream : stream = confirmed history ++ f.offered)
    (hAgain : ∀ g ∈ history.getLast?,
      g.finished = false → g.offered <+: f.offered) :
    Resends stream (history ++ [f]) := by
  refine ⟨?_, ?_⟩
  · intro earlier g hHistory
    rw [List.prefix_concat_iff] at hHistory
    rcases hHistory with hLast | hEarlier
    · rcases List.append_inj' hLast rfl with ⟨rfl, hSame⟩
      cases hSame
      exact ⟨[], (List.append_nil _).trans hStream.symm⟩
    · exact hResends.from_confirmed earlier g hEarlier
  · rw [List.isChain_append]
    refine ⟨hResends.again, List.isChain_singleton f, ?_⟩
    intro g hLast f' hFirst
    simp only [List.head?_cons, Option.mem_some_iff] at hFirst
    subst hFirst
    exact hAgain g hLast

/-
  If all flushes but the last came to a good end, what was
  accepted is a first part of the stream.
-/
theorem Resends.taken_isPrefix
    (hResends : Resends stream history)
    (hFinished : ∀ f ∈ history.dropLast, f.finished = true) :
    taken history <+: stream := by
  apply (Outflow.taken_isPrefix hFinished).trans
  rcases history.eq_nil_or_concat with rfl | ⟨earlier, f, rfl⟩
  · exact List.nil_prefix
  · rw [List.concat_eq_append] at hResends hFinished ⊢
    rw [List.dropLast_concat] at hFinished
    have hAll : earlier.filter Flushing.finished = earlier :=
      List.filter_eq_self.mpr hFinished
    have hStream :=
      hResends.from_confirmed earlier f (List.prefix_refl _)
    rw [confirmed, hAll] at hStream
    simpa [List.flatMap] using hStream

------------------------------------------------------------
-- Streams and their history
------------------------------------------------------------

variable {d : DeflateStream κ Endpoint}
variable {level : Nat} {calls : List EncoderCall}

/-
  A compressed stream after these calls on its encoder and these
  flushes. What the encoder gave is confirmed or still kept, and
  a flush that failed has offered the first part of what is kept.
-/
structure Streamed
    (level : Nat)
    (calls : List EncoderCall)
    (history : List Flushing)
    (d : DeflateStream κ Endpoint) : Prop where
  encoder : (κ.emit (κ.encoder level) calls).1 = d.encoder
  stream :
    (κ.emit (κ.encoder level) calls).2 =
      confirmed history ++ d.output
  resends :
    Resends (κ.emit (κ.encoder level) calls).2 history
  kept :
    ∀ f ∈ history.getLast?,
      f.finished = false → f.offered <+: d.output

/- A new compressed stream has no history. -/
theorem Streamed.new
    (κ : Codec)
    (level : Nat) :
    Streamed level [] []
      (DeflateStream.new (κ := κ) Endpoint.held level) := by
  refine ⟨rfl, rfl, ⟨?_, .nil⟩, ?_⟩
  · intro earlier f hHistory
    simp at hHistory
  · simp

/- More calls on the encoder add to what is kept. -/
theorem Streamed.encodes
    {d' : DeflateStream κ Endpoint}
    {later : List EncoderCall}
    (hStreamed : Streamed level calls history d)
    (hEncoder : (κ.emit d.encoder later).1 = d'.encoder)
    (hOutput :
      d'.output = d.output ++ (κ.emit d.encoder later).2) :
    Streamed level (calls ++ later) history d' := by
  rcases hStreamed with ⟨hThere, hStream, hResends, hKept⟩
  refine ⟨?_, ?_, ?_, ?_⟩
  · rw [Codec.emit_append, hThere]
    exact hEncoder
  · rw [Codec.emit_append, hThere, hStream, hOutput,
      List.append_assoc]
  · rw [Codec.emit_append]
    exact hResends.mono _
  · intro f hLast hFailed
    rw [hOutput]
    exact (hKept f hLast hFailed).trans
      (List.prefix_append d.output _)

/-
  A flush of all that is kept adds to the history. A good end
  confirms it; otherwise it is kept as it is.
-/
theorem Streamed.flushes
    {d' : DeflateStream κ Endpoint}
    {f : Flushing}
    (hStreamed : Streamed level calls history d)
    (hOffered : f.offered = d.output)
    (hEncoder : d'.encoder = d.encoder)
    (hOutput :
      d'.output = if f.finished then [] else d.output) :
    Streamed level calls (history ++ [f]) d' := by
  rcases hStreamed with ⟨hThere, hStream, hResends, hKept⟩
  refine ⟨?_, ?_, ?_, ?_⟩
  · rw [hEncoder]
    exact hThere
  · rw [hStream, confirmed_concat, hOutput, hOffered]
    cases f.finished <;> simp
  · rw [← hOffered] at hStream hKept
    exact hResends.concat hStream hKept
  · intro g hLast hFailed
    rw [List.getLast?_concat, Option.mem_some_iff] at hLast
    subst hLast
    rw [hOutput, hFailed, hOffered]
    exact List.prefix_refl _

------------------------------------------------------------
-- Single steps
------------------------------------------------------------

/-
  A compressed stream after the encoder was called with these
  rooms: it has all that the encoder gave behind what it kept,
  and is otherwise as it was, but for its space.
-/
structure Grows
    {τ : Type}
    (flush : Flush)
    (rooms : List Nat)
    (d d' : DeflateStream κ τ) : Prop where
  inner : d'.inner = d.inner
  decoder : d'.decoder = d.decoder
  input : d'.input = d.input
  encoder :
    (κ.emit d.encoder (rooms.map (.encode flush))).1 = d'.encoder
  output :
    d'.output =
      d.output ++ (κ.emit d.encoder (rooms.map (.encode flush))).2

/-
  Asking the encoder for what it has gives nothing to the pipe.
  It is called at least once, and never without room.
-/
theorem offers_produce_grows
    {always : Bytes → Prop}
    {τ : Type}
    {d : DeflateStream κ τ}
    {gave : Bytes}
    {flush : Flush} :
    Offers always (d.produce flush)
      (fun d' out =>
        out = gave ∧
        ∃ rooms,
          Grows flush rooms d d' ∧
          rooms ≠ [] ∧
          ∀ room ∈ rooms, 0 < room)
      gave := by
  refine ⟨fun d' out =>
    out = gave ∧
    ∃ rooms,
      Grows flush rooms d d' ∧ ∀ room ∈ rooms, 0 < room,
    ⟨rfl, [], ⟨rfl, rfl, rfl, rfl, (List.append_nil _).symm⟩,
      nofun⟩, ?_⟩
  rintro e out ⟨rfl, rooms, hGrows, hRooms⟩
  rcases e.reserve_eq with ⟨capacity, hReserve, hSpace⟩
  simp only [hReserve]
  generalize hRoom : capacity - e.output.length = room at hSpace
  have hSome : 0 < room :=
    Nat.lt_of_lt_of_le (by decide) hSpace
  have hMore : ∀ r ∈ rooms ++ [room], 0 < r := by
    rw [List.forall_mem_append, List.forall_mem_singleton]
    exact ⟨hRooms, hSome⟩
  have hRound :
      Grows flush (rooms ++ [room]) d
        { e with
          capacity := capacity
          encoder := (κ.call e.encoder flush room).encoder
          output :=
            e.output ++ (κ.call e.encoder flush room).produced } := by
    refine ⟨hGrows.inner, hGrows.decoder, hGrows.input, ?_, ?_⟩
    · rw [List.map_append, Codec.emit_append, hGrows.encoder]
      rfl
    · rw [List.map_append, Codec.emit_append, hGrows.encoder,
        hGrows.output]
      simp [Codec.emit, Codec.encode]
  simp only [Offers]
  split
  · exact ⟨rfl, _, hRound, by simp, hMore⟩
  · exact ⟨rfl, _, hRound, hMore⟩

/- What the encoder gives when it is asked is part of a history. -/
theorem offers_produce
    {always : Bytes → Prop}
    {gave : Bytes}
    {flush : Flush}
    (hStreamed : Streamed level calls history d) :
    Offers always (d.produce flush)
      (fun d' out =>
        out = gave ∧
        ∃ later,
          later.flatMap EncoderCall.written = [] ∧
          Streamed level (calls ++ later) history d')
      gave := by
  apply offers_produce_grows.mono
  rintro d' out ⟨rfl, rooms, hGrows, -, -⟩
  refine ⟨rfl, rooms.map (.encode flush), ?_,
    hStreamed.encodes hGrows.encoder hGrows.output⟩
  rw [List.flatMap_map, List.flatMap_eq_nil_iff]
  intro room _
  rfl

/- A write hands all its bytes to the encoder. -/
theorem offers_take_write
    {always : Bytes → Prop}
    {gave src : Bytes}
    (hStreamed : Streamed level calls history d) :
    Offers always (d.take (.write src))
      (fun (_, d') out =>
        out = gave ∧
        ∃ later,
          later.flatMap EncoderCall.written = src ∧
          Streamed level (calls ++ later) history d')
      gave := by
  rw [DeflateStream.take, offers_bind]
  -- In every round the encoder has all but the rest.
  refine ⟨fun (d', rest) out =>
    out = gave ∧
    ∃ later,
      later.flatMap EncoderCall.written ++ rest = src ∧
      Streamed level (calls ++ later) history d',
    ⟨rfl, [], rfl, by simpa using hStreamed⟩, ?_⟩
  rintro ⟨d, rest⟩ out ⟨rfl, later, hWritten, hLater⟩
  simp only
  split
  · next hNone =>
      subst hNone
      rw [List.append_nil] at hWritten
      exact ⟨rfl, later, hWritten, hLater⟩
  · next hSome =>
      change Offers always
        (Routine.bind (DeflateStream.write d rest) _) _ _
      have hTaken :
          Streamed level (calls ++ (later ++ [.write rest]))
            history
            { d with encoder := κ.write d.encoder rest } := by
        rw [← List.append_assoc]
        apply hLater.encodes
        · rfl
        · exact (List.append_nil d.output).symm
      rw [DeflateStream.write, Routine.bind_assoc, offers_bind]
      apply (offers_produce hTaken).mono
      rintro d out ⟨rfl, more, hNothing, hMore⟩
      rcases rest with _ | ⟨b, rest⟩
      · exact absurd rfl hSome
      · refine ⟨rfl, later ++ [.write (b :: rest)] ++ more, ?_, ?_⟩
        · rw [List.flatMap_append, hNothing, ← hWritten]
          simp [EncoderCall.written]
        · rw [← List.append_assoc]
          exact hMore

/-
  A flush adds one flush to the history, of all that is kept
  when the encoder has given the rest.
-/
theorem offers_take_flush
    {always : Bytes → Prop}
    (hStreamed : Streamed level calls history d)
    (hAlways : ∀ later f d',
      later.flatMap EncoderCall.written = [] →
      Streamed (κ := κ) level (calls ++ later)
        (history ++ [f]) d' →
      always (taken (history ++ [f]))) :
    Offers always (d.take .flush)
      (fun (reply, d') out =>
        ∃ later f,
          later.flatMap EncoderCall.written = [] ∧
          Streamed level (calls ++ later) (history ++ [f]) d' ∧
          f.finished = reply.isOk ∧
          out = taken (history ++ [f]))
      (taken history) := by
  rw [DeflateStream.take, offers_bind, DeflateStream.flush,
    offers_bind]
  apply (offers_produce hStreamed).mono
  rintro d out ⟨rfl, later, hWritten, hLater⟩
  -- What becomes of the stream when this is flushed.
  have hFlushed : ∀ f : Flushing, f.offered = d.output →
      Streamed level (calls ++ later) (history ++ [f])
        { d with
          output := if f.finished then [] else d.output } := by
    intro f hOffered
    exact hLater.flushes hOffered rfl rfl
  rw [offers_bind]
  split
  · next hNone =>
      let f : Flushing := ⟨[], 0, true, Nat.le_refl 0, fun _ => rfl⟩
      refine ⟨later, f, hWritten, hFlushed f hNone.symm, rfl, ?_⟩
      simp [f, Flushing.taken]
  · have hKept : ∀ f : Flushing, f.offered = d.output →
        always (taken (history ++ [f])) := by
      intro f hOffered
      exact hAlways later f _ hWritten (hFlushed f hOffered)
    apply (offers_flushing (fun _ => rfl) hKept).mono
    rintro ⟨r, inner⟩ out ⟨rfl, f, hOffered, hFinished, rfl⟩
    have hThere := hFlushed f hOffered
    rw [hFinished] at hThere
    cases r with
    | ok => exact ⟨later, f, hWritten, hThere, hFinished, rfl⟩
    | error e =>
        exact ⟨later, f, hWritten, hThere, hFinished, rfl⟩

/-
  Every step of output hands what it writes to the encoder, and
  adds a flush to the history if it is one, which it confirms if
  that came to a good end.
-/
theorem offers_take
    {always : Bytes → Prop}
    {step : CompressedStep}
    (hStreamed : Streamed level calls history d)
    (hOutput : step.isOutput = true)
    (hAlways : ∀ later f d',
      later.flatMap EncoderCall.written = [] →
      Streamed (κ := κ) level (calls ++ later)
        (history ++ [f]) d' →
      always (taken (history ++ [f]))) :
    Offers always (d.take step)
      (fun (reply, d') out =>
        ∃ later flushes,
          later.flatMap EncoderCall.written = step.written ∧
          Streamed level (calls ++ later) (history ++ flushes)
            d' ∧
          flushes.map Flushing.finished =
            confirmations CompressedStep.isFlush [step] [reply] ∧
          out = taken (history ++ flushes))
      (taken history) := by
  cases step with
  | write src =>
      apply (offers_take_write hStreamed).mono
      rintro ⟨reply, d'⟩ out ⟨rfl, later, hWritten, hLater⟩
      refine ⟨later, [], hWritten, ?_, rfl, ?_⟩
      · rw [List.append_nil]
        exact hLater
      · rw [List.append_nil]
  | flush =>
      apply (offers_take_flush hStreamed hAlways).mono
      rintro ⟨reply, d'⟩ out
        ⟨later, f, hWritten, hLater, hFinished, rfl⟩
      refine ⟨later, [f], hWritten, hLater, ?_, rfl⟩
      rw [List.map_singleton, hFinished]
      rfl
  | endpoint step =>
      rw [DeflateStream.take, offers_bind]
      apply (offers_take_of_isLimit hOutput).mono
      rintro reply out rfl
      refine ⟨[], [], rfl, ?_, rfl, ?_⟩
      · rw [List.append_nil, List.append_nil]
        exact hStreamed
      · rw [List.append_nil]
  | _ => exact Bool.noConfusion hOutput

------------------------------------------------------------
-- Conversations
------------------------------------------------------------

/- All that the steps of a conversation write. -/
def handed
    (steps : List CompressedStep) : Bytes :=
  steps.flatMap CompressedStep.written

/-
  Bytes that some flushes gave, of what an encoder gave for some
  first part of these bytes.
-/
def AccountedFor
    (κ : Codec)
    (level : Nat)
    (src gave : Bytes) : Prop :=
  ∃ (calls : List EncoderCall) (history : List Flushing),
    gave = taken history ∧
    calls.flatMap EncoderCall.written <+: src ∧
    Resends (κ.emit (κ.encoder level) calls).2 history

/-
  The steps of a conversation hand all that they write to the
  encoder and add a flush to the history for each flush among
  them; they confirm just those that came to a good end.
-/
theorem offers_compressed
    {src : Bytes}
    {steps : List CompressedStep}
    (hStreamed : Streamed level calls history d)
    (hOutput : ∀ step ∈ steps, step.isOutput = true)
    (hSrc :
      calls.flatMap EncoderCall.written ++ handed steps <+: src) :
    Offers (AccountedFor κ level src)
      (Routine.forEach DeflateStream.take d steps)
      (fun (replies, d') out =>
        ∃ later flushes,
          later.flatMap EncoderCall.written = handed steps ∧
          Streamed level (calls ++ later) (history ++ flushes)
            d' ∧
          flushes.map Flushing.finished =
            confirmations CompressedStep.isFlush steps replies ∧
          out = taken (history ++ flushes))
      (taken history) := by
  induction steps generalizing d calls history with
  | nil =>
      refine ⟨[], [], rfl, ?_, rfl, ?_⟩
      · rw [List.append_nil, List.append_nil]
        exact hStreamed
      · rw [List.append_nil]
  | cons step steps ih =>
      rw [List.forall_mem_cons] at hOutput
      rcases hOutput with ⟨hFirst, hRest⟩
      rw [handed, List.flatMap_cons, ← handed] at hSrc ⊢
      rw [Routine.forEach, offers_bind]
      apply (offers_take hStreamed hFirst ?_).mono
      · rintro ⟨reply, d'⟩ out
          ⟨first, flushes, hWritten, hThere, hFlags, rfl⟩
        have hLeft :
            (calls ++ first).flatMap EncoderCall.written ++
                handed steps <+: src := by
          rw [List.flatMap_append, hWritten, List.append_assoc]
          exact hSrc
        rw [offers_bind]
        apply (ih hThere hRest hLeft).mono
        rintro ⟨replies, d''⟩ out
          ⟨later, more, hLater, hEnd, hMore, rfl⟩
        refine ⟨first ++ later, flushes ++ more, ?_, ?_, ?_, ?_⟩
        · rw [List.flatMap_append, hWritten, hLater]
        · rw [← List.append_assoc, ← List.append_assoc]
          exact hEnd
        · rw [List.map_append, hFlags, hMore,
            ← confirmations_cons]
        · rw [← List.append_assoc]
      · intro later f d' hNothing hLater
        refine ⟨calls ++ later, history ++ [f], rfl, ?_,
          hLater.resends⟩
        rw [List.flatMap_append, hNothing, List.append_nil]
        exact (List.prefix_append _ _).trans hSrc

section

variable {ι : Type} [DecidableEq ι] {R : ι → Type}
variable {clients : (i : ι) → Routine endpointInterface (R i)}
variable {home : Side} {nameA nameB : String} {capacity : Nat}
variable {steps : List CompressedStep}
variable {log : List (Visit (Option ι))}
variable
  {t : Traffic
    (Result (List Reply × DeflateStream κ Endpoint) R)}

/-
  For every codec and every conversation of writes and flushes
  on a compressed stream, whatever is done at the far end and
  in whatever order: at every moment the pipe has accepted a
  first part of what each flush offered, and each flush offered
  the encoder's bytes from the first one on that no earlier
  flush has confirmed; so a flush after one that failed begins
  with the same bytes. As long as all flushes but the last came
  to a good end, what was accepted is a first part of what the
  encoder gave. When the conversation is over, the encoder has
  all that was written, what it gave is confirmed or still
  kept, and the flushes that came to a good end are those that
  were confirmed.
-/
theorem compressed_outflow_spec
    (hRun :
      Run (seat home)
        (new (.pair nameA nameB capacity)
          (routines
            (Routine.forEach DeflateStream.take
              (DeflateStream.new (κ := κ) .held level) steps)
            clients))
        log t)
    (hOutput : ∀ step ∈ steps, step.isOutput = true) :
    ∃ (calls : List EncoderCall) (history : List Flushing),
      accepted home.other log = taken history ∧
      calls.flatMap EncoderCall.written <+: handed steps ∧
      Resends (κ.emit (κ.encoder level) calls).2 history ∧
      ((∀ f ∈ history.dropLast, f.finished = true) →
        accepted home.other log <+:
          (κ.emit (κ.encoder level) calls).2) ∧
      ∀ replies d, t.parties none = .ready (.done (replies, d)) →
        calls.flatMap EncoderCall.written = handed steps ∧
        Streamed level calls history d ∧
        history.map Flushing.finished =
          confirmations CompressedStep.isFlush steps replies := by
  have hOffers := offers_compressed (Streamed.new κ level)
    hOutput (List.prefix_refl (handed steps))
  have hAlways : AccountedFor κ level (handed steps) [] :=
    ⟨[], [], rfl, List.nil_prefix, (Streamed.new κ level).resends⟩
  rcases given_of_run hRun hAlways hOffers with
    ⟨⟨calls, history, hTaken, hCalls, hResends⟩, hEnd⟩
  by_cases hDone : ∃ a : List Reply × DeflateStream κ Endpoint,
      t.parties none = .ready (.done a)
  · rcases hDone with ⟨⟨replies, d⟩, hDone⟩
    rcases hEnd _ hDone with
      ⟨calls, history, hAll, hStreamed, hFlags, hTaken⟩
    refine ⟨calls, history, hTaken, ?_, hStreamed.resends, ?_, ?_⟩
    · exact ⟨[], (List.append_nil _).trans hAll⟩
    · intro hFinished
      rw [hTaken]
      exact hStreamed.resends.taken_isPrefix hFinished
    · intro replies' d' hDone'
      rw [hDone] at hDone'
      cases hDone'
      exact ⟨hAll, hStreamed, hFlags⟩
  · refine ⟨calls, history, hTaken, hCalls, hResends, ?_, ?_⟩
    · intro hFinished
      rw [hTaken]
      exact hResends.taken_isPrefix hFinished
    · intro replies d hOver
      exact absurd ⟨_, hOver⟩ hDone

end

/-
  A compressed stream over a pipe that holds three bytes is
  flushed twice. Each time the encoder gives its five bytes that
  mark a flush, and each flush runs into its time limit; in
  between the client takes what there is.
-/
def repeatSteps : List CompressedStep :=
  [.endpoint (.setTimeout (some (.ofMillis 12))), .flush, .flush]

/- The compressed stream and its client. -/
def repeatRoutines :
    (i : Option Unit) →
      Routine endpointInterface
        (Result (List Reply × DeflateStream rawDeflate Endpoint)
          (fun _ => Except PipeError Bytes) i) :=
  routines
    (Routine.forEach DeflateStream.take
      (DeflateStream.new .held 6) repeatSteps)
    fun _ => Endpoint.recv 3

/-
  The run: each flush waits with three bytes accepted until its
  time is up, tries the others in vain, and fails.
-/
def repeatRun :
    List (Visit (Option Unit)) ×
      Traffic (Result
        (List Reply × DeflateStream rawDeflate Endpoint)
        (fun _ : Unit => Except PipeError Bytes)) :=
  playPaced (seat .a)
    [(0, none), (0, none), (0, none), (0, none),
      (20000000, none), (0, none), (0, none), (20000000, none),
      (0, some ()), (0, none), (0, none), (0, none),
      (20000000, none), (0, none), (0, none), (20000000, none)]
    (new (.pair "client" "server" 3) repeatRoutines)

/- What the encoder is asked for in this run. -/
def repeatCalls : List EncoderCall :=
  [.encode .sync 4096, .encode .sync 8187]

/- Both flushes have failed, and the encoder has made its calls. -/
theorem repeatRun_spec :
    ∃ (replies : List Reply)
      (d : DeflateStream rawDeflate Endpoint),
      repeatRun.2.parties none = .ready (.done (replies, d)) ∧
        confirmations CompressedStep.isFlush repeatSteps replies =
          [false, false] ∧
        (rawDeflate.emit (rawDeflate.encoder 6)
          repeatCalls).1 = d.encoder := by
  refine ⟨?replies, ?d, ?done, ?failed, ?encoder⟩
  case done => with_unfolding_all rfl
  case failed => rfl
  case encoder => with_unfolding_all rfl

/-
  The client gets the first three bytes of the encoder's stream
  twice, and not the bytes that follow them.
-/
theorem exists_repetition :
    ∃ (log : List (Visit (Option Unit)))
      (t : Traffic (Result
        (List Reply × DeflateStream rawDeflate Endpoint)
        (fun _ : Unit => Except PipeError Bytes)))
      (replies : List Reply)
      (d : DeflateStream rawDeflate Endpoint),
      Run (seat .a)
          (new (.pair "client" "server" 3) repeatRoutines) log t ∧
        (∀ step ∈ repeatSteps, step.isOutput = true) ∧
        t.parties none = .ready (.done (replies, d)) ∧
        (rawDeflate.emit (rawDeflate.encoder 6)
          repeatCalls).1 = d.encoder ∧
        (rawDeflate.emit (rawDeflate.encoder 6)
          repeatCalls).2 =
            [0, 0, 0, 255, 255, 0, 0, 0, 255, 255] ∧
        accepted .b log = [0, 0, 0, 0, 0, 0] ∧
        ¬ accepted .b log <+:
          (rawDeflate.emit (rawDeflate.encoder 6)
            repeatCalls).2 := by
  rcases repeatRun_spec with ⟨replies, d, hDone, -, hEncoder⟩
  exact ⟨repeatRun.1, repeatRun.2, replies, d,
    run_playPaced _ _ _, by decide, hDone, hEncoder,
    by decide +kernel, by decide +kernel, by decide +kernel⟩

theorem compressed_outflow_spec_of_repetition :
    ∃ (calls : List EncoderCall) (history : List Flushing),
      accepted .b repeatRun.1 = taken history ∧
        history.map Flushing.finished = [false, false] ∧
        Resends (rawDeflate.emit (rawDeflate.encoder 6) calls).2
          history := by
  have hRun :
      Run (seat .a)
        (new (.pair "client" "server" 3) repeatRoutines)
        repeatRun.1 repeatRun.2 :=
    run_playPaced _ _ _
  rcases compressed_outflow_spec hRun (by decide) with
    ⟨calls, history, hTaken, -, hResends, -, hEnd⟩
  rcases repeatRun_spec with ⟨replies, d, hDone, hFailed, -⟩
  rcases hEnd replies d hDone with ⟨-, -, hFlags⟩
  rw [hFailed] at hFlags
  exact ⟨calls, history, hTaken, hFlags, hResends⟩

end Outflow

end Parley
