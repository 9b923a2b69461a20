import Parley.Deflate.Codec
import Parley.Tls.Stream
import Parley.Proofs.Transcript.Delivery
/-
  This file says what a surrogate reads over a plain endpoint
  that delivers a stream of bytes in any parts, fails now and
  then, and ends when all were delivered. Whatever calls are
  made, they read one flat stream: the bytes that are in the
  buffer and those that are still to come. A call fails just if
  the endpoint fails it, and might as well not have been made.

  Key definitions include:
    * `Transcript.ReadCall`
    * `Transcript.Reads`
    * `Transcript.lines`
    * `Transcript.Source`
    * `Transcript.faltering`
    * `Transcript.ReadsFlat`

  Key theorems include:
    * `Transcript.Reads.of_settled`
    * `Transcript.Reads.settled_eq_lines`
    * `Transcript.delivers_faltering`
    * `Transcript.yields_reads`
-/

namespace Parley

namespace Transcript

open Routine

variable {κ : Codec} {θ : Tls.Provider}

------------------------------------------------------------
-- Calls and what they come to
------------------------------------------------------------

/- A call that reads a line, or a part of `room` bytes at most. -/
inductive ReadCall where
  | line
  | part (room : Nat)
deriving DecidableEq, Repr

/- What a call that reads results in. -/
inductive ReadResult where
  | line (r : Except SurrogateError Bytes)
  | part (r : Except IoError Bytes)

/- Make the call. -/
def ReadCall.take
    (s : Surrogate κ θ) :
    ReadCall →
    Routine endpointInterface (ReadResult × Surrogate κ θ)
  | line => s.readLine.bind fun (r, s) => .done (.line r, s)
  | part room => (s.read room).bind fun (r, s) => .done (.part r, s)

/- Make calls in order, also after one that fails. -/
def readAll
    (s : Surrogate κ θ)
    (calls : List ReadCall) :
    Routine endpointInterface (List ReadResult × Surrogate κ θ) :=
  forEach ReadCall.take s calls

/- What the call results in on a closed surrogate. -/
def ReadCall.refused : ReadCall → ReadResult
  | line => .line (.error .closed)
  | part _ => .part (.error (.surrogate .closed))

/- Whether a result is no failure of the stream. -/
def ReadResult.isSettled : ReadResult → Bool
  | line (.error (.io _)) => false
  | part (.error _) => false
  | _ => true

/- The failure of the layers that a result reports, if any. -/
def ReadResult.failures : ReadResult → List IoError
  | line r => lineFailures r
  | part r => readFailures r

/- How a plain endpoint fails other than by its end. -/
def LinkFailure
    (e : IoError) : Prop :=
  ∃ failure, failure ≠ PipeError.endOfStream ∧ e = .pipe failure

------------------------------------------------------------
-- Reading a flat stream
------------------------------------------------------------

/- One call on a stream, and what is left of it. -/
inductive ReadStep
    (terminator : Bytes) :
    Bytes → ReadCall → ReadResult → Bytes → Prop where
  | line
      {left rest : Bytes}
      {r : Except SurrogateError Bytes}
      (hLine : LineOff LinkFailure terminator left r rest) :
      ReadStep terminator left .line (.line r) rest
  | part
      {left rest : Bytes}
      {room : Nat}
      {r : Except IoError Bytes}
      (hPart : Part LinkFailure room left r rest) :
      ReadStep terminator left (.part room) (.part r) rest

/- Calls on a stream, each on what the one before it left. -/
inductive Reads
    (terminator : Bytes) :
    Bytes → List ReadCall → List ReadResult → Bytes → Prop where
  | nil
      {left : Bytes} :
      Reads terminator left [] [] left
  | cons
      {left next rest : Bytes}
      {call : ReadCall}
      {result : ReadResult}
      {calls : List ReadCall}
      {results : List ReadResult}
      (hStep : ReadStep terminator left call result next)
      (hReads : Reads terminator next calls results rest) :
      Reads terminator left (call :: calls) (result :: results) rest

/-
  The first lines of a stream. When it ends, what there is of a
  line is reported, and nothing from then on.
-/
def lines
    (terminator : Bytes) :
    Nat → Bytes → List (Except SurrogateError Bytes)
  | 0, _ => []
  | n + 1, left =>
    match terminator.find? left with
    | some k =>
      .ok (left.take k) ::
        lines terminator n (left.drop (k + terminator.length))
    | none => .error (.unexpectedEof left) :: lines terminator n []

/- The calls whose result is settled, with these results. -/
def settled
    (calls : List ReadCall)
    (results : List ReadResult) : List (ReadCall × ReadResult) :=
  (calls.zip results).filter fun p => p.2.isSettled

variable {terminator left rest : Bytes}
variable {calls : List ReadCall} {results : List ReadResult}

/- A call whose result is not settled leaves the stream alone. -/
theorem ReadStep.eq_of_not_isSettled
    {call : ReadCall}
    {result : ReadResult}
    (hStep : ReadStep terminator left call result rest)
    (hUnsettled : result.isSettled = false) :
    rest = left := by
  cases hStep with
  | line hLine =>
      cases hLine with
      | line _ => cases hUnsettled
      | ended _ => cases hUnsettled
      | failed _ => rfl
  | part hPart =>
      cases hPart with
      | given _ _ => cases hUnsettled
      | failed _ => rfl

/-
  Without the calls whose result is not settled, the others have
  the same results.
-/
theorem Reads.of_settled
    (hReads : Reads terminator left calls results rest) :
    Reads terminator left
      ((settled calls results).map Prod.fst)
      ((settled calls results).map Prod.snd) rest := by
  induction hReads with
  | nil => exact .nil
  | @cons _ _ _ _ result _ _ hStep _ ih =>
      cases hSettled : result.isSettled with
      | true =>
          simp only [settled, List.zip_cons_cons, List.filter_cons,
            hSettled, if_true, List.map_cons]
          exact .cons hStep ih
      | false =>
          simp only [settled, List.zip_cons_cons, List.filter_cons,
            hSettled, Bool.false_eq_true, if_false]
          rw [← hStep.eq_of_not_isSettled hSettled]
          exact ih

/- Lines that are read without a failure are the first lines. -/
theorem Reads.eq_lines
    {n : Nat}
    (hReads :
      Reads terminator left (List.replicate n .line) results rest)
    (hSettled : ∀ result ∈ results, result.isSettled) :
    results = (lines terminator n left).map .line := by
  induction n generalizing left results with
  | zero =>
      cases hReads
      rfl
  | succ n ih =>
      cases hReads with
      | cons hStep hReads =>
          rcases List.forall_mem_cons.mp hSettled with ⟨hHere, hOn⟩
          have hOthers := ih hReads hOn
          cases hStep with
          | line hLine =>
              cases hLine with
              | failed _ => cases hHere
              | ended hNowhere =>
                  rw [lines,
                    Bytes.find?_eq_none_iff_not_isInfix.mpr hNowhere,
                    hOthers]
                  rfl
              | line hCut =>
                  rw [lines, hCut.find?_eq, hOthers, hCut.whole]
                  simp only [List.map_cons]
                  rw [← List.length_append, List.drop_left,
                    List.append_assoc, List.take_left]

/-
  A result reports one failure if it is not settled, and else
  none.
-/
theorem ReadStep.length_failures
    {call : ReadCall}
    {result : ReadResult}
    (hStep : ReadStep terminator left call result rest) :
    result.failures.length = if result.isSettled then 0 else 1 := by
  cases hStep with
  | line hLine => cases hLine <;> rfl
  | part hPart => cases hPart <;> rfl

/- What is settled and what fails are all the calls. -/
theorem Reads.length_settled
    (hReads : Reads terminator left calls results rest) :
    (settled calls results).length +
        (results.flatMap ReadResult.failures).length =
      calls.length := by
  induction hReads with
  | nil => rfl
  | @cons _ _ _ _ result _ _ hStep _ ih =>
      have hHere := hStep.length_failures
      rw [settled] at ih
      rw [settled, List.zip_cons_cons, List.filter_cons,
        List.flatMap_cons, List.length_append, hHere,
        List.length_cons]
      cases result.isSettled with
      | true =>
          rw [if_pos rfl, if_pos rfl, List.length_cons]
          omega
      | false =>
          rw [if_neg Bool.false_ne_true, if_neg Bool.false_ne_true]
          omega

/-
  Where only lines are read, the settled results are the first
  lines of the stream, one for each call that did not fail.
-/
theorem Reads.settled_eq_lines
    {n : Nat}
    (hReads :
      Reads terminator left (List.replicate n .line) results rest) :
    (settled (List.replicate n .line) results).map Prod.snd =
      (lines terminator
        (n - (results.flatMap ReadResult.failures).length)
        left).map .line := by
  have hCount := hReads.length_settled
  rw [List.length_replicate] at hCount
  have hLines :
      (settled (List.replicate n ReadCall.line) results).map
          Prod.fst =
        List.replicate
          (n - (results.flatMap ReadResult.failures).length)
          .line := by
    rw [List.eq_replicate_iff, List.length_map]
    refine ⟨by omega, fun call hCall => ?_⟩
    rcases List.mem_map.mp hCall with ⟨p, hPair, rfl⟩
    exact List.eq_of_mem_replicate
      (List.of_mem_zip (List.mem_filter.mp hPair).1).1
  have hSettled := hReads.of_settled
  rw [hLines] at hSettled
  apply hSettled.eq_lines
  intro result hResult
  rcases List.mem_map.mp hResult with ⟨p, hPair, rfl⟩
  exact (List.mem_filter.mp hPair).2

------------------------------------------------------------
-- A plain endpoint that falters
------------------------------------------------------------

/-
  What is behind the endpoint: the bytes that it is still to
  deliver, and the failures that it has answered with so far.
-/
structure Source where
  coming : Bytes
  failures : List PipeError

/- The failures of an endpoint, as a surrogate reports them. -/
def Source.reports
    (source : Source) : List IoError :=
  source.failures.map .pipe

/-
  How the endpoint answers: with any part of the bytes that are
  to come, with a failure that takes none of them, or with the
  end when there are none. Without room it may give nothing.
-/
inductive Faltering :
    Source → (call : Call) → call.Answer → Source → Prop where
  | delivered
      {room : Nat}
      {chunk rest : Bytes}
      {failures : List PipeError}
      (hSome : chunk ≠ [])
      (hFits : chunk.length ≤ room) :
      Faltering ⟨chunk ++ rest, failures⟩ (.recv room) (.ok chunk)
        ⟨rest, failures⟩
  | roomless
      {source : Source} :
      Faltering source (.recv 0) (.ok []) source
  | failed
      {room : Nat}
      {coming : Bytes}
      {failures : List PipeError}
      {failure : PipeError}
      (hFailure : failure ≠ .endOfStream) :
      Faltering ⟨coming, failures⟩ (.recv room) (.error failure)
        ⟨coming, failures ++ [failure]⟩
  | ended
      {room : Nat}
      {failures : List PipeError} :
      Faltering ⟨[], failures⟩ (.recv room) (.error .endOfStream)
        ⟨[], failures⟩

/- It is there to receive from. -/
def faltering : Environment endpointInterface Source where
  admits _ call :=
    match call with
    | .recv _ => True
    | _ => False
  answers := Faltering

/- Plain layers over such an endpoint. -/
def Source.Holds
    (layer : Layer κ θ)
    (coming : Bytes)
    (failed : List IoError)
    (source : Source) : Prop :=
  layer = .raw .plain ∧
    source.coming = coming ∧ source.reports = failed

/- They deliver what it does. -/
theorem delivers_faltering
    (room : Nat) :
    Delivers faltering (Source.Holds (κ := κ) (θ := θ))
      LinkFailure True room := by
  rintro layer coming failed source ⟨rfl, rfl, rfl⟩ -
  have hNothing : ∀ rest, room = 0 ∨ rest = [] →
      Part LinkFailure room rest (.ok []) rest := by
    intro rest hEnd
    exact @Part.given LinkFailure room [] rest (Nat.zero_le room)
      fun _ => hEnd
  refine .ask trivial fun r w hAnswers => ?_
  cases hAnswers with
  | @delivered _ _ rest _ hSome hFits =>
      exact .done ⟨rest,
        .given hFits fun hNone => absurd hNone hSome, rfl, rfl,
        (List.append_nil _).symm⟩
  | roomless =>
      exact .done ⟨source.coming, hNothing _ (.inl rfl), rfl, rfl,
        (List.append_nil _).symm⟩
  | @failed _ coming failures failure hFailure =>
      cases failure with
      | endOfStream => exact absurd rfl hFailure
      | timeout endpoint direction =>
          exact .done ⟨coming, .failed ⟨_, hFailure, rfl⟩, rfl, rfl,
            List.map_append⟩
  | ended =>
      exact .done ⟨[], hNothing [] (.inr rfl), rfl, rfl,
        (List.append_nil _).symm⟩

------------------------------------------------------------
-- Calls over it
------------------------------------------------------------

/-
  What calls on a surrogate come to over an endpoint. Nothing
  about it changes but its buffer. On a closed one all are
  refused. On an open one they read a flat stream, and report
  just the failures of the endpoint, each once and in order.
  Calls that fail might as well not have been made, and lines
  are the same however they come in: each call that does not
  fail reads the next one.
-/
structure ReadsFlat
    (s : Surrogate κ θ)
    (source : Source)
    (calls : List ReadCall)
    (results : List ReadResult)
    (s' : Surrogate κ θ)
    (source' : Source) : Prop where
  untouched : s' = { s with unread := s'.unread }
  refused :
    s.closed = true →
      results = calls.map ReadCall.refused ∧
        s'.unread = s.unread ∧ source' = source
  reads :
    s.closed = false →
      Reads s.terminator (s.unread ++ source.coming) calls results
        (s'.unread ++ source'.coming)
  reports :
    s.closed = false →
      source'.reports =
        source.reports ++ results.flatMap ReadResult.failures
  readsSettled :
    s.closed = false →
      Reads s.terminator (s.unread ++ source.coming)
        ((settled calls results).map Prod.fst)
        ((settled calls results).map Prod.snd)
        (s'.unread ++ source'.coming)
  readsLines :
    s.closed = false →
      ∀ n, calls = List.replicate n .line →
        (settled calls results).map Prod.snd =
          (lines s.terminator
            (n - (results.flatMap ReadResult.failures).length)
            (s.unread ++ source.coming)).map .line

/- One call on an open surrogate is one step on the stream. -/
theorem yields_take
    {s : Surrogate κ θ}
    {source : Source}
    (hPlain : s.layer = .raw .plain)
    (hTerminator : s.terminator ≠ [])
    (hOpen : s.closed = false)
    (call : ReadCall) :
    Yields faltering
      (fun (result, s') source' =>
        s' = { s with unread := s'.unread } ∧
          ReadStep s.terminator (s.unread ++ source.coming) call
            result (s'.unread ++ source'.coming) ∧
          source'.reports = source.reports ++ result.failures)
      (call.take s) source := by
  cases call with
  | line =>
      apply ((delivers_faltering _).yields_readLine hTerminator
        hOpen source.reports ⟨hPlain, rfl, rfl⟩ (.inl trivial)).bind
      rintro ⟨r, s'⟩ w
        ⟨_, unread, _, rfl, hStep, rfl, rfl, hReports⟩
      refine .done ⟨?_, .line hStep, hReports⟩
      rw [← hPlain]
  | part room =>
      apply ((delivers_faltering room).yields_read hOpen
        source.reports ⟨hPlain, rfl, rfl⟩ fun _ => trivial).bind
      rintro ⟨r, s'⟩ w
        ⟨_, unread, _, rfl, hStep, rfl, rfl, hReports⟩
      refine .done ⟨?_, .part hStep, hReports⟩
      rw [← hPlain]

/- Calls on an open surrogate are steps on the stream. -/
theorem yields_readAll
    {s : Surrogate κ θ}
    {source : Source}
    (hPlain : s.layer = .raw .plain)
    (hTerminator : s.terminator ≠ [])
    (hOpen : s.closed = false)
    (calls : List ReadCall) :
    Yields faltering
      (fun (results, s') source' =>
        s' = { s with unread := s'.unread } ∧
          Reads s.terminator (s.unread ++ source.coming) calls
            results (s'.unread ++ source'.coming) ∧
          source'.reports =
            source.reports ++ results.flatMap ReadResult.failures)
      (readAll s calls) source := by
  induction calls generalizing s source with
  | nil => exact .done ⟨rfl, .nil, (List.append_nil _).symm⟩
  | cons call calls ih =>
      apply (yields_take hPlain hTerminator hOpen call).bind
      rintro ⟨result, s₁⟩ w ⟨hSame, hStep, hReport⟩
      rw [hSame] at hStep ⊢
      apply (ih (s := { s with unread := s₁.unread }) hPlain
        hTerminator hOpen).bind
      rintro ⟨results, s₂⟩ w ⟨hSame', hReads, hReports⟩
      refine .done ⟨hSame', .cons hStep hReads, ?_⟩
      rw [hReports, hReport, List.flatMap_cons, List.append_assoc]

/- Calls on a closed surrogate are refused. -/
theorem yields_readAll_of_closed
    {s : Surrogate κ θ}
    {source : Source}
    (hClosed : s.closed = true)
    (calls : List ReadCall) :
    Yields faltering
      (fun (results, s') source' =>
        s' = s ∧ results = calls.map ReadCall.refused ∧
          source' = source)
      (readAll s calls) source := by
  induction calls with
  | nil => exact .done ⟨rfl, rfl, rfl⟩
  | cons call calls ih =>
      have hRefused : call.take s = .done (call.refused, s) := by
        cases call <;>
          simp only [ReadCall.take, Surrogate.readLine,
            Surrogate.read, Surrogate.fail, hClosed, if_true,
            done_bind, ReadCall.refused]
      unfold readAll forEach
      rw [hRefused]
      apply ih.bind
      rintro ⟨results, s'⟩ w ⟨rfl, rfl, rfl⟩
      exact .done ⟨rfl, rfl, rfl⟩

/-
  Any calls that read, on any surrogate over a plain endpoint
  with a terminator, however the endpoint delivers and whenever
  it fails, come to an end and read a flat stream. No call fails
  by itself: the failures are those of the endpoint.
-/
theorem yields_reads
    {s : Surrogate κ θ}
    (hPlain : s.layer = .raw .plain)
    (hTerminator : s.terminator ≠ [])
    (source : Source)
    (calls : List ReadCall) :
    Yields faltering
      (fun (results, s') source' =>
        ReadsFlat s source calls results s' source')
      (readAll s calls) source := by
  cases hClosed : s.closed with
  | true =>
      apply (yields_readAll_of_closed hClosed calls).mono
      rintro ⟨results, s'⟩ w ⟨rfl, rfl, rfl⟩
      have hNever : s'.closed ≠ false := by simp [hClosed]
      exact ⟨rfl, fun _ => ⟨rfl, rfl, rfl⟩,
        fun hOpen => absurd hOpen hNever,
        fun hOpen => absurd hOpen hNever,
        fun hOpen => absurd hOpen hNever,
        fun hOpen => absurd hOpen hNever⟩
  | false =>
      apply (yields_readAll hPlain hTerminator hClosed calls).mono
      rintro ⟨results, s'⟩ w ⟨hSame, hReads, hReports⟩
      refine ⟨hSame, ?_, fun _ => hReads, fun _ => hReports,
        fun _ => hReads.of_settled, ?_⟩
      · intro hTrue
        rw [hClosed] at hTrue
        cases hTrue
      · rintro - n rfl
        exact hReads.settled_eq_lines

/-
  A surrogate whose lines end with two equal bytes, and with one
  byte of a line in its buffer.
-/
def overlapping : Surrogate rawDeflate Tls.transparent :=
  { Surrogate.new [1, 1] with unread := [7] }

/-
  The first read of a line fails after one more byte has come,
  and that is the one failure that the endpoint has answered
  with. The others read what they would have read without it.
-/
theorem yields_reads_of_overlapping :
    ∃ results s' source',
      Ends faltering
          (readAll overlapping [.line, .part 1, .line, .line])
          ⟨[1, 1, 1, 8, 1, 1], []⟩ (results, s') source' ∧
        ReadsFlat overlapping ⟨[1, 1, 1, 8, 1, 1], []⟩
            [.line, .part 1, .line, .line] results s' source' ∧
          results =
            [.line (.error (.io (.pipe (.timeout "server" .read)))),
              .part (.ok [7]), .line (.ok []),
              .line (.ok [1, 8])] ∧
          source' = ⟨[], [.timeout "server" .read]⟩ := by
  have hOne :
      faltering.answers ⟨[1, 1, 1, 8, 1, 1], []⟩
        (.recv Surrogate.chunkSize) (.ok [1])
        ⟨[1, 1, 8, 1, 1], []⟩ :=
    Faltering.delivered (List.cons_ne_nil 1 []) (by decide)
  have hFailed :
      faltering.answers ⟨[1, 1, 8, 1, 1], []⟩
        (.recv Surrogate.chunkSize)
        (.error (.timeout "server" .read))
        ⟨[1, 1, 8, 1, 1], [.timeout "server" .read]⟩ :=
    .failed nofun
  have hAll :
      faltering.answers
        ⟨[1, 1, 8, 1, 1], [.timeout "server" .read]⟩
        (.recv Surrogate.chunkSize) (.ok [1, 1, 8, 1, 1])
        ⟨[], [.timeout "server" .read]⟩ :=
    Faltering.delivered (List.cons_ne_nil 1 [1, 8, 1, 1])
      (by decide)
  have hEnds :
      Ends faltering
        (readAll overlapping [.line, .part 1, .line, .line])
        ⟨[1, 1, 1, 8, 1, 1], []⟩
        ([.line (.error (.io (.pipe (.timeout "server" .read)))),
            .part (.ok [7]), .line (.ok []), .line (.ok [1, 8])],
          { overlapping with unread := [] })
        ⟨[], [.timeout "server" .read]⟩ :=
    .loop (.ask hOne (.loop (.ask hFailed
      (.loop (.ask hAll (.loop (.loop (.done _ _))))))))
  have hYields := yields_reads (s := overlapping) rfl
    (List.cons_ne_nil 1 [1]) ⟨[1, 1, 1, 8, 1, 1], []⟩
    [.line, .part 1, .line, .line]
  exact ⟨_, _, _, hEnds, hYields.of_ends hEnds, rfl, rfl⟩

end Transcript

end Parley
