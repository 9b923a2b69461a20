import Parley.Proofs.Compression.Streams
import Parley.Proofs.Inflating.Machine
/-
  This file shows what reading from a compressed stream comes
  to, wherever the stream below is cut into pieces, whichever of
  its reads fail, and with whatever room each read is made. Every
  read ends, and gives the next of the decoded bytes, or none at
  the end of the compressed data or of the stream below, or the
  failure of the stream below. It reads the stream below only
  when it has used everything that it took from it, and gave all
  that can be decoded from that.

  Key definitions include:
    * `StreamCall`
    * `Remote`
    * `Inflating.gathered`
    * `Inflating.feed`
    * `Inflating.Outcome`
    * `Inflating.Underway`
    * `Inflating.Reads`

  Key theorems include:
    * `Inflating.decoded`
    * `Inflating.yields_read`
    * `Inflating.Reads.reached`
    * `Inflating.reads_spec`
-/

namespace Parley

------------------------------------------------------------
-- Streams that are answered from outside
------------------------------------------------------------

/- The calls on a stream, as operations. -/
inductive StreamCall where
  | read (room : Nat)
  | write (src : Bytes)
  | flush

/- What each of them answers. -/
def StreamCall.Answer : StreamCall → Type
  | .read _ => Except IoError Bytes
  | .write _ => Except IoError Nat
  | .flush => Except IoError Unit

/- The operations of a stream. -/
def streamInterface : Interface where
  Op := StreamCall
  Answer := StreamCall.Answer

/-
  A stream of which nothing is known. Every call on it is
  answered by whoever runs the routine.
-/
inductive Remote where
  | held

instance : ByteStream streamInterface Remote where
  read t room :=
    .ask (I := streamInterface) (.read room) fun r => .done (r, t)
  write t src :=
    .ask (I := streamInterface) (.write src) fun r => .done (r, t)
  flush t :=
    .ask (I := streamInterface) .flush fun r => .done (r, t)

namespace Inflating

open Routine Compression

------------------------------------------------------------
-- What is read
------------------------------------------------------------

/- The bytes that a read gives. -/
def bytesOf : Except IoError Bytes → Bytes
  | .ok s => s
  | .error _ => []

/- The bytes that reads in a row give. -/
def gathered
    (reads : List (Except IoError Bytes)) : Bytes :=
  reads.flatMap bytesOf

@[simp] theorem gathered_nil : gathered [] = [] :=
  rfl

@[simp] theorem gathered_cons
    (r : Except IoError Bytes)
    (reads : List (Except IoError Bytes)) :
    gathered (r :: reads) = bytesOf r ++ gathered reads :=
  rfl

@[simp] theorem gathered_append
    (reads more : List (Except IoError Bytes)) :
    gathered (reads ++ more) = gathered reads ++ gathered more :=
  List.flatMap_append

/-
  How a source goes on of which `taken` was read: with any
  failure, with some of its next bytes that there is room for, or
  with none when there are none.
-/
def Continues
    (source taken : Bytes)
    (room : Nat) : Except IoError Bytes → Prop
  | .error _ => True
  | .ok [] => taken = source
  | .ok chunk => chunk.length ≤ room ∧ taken ++ chunk <+: source

/-
  A source below a compressed stream, with all that it has
  answered as its state. It lets itself be read only if that is
  all right for the bytes that were taken from it by then.
-/
def feed
    (source : Bytes)
    (allowed : Bytes → Prop) :
    Environment streamInterface (List (Except IoError Bytes)) where
  admits answers call :=
    match call with
    | .read room => 0 < room ∧ allowed (gathered answers)
    | _ => False
  answers answers call :=
    match call with
    | .read room => fun (r : Except IoError Bytes) next =>
      next = answers ++ [r] ∧
        Continues source (gathered answers) room r
    | _ => fun _ _ => False

------------------------------------------------------------
-- One read
------------------------------------------------------------

/-
  How a read ends that is made with `room` when `gave` was given
  and the source has answered `before`. It gives some of the next
  bytes of the text. It gives none only when it has given all,
  and then the whole stream was taken or the source has ended. It
  fails only if the source does, and then it had used everything
  taken from the source and given all of its text. Since a source
  may fail whenever it is read, that is so whenever it is read.
-/
structure Outcome
    (κ : Codec)
    (text : Bytes → Bytes)
    (whole source : Bytes)
    (room : Nat)
    (gave : Bytes)
    (before : List (Except IoError Bytes))
    (r : Except IoError Bytes)
    (d : DeflateStream κ Remote)
    (answers : List (Except IoError Bytes)) : Prop where
  later : before <+: answers
  taken : gathered answers <+: source
  receiving : Receiving d (gathered answers) (gave ++ bytesOf r)
  given : gave ++ bytesOf r <+: text (gathered answers)
  fits : (bytesOf r).length ≤ room
  ended :
    r = .ok [] →
      gave = text source ∧
        (whole <+: gathered answers ∨
          d.input = [] ∧ ∃ more, answers = before ++ more ++ [r])
  failed :
    ∀ e, r = .error e →
      gave = text (gathered answers) ∧
        d.input = [] ∧ ∃ more, answers = before ++ more ++ [r]

section

variable {κ : Codec} {text : Bytes → Bytes} {IsStream : Bytes → Prop}
variable {whole trailing source gave : Bytes} {room : Nat}
variable {d : DeflateStream κ Remote}
variable {before answers : List (Except IoError Bytes)}

/-
  What a call of the decoder comes to in a read of a stream that
  has taken `gathered answers` from its source.
-/
structure Decoded
    (κ : Codec)
    (text : Bytes → Bytes)
    (whole : Bytes)
    (room : Nat)
    (gave : Bytes)
    (d : DeflateStream κ Remote)
    (taken : Bytes)
    (next : Decoding κ.Decoder) : Prop where
  fine : next.status ≠ .corrupt
  fits : next.produced.length ≤ room
  receiving :
    Receiving
      { d with
        decoder := next.decoder
        input := d.input.drop next.consumed }
      taken (gave ++ next.produced)
  given : gave ++ next.produced <+: text taken
  advances :
    next.status = .finished ∨ next.produced ≠ [] ∨
      (d.input.drop next.consumed).length < d.input.length ∨
      d.input = []
  finished :
    next.status = .finished → next.produced = [] →
      whole <+: taken ∧ gave = text taken
  used :
    next.produced = [] → d.input.drop next.consumed = [] →
      gave = text taken

theorem decoded
    {taken : Bytes}
    (hInflates : κ.Inflates text IsStream)
    (hStream : IsStream whole)
    (hTaken : taken <+: whole ++ trailing)
    (hReceiving : Receiving d taken gave)
    (hRoom : 0 < room) :
    Decoded κ text whole room gave d taken
      (κ.decode d.decoder d.input room) := by
  rcases hReceiving with ⟨used, hDecodes, rfl⟩
  have hWithin := hInflates.decode_within hStream hTaken hDecodes hRoom
  have hSound := hInflates.decode_sound hStream hTaken hDecodes hRoom
  have hComplete :=
    hInflates.decode_complete hStream hTaken hDecodes hRoom
  have hAdvances :=
    hInflates.decode_advances hStream hTaken hDecodes hRoom
  have hFinished :=
    hInflates.decode_finished hStream hTaken hDecodes hRoom
  have hNext := hDecodes.call d.input hRoom
  generalize κ.decode d.decoder d.input room = next at *
  rcases hWithin with ⟨hFine, hConsumed, hFits⟩
  have hKept : used ++ d.input =
      used ++ d.input.take next.consumed ++
        d.input.drop next.consumed := by
    rw [List.append_assoc, List.take_append_drop]
  have hText := hInflates.text_isPrefix hStream hTaken ⟨_, hKept.symm⟩
  refine ⟨hFine, hFits, ⟨_, hNext, hKept⟩, hSound.trans hText,
    ?_, ?_, ?_⟩
  · by_cases hNone : d.input = []
    · exact .inr (.inr (.inr hNone))
    · rcases hAdvances hNone with hEnd | hUsed | hSome
      · exact .inl hEnd
      · refine .inr (.inr (.inl ?_))
        rw [List.length_drop]
        omega
      · exact .inr (.inl hSome)
  · intro hStatus hNone
    have hWhole := hFinished hStatus
    refine ⟨hWhole.trans ⟨_, hKept.symm⟩, ?_⟩
    rw [hNone, List.append_nil] at hSound
    have hAll := hSound.eq_of_length_le (hComplete hNone).length_le
    rw [hAll, hInflates.text_eq hStream hWhole]
    exact (hInflates.text_eq hStream
      (hWhole.trans ⟨_, hKept.symm⟩)).symm
  · intro hNone hUsed
    rw [hNone, List.append_nil] at hSound
    rw [hUsed, List.append_nil] at hKept
    rw [hKept]
    exact hSound.eq_of_length_le (hComplete hNone).length_le

/-
  A stream in the middle of a read that was begun when the
  source had answered `before`.
-/
structure Underway
    (source gave : Bytes)
    (before : List (Except IoError Bytes))
    (d : DeflateStream κ Remote)
    (answers : List (Except IoError Bytes)) : Prop where
  later : before <+: answers
  taken : gathered answers <+: source
  receiving : Receiving d (gathered answers) gave

section

variable {next : Decoding κ.Decoder}

/- What the decoder gives ends a read. -/
theorem Decoded.outcome_of_some
    (hDecoded :
      Decoded κ text whole room gave d (gathered answers) next)
    (hUnderway : Underway source gave before d answers)
    (hSome : next.produced ≠ []) :
    Outcome κ text whole source room gave before (.ok next.produced)
      { d with
        decoder := next.decoder
        input := d.input.drop next.consumed }
      answers where
  later := hUnderway.later
  taken := hUnderway.taken
  receiving := hDecoded.receiving
  given := hDecoded.given
  fits := hDecoded.fits
  ended hNone := absurd (Except.ok.inj hNone) hSome
  failed _ hError := by cases hError

/- So does the end of the stream. -/
theorem Decoded.outcome_of_finished
    (hInflates : κ.Inflates text IsStream)
    (hStream : IsStream whole)
    (hDecoded :
      Decoded κ text whole room gave d (gathered answers) next)
    (hUnderway : Underway source gave before d answers)
    (hNone : next.produced = [])
    (hFinished : next.status = .finished) :
    Outcome κ text whole source room gave before (.ok [])
      { d with
        decoder := next.decoder
        input := d.input.drop next.consumed }
      answers := by
  rcases hDecoded.finished hFinished hNone with ⟨hWhole, hAll⟩
  have hNext := hDecoded.receiving
  have hGiven := hDecoded.given
  rw [hNone] at hNext hGiven
  refine ⟨hUnderway.later, hUnderway.taken, hNext, hGiven,
    Nat.zero_le _, fun _ => ⟨?_, .inl hWhole⟩,
    fun e hError => by cases hError⟩
  rw [hAll, hInflates.text_eq hStream hWhole,
    hInflates.text_eq hStream (hWhole.trans hUnderway.taken)]

/-
  A source that answers nothing ends a read, by its failure or
  by its end.
-/
theorem Underway.outcome_of_answer
    {r : Except IoError Bytes}
    (hUnderway : Underway source gave before d answers)
    (hUsed : d.input = [])
    (hText : gave = text (gathered answers))
    (hNothing : bytesOf r = [])
    (hEnd : r = .ok [] → gathered answers = source) :
    Outcome κ text whole source room gave before r d
      (answers ++ [r]) := by
  rcases hUnderway with ⟨⟨more, rfl⟩, hTaken, hReceiving⟩
  have hSame : gathered (before ++ more ++ [r]) =
      gathered (before ++ more) := by
    rw [gathered_append, gathered_cons, hNothing]
    exact List.append_nil _
  have hGave : gave ++ bytesOf r = gave := by
    rw [hNothing, List.append_nil]
  refine ⟨⟨more ++ [r], (List.append_assoc _ _ _).symm⟩, ?_, ?_, ?_, ?_,
    fun hNone => ⟨?_, .inr ⟨hUsed, more, rfl⟩⟩,
    fun e _ => ⟨?_, hUsed, more, rfl⟩⟩
  · rwa [hSame]
  · rwa [hSame, hGave]
  · rw [hSame, hGave]
    exact hText ▸ List.prefix_rfl
  · rw [hNothing]
    exact Nat.zero_le _
  · rw [hText, hEnd hNone]
  · rwa [hSame]

/- A call that gives nothing and leaves something has used some. -/
theorem Decoded.used_of_left
    (hDecoded :
      Decoded κ text whole room gave d (gathered answers) next)
    (hNone : next.produced = [])
    (hOpen : next.status ≠ .finished)
    (hLeft : d.input.drop next.consumed ≠ []) :
    next.consumed ≠ 0 ∧
      (d.input.drop next.consumed).length < d.input.length := by
  have hLess : (d.input.drop next.consumed).length <
      d.input.length := by
    rcases hDecoded.advances with hEnd | hSome | hLess | hInput
    · exact absurd hEnd hOpen
    · exact absurd hNone hSome
    · exact hLess
    · rw [hInput, List.drop_nil] at hLeft
      exact absurd rfl hLeft
  refine ⟨fun hZero => ?_, hLess⟩
  rw [hZero, List.drop_zero] at hLess
  exact Nat.lt_irrefl _ hLess

/- With all its input used, a stream takes the next piece in. -/
theorem Underway.takes
    {b : UInt8}
    {chunk : Bytes}
    (hUnderway : Underway source gave before d answers)
    (hUsed : d.input = [])
    (hMore : gathered answers ++ (b :: chunk) <+: source) :
    Underway source gave before { d with input := b :: chunk }
        (answers ++ [.ok (b :: chunk)]) ∧
      2 * (source.length -
            (gathered (answers ++ [.ok (b :: chunk)])).length) +
          (b :: chunk).length <
        2 * (source.length - (gathered answers).length) := by
  have hChunk : gathered (answers ++ [.ok (b :: chunk)]) =
      gathered answers ++ (b :: chunk) := by
    rw [gathered_append, gathered_cons, gathered_nil,
      List.append_nil, bytesOf]
  rcases hUnderway with ⟨hLater, -, used, hDecodes, hTaken⟩
  rw [hUsed, List.append_nil] at hTaken
  refine ⟨⟨hLater.trans (List.prefix_append _ _), ?_, used, hDecodes,
    ?_⟩, ?_⟩
  · rwa [hChunk]
  · rw [hChunk, hTaken]
  · have hLength := hMore.length_le
    simp only [hChunk, List.length_append, List.length_cons]
      at hLength ⊢
    omega

/-
  A read gives what is next, or the failure of its source. It
  reads the source only when it has used all that was taken from
  it and gave all of the text of that.
-/
theorem yields_read
    (hInflates : κ.Inflates text IsStream)
    (hStream : IsStream whole)
    (hSource : source <+: whole ++ trailing)
    (hReceiving : Receiving d (gathered before) gave)
    (hTaken : gathered before <+: source)
    (hRoom : 0 < room) :
    Yields (feed source fun taken => gave = text taken)
      (fun (r, d') answers =>
        Outcome κ text whole source room gave before r d' answers)
      (d.read room) before := by
  rw [DeflateStream.read, if_neg (Nat.ne_of_gt hRoom)]
  -- A round uses some of the input, or takes some more of what
  -- is left of the source; as input this counts less.
  apply yields_loop
    (fun rank (u : DeflateStream κ Remote) answers =>
      Underway source gave before u answers ∧
      rank = 2 * (source.length - (gathered answers).length) +
        u.input.length)
    _ ⟨⟨List.prefix_refl _, hTaken, hReceiving⟩, rfl⟩
  rintro rank u answers ⟨hUnderway, rfl⟩
  have hDecoded := decoded hInflates hStream
    (hUnderway.taken.trans hSource) hUnderway.receiving hRoom
  simp only
  generalize κ.decode u.decoder u.input room = next at *
  split
  · next hCorrupt => exact absurd hCorrupt hDecoded.fine
  · split
    · next hSome =>
        exact .done (.done (hDecoded.outcome_of_some hUnderway hSome))
    · next hNone =>
        replace hNone := Decidable.not_not.mp hNone
        have hNext := hDecoded.receiving
        rw [hNone, List.append_nil] at hNext
        have hOn : Underway source gave before
            { u with
              decoder := next.decoder
              input := u.input.drop next.consumed } answers :=
          ⟨hUnderway.later, hUnderway.taken, hNext⟩
        split
        · next hFinished =>
            exact .done (.done (hDecoded.outcome_of_finished hInflates
              hStream hUnderway hNone hFinished))
        · next hOpen =>
            split
            · next hLeft =>
                rcases hDecoded.used_of_left hNone hOpen hLeft with
                  ⟨hUsed, hLess⟩
                rw [if_neg hUsed]
                exact .done ⟨_, Nat.add_lt_add_left hLess _, hOn, rfl⟩
            · next hAll =>
                replace hAll := Decidable.not_not.mp hAll
                have hText := hDecoded.used hNone hAll
                refine .ask ⟨by decide, hText⟩ ?_
                rintro (e | _ | ⟨b, chunk⟩) _ ⟨rfl, hContinues⟩
                · exact .done (.done (hOn.outcome_of_answer hAll hText
                    rfl fun hEnd => by cases hEnd))
                · exact .done (.done (hOn.outcome_of_answer hAll hText
                    rfl fun _ => hContinues))
                · rcases hOn.takes hAll hContinues.2 with ⟨hMore, hLess⟩
                  exact .done ⟨_,
                    Nat.lt_of_lt_of_le hLess (Nat.le_add_right _ _),
                    hMore, rfl⟩

end

end

------------------------------------------------------------
-- Reads in a row
------------------------------------------------------------

/-
  Reads in a row, each with some room, with what they give and
  what the source answers to them.
-/
inductive Reads
    {κ : Codec}
    (source : Bytes) :
    DeflateStream κ Remote → List (Except IoError Bytes) →
    List (Except IoError Bytes) →
    DeflateStream κ Remote → List (Except IoError Bytes) → Prop
  | nil
      (d : DeflateStream κ Remote)
      (answers : List (Except IoError Bytes)) :
      Reads source d answers [] d answers
  | cons
      {d mid d' : DeflateStream κ Remote}
      {before now answers : List (Except IoError Bytes)}
      {room : Nat}
      {r : Except IoError Bytes}
      {results : List (Except IoError Bytes)}
      (hRoom : 0 < room)
      (hRead : Ends (feed source fun _ => True) (d.read room) before
        (r, mid) now)
      (hLater : Reads source mid now results d' answers) :
      Reads source d before (r :: results) d' answers

section

variable {κ : Codec} {text : Bytes → Bytes} {IsStream : Bytes → Prop}
variable {whole trailing source gave : Bytes}
variable {d d' : DeflateStream κ Remote}
variable {before answers results : List (Except IoError Bytes)}

/- Reads in a row can be parted anywhere. -/
theorem Reads.parted
    {first later : List (Except IoError Bytes)}
    (hReads : Reads source d before (first ++ later) d' answers) :
    ∃ mid now,
      Reads source d before first mid now ∧
        Reads source mid now later d' answers := by
  induction first generalizing d before with
  | nil => exact ⟨d, before, .nil _ _, hReads⟩
  | cons r first ih =>
      cases hReads with
      | cons hRoom hRead hLater =>
          rcases ih hLater with ⟨mid, now, hFirst, hRest⟩
          exact ⟨mid, now, .cons hRoom hRead hFirst, hRest⟩

/-
  A stream that has received `gathered before` and gave `gave`,
  with everything as it should be.
-/
structure Reached
    (text : Bytes → Bytes)
    (source : Bytes)
    (d : DeflateStream κ Remote)
    (answers : List (Except IoError Bytes))
    (gave : Bytes) : Prop where
  receiving : Receiving d (gathered answers) gave
  taken : gathered answers <+: source
  given : gave <+: text source

/- A read leaves everything as it should be. -/
theorem Outcome.reached
    {room : Nat}
    {r : Except IoError Bytes}
    (hInflates : κ.Inflates text IsStream)
    (hStream : IsStream whole)
    (hSource : source <+: whole ++ trailing)
    (hOutcome :
      Outcome κ text whole source room gave before r d answers) :
    Reached text source d answers (gave ++ bytesOf r) where
  receiving := hOutcome.receiving
  taken := hOutcome.taken
  given :=
    hOutcome.given.trans
      (hInflates.text_isPrefix hStream hSource hOutcome.taken)

/- What comes of a read is what has come to pass. -/
theorem outcome_of_ends
    {room : Nat}
    {r : Except IoError Bytes}
    (hInflates : κ.Inflates text IsStream)
    (hStream : IsStream whole)
    (hSource : source <+: whole ++ trailing)
    (hReached : Reached text source d before gave)
    (hRoom : 0 < room)
    (hRead : Ends (feed source fun _ => True) (d.read room) before
      (r, d') answers) :
    Outcome κ text whole source room gave before r d' answers := by
  have hYields := yields_read hInflates hStream hSource
    hReached.receiving hReached.taken hRoom
  have hStrict : Ends (feed source fun taken => gave = text taken)
      (d.read room) before (r, d') answers := by
    refine hRead.mono ?_
    intro _ _ _ _ hAnswer
    exact hAnswer
  exact hYields.of_ends hStrict

/- Reads in a row leave everything as it should be. -/
theorem Reads.reached
    (hInflates : κ.Inflates text IsStream)
    (hStream : IsStream whole)
    (hSource : source <+: whole ++ trailing)
    (hReached : Reached text source d before gave)
    (hReads : Reads source d before results d' answers) :
    Reached text source d' answers (gave ++ gathered results) := by
  induction hReads generalizing gave with
  | nil d answers =>
      rw [gathered_nil, List.append_nil]
      exact hReached
  | cons hRoom hRead _ ih =>
      have hOutcome := outcome_of_ends hInflates hStream hSource
        hReached hRoom hRead
      rw [gathered_cons, ← List.append_assoc]
      exact ih (hOutcome.reached hInflates hStream hSource)

/- A stream before the first read. -/
theorem reached_new
    (text : Bytes → Bytes)
    (source : Bytes)
    (level : Nat) :
    Reached text source
      (DeflateStream.new (κ := κ) Remote.held level) [] [] where
  receiving := ⟨[], .new, rfl⟩
  taken := List.nil_prefix
  given := List.nil_prefix

/-
  For every source that begins as a whole stream and whatever
  stands behind it do, be it cut off or not, for every way in
  which it is cut into pieces, fails and is read: what is given
  is a first part of the text of the source. Once a read has
  given nothing, it was all of the text, and nothing is given any
  more. The next read ends, whatever the source answers, and as
  it should; it reads the source only when all of the text of
  what was taken was given.
-/
theorem reads_spec
    {level : Nat}
    (hInflates : κ.Inflates text IsStream)
    (hStream : IsStream whole)
    (hSource : source <+: whole ++ trailing)
    (hReads : Reads source (.new .held level) [] results d answers) :
    gathered results <+: text source ∧
    (∀ first later,
      results = first ++ .ok [] :: later →
        gathered first = text source ∧ gathered later = []) ∧
    ∀ room, 0 < room →
      Yields (feed source fun taken => gathered results = text taken)
        (fun (r, d') now =>
          Outcome κ text whole source room (gathered results) answers r
            d' now)
        (d.read room) answers := by
  have hNew := reached_new (κ := κ) text source level
  have hReached := hReads.reached hInflates hStream hSource hNew
  refine ⟨hReached.given, ?_, fun room hRoom => ?_⟩
  · rintro first later rfl
    rcases hReads.parted with ⟨mid, now, hFirst, hRest⟩
    have hMid := hFirst.reached hInflates hStream hSource hNew
    cases hRest with
    | cons hRoom hRead hLater =>
        have hOutcome := outcome_of_ends hInflates hStream hSource
          hMid hRoom hRead
        have hAll := (hOutcome.ended rfl).1
        have hGiven := hReached.given
        rw [gathered_append, gathered_cons, ← hAll] at hGiven
        refine ⟨hAll, List.length_eq_zero_iff.mp ?_⟩
        have hLength := hGiven.length_le
        simp only [List.nil_append, bytesOf, List.length_append]
          at hLength
        omega
  · exact yields_read hInflates hStream hSource hReached.receiving
      hReached.taken hRoom

end

/- The letters `h` and `i` in a stored block, the last of a stream. -/
def letters : Bytes :=
  [1, 2, 0, 253, 255, 104, 105]

/- A stream of which nothing was read. -/
def fresh : DeflateStream rawDeflate Remote :=
  .new .held 6

/- A decoder that is given nothing gives nothing. -/
theorem decode_nothing :
    rawDeflate.decode rawDeflate.decoder [] 1 =
      ⟨rawDeflate.decoder, 0, [], .more⟩ := by
  change Deflate.Inflater.decode .new [] 1 = _
  rw [Deflate.Inflater.decode, if_neg (by decide),
    if_neg (by decide), Deflate.Inflater.windows]
  rfl

/- If the source fails at once, so does the first read. -/
theorem reads_failing
    (e : IoError) :
    Reads (letters ++ [7, 7]) fresh [] [.error e] fresh
      [.error e] := by
  have hAnswer :
      (feed (letters ++ [7, 7]) fun _ => True).answers []
        (.read DeflateStream.chunkSize)
        (.error e : Except IoError Bytes) [.error e] :=
    ⟨rfl, trivial⟩
  have hDecode :
      rawDeflate.decode fresh.decoder fresh.input 1 = _ :=
    decode_nothing
  refine .cons Nat.one_pos (.loop ?_) (.nil _ _)
  rw [unroll]
  simp only [hDecode]
  exact .ask hAnswer (.done _ _)

/-
  With two bytes behind the letters, and after a first read that
  has failed, the next one with room for a byte ends with the
  letter `h`, or with another failure.
-/
theorem reads_spec_of_failing :
    Deflate.IsStream letters ∧
      Reads (letters ++ [7, 7]) fresh [] [.error .shortInput] fresh
        [.error .shortInput] ∧
      Yields
        (feed (letters ++ [7, 7]) fun taken => [] = Deflate.text taken)
        (fun (r, _) _ => r = .ok [104] ∨ ∃ e, r = .error e)
        (fresh.read 1) [.error .shortInput] := by
  have hStream : Deflate.IsStream letters := by
    decide +kernel
  have hText : Deflate.text (letters ++ [7, 7]) = [104, 105] := by
    decide +kernel
  have hReads := reads_failing .shortInput
  have hSpec := reads_spec inflates_rawDeflate hStream
    (List.prefix_refl _) hReads
  refine ⟨hStream, hReads, (hSpec.2.2 1 Nat.one_pos).mono ?_⟩
  rintro ⟨e | chunk, d'⟩ now hOutcome
  · exact .inr ⟨e, rfl⟩
  · have hGiven := (hOutcome.reached inflates_rawDeflate hStream
      (List.prefix_refl (letters ++ [7, 7]))).given
    have hFits := hOutcome.fits
    rw [hText] at hGiven
    rcases chunk with _ | ⟨b, _ | ⟨c, chunk⟩⟩
    · cases hText.symm.trans (hOutcome.ended rfl).1.symm
    · cases (List.cons_prefix_cons.mp hGiven).1
      exact .inl rfl
    · exact absurd (Nat.le_of_succ_le_succ hFits)
        (Nat.not_succ_le_zero _)

end Inflating

end Parley
