import Parley.Deflate.Codec
import Parley.Proofs.Inflating.Laws
/-
  This file shows that the decoder of raw DEFLATE data keeps the
  laws of a decoder for streams. What can be decoded from bytes
  is what a machine makes of them that takes one bit after the
  other and writes out every token at once. The decoder itself
  stops at the ends of windows and hands out what there is room
  for; it is never ahead of that machine, and comes up with it
  whenever it has nothing more to hand out.

  Key definitions include:
    * `Machine`
    * `Machine.bytes`
    * `Inflater.ahead`
    * `Inflater.Follows`
    * `IsStream`

  Key theorems include:
    * `Machine.bytes_append`
    * `Inflater.takeBits_spec`
    * `Inflater.fill_spec`
    * `Inflater.answers_decode`
    * `inflates_rawDeflate`
-/

namespace Parley.Deflate

------------------------------------------------------------
-- Writing tokens
------------------------------------------------------------

/- A copy can be made in two parts. -/
theorem copyOnto_add
    (data : Array UInt8)
    (distance m n : Nat) :
    copyOnto data distance (m + n) =
      copyOnto (copyOnto data distance m) distance n := by
  induction m generalizing data with
  | zero => rw [Nat.zero_add, copyOnto]
  | succ m ih =>
      rw [Nat.add_right_comm, copyOnto, copyOnto, ih]

/- A copy makes the data longer by its length. -/
theorem size_copyOnto
    (data : Array UInt8)
    (distance n : Nat) :
    (copyOnto data distance n).size = data.size + n := by
  induction n generalizing data with
  | zero => rfl
  | succ n ih =>
      rw [copyOnto, ih, Array.size_push]
      omega

/- It leaves what is there as it is. -/
theorem isPrefix_copyOnto
    (data : Array UInt8)
    (distance n : Nat) :
    data.toList <+: (copyOnto data distance n).toList := by
  induction n generalizing data with
  | zero => exact List.prefix_refl _
  | succ n ih =>
      rw [copyOnto]
      refine List.IsPrefix.trans ?_ (ih _)
      rw [Array.toList_push]
      exact List.prefix_append _ _

/- Every token does. -/
theorem isPrefix_extend
    (data : Array UInt8)
    (token : Token) :
    data.toList <+: (extend data token).toList := by
  cases token with
  | literal b =>
      rw [extend, Array.toList_push]
      exact List.prefix_append _ _
  | copy length distance => exact isPrefix_copyOnto _ _ _

------------------------------------------------------------
-- The machine
------------------------------------------------------------

/-
  A decoder that writes out every token at once: its phase,
  whether the block is the last one, and all data decoded.
-/
structure Machine where
  final : Bool
  phase : Phase
  data : Array UInt8

namespace Machine

/- Before the first bit. -/
def start : Machine where
  final := false
  phase := Phase.expect .blockHead 3
  data := #[]

/- Take one bit; `last` says that it is the last of its byte. -/
def bit
    (m : Machine)
    (b last : Bool) : Machine :=
  let (final, phase, token) := m.phase.bit m.final b last
  ⟨final, phase, token.elim m.data (extend m.data)⟩

/- Take what is left of a byte. -/
def bits : Machine → List Bool → Machine
  | m, [] => m
  | m, b :: rest => (m.bit b rest.isEmpty).bits rest

/- Take bytes. -/
def bytes : Machine → Bytes → Machine
  | m, [] => m
  | m, b :: rest => (m.bits (Inflater.bitsOf b)).bytes rest

/- Bytes can be taken in two parts. -/
theorem bytes_append
    (m : Machine)
    (s more : Bytes) :
    m.bytes (s ++ more) = (m.bytes s).bytes more := by
  induction s generalizing m with
  | nil => rfl
  | cons b s ih => exact ih _

/- A machine that has come to an end, good or bad. -/
def Halted
    (m : Machine) : Prop :=
  m.phase = .finished ∨ m.phase = .corrupt

/- At its end, a machine takes bits and nothing changes. -/
theorem Halted.bit
    {m : Machine}
    (hHalted : m.Halted)
    (b last : Bool) :
    m.bit b last = m := by
  rcases m with ⟨final, phase, data⟩
  rcases hHalted with rfl | rfl <;> rfl

theorem Halted.bits
    {m : Machine}
    (hHalted : m.Halted)
    (s : List Bool) :
    m.bits s = m := by
  induction s with
  | nil => rfl
  | cons b s ih => rw [Machine.bits, hHalted.bit, ih]

theorem Halted.bytes
    {m : Machine}
    (hHalted : m.Halted)
    (s : Bytes) :
    m.bytes s = m := by
  induction s with
  | nil => rfl
  | cons b s ih => rw [Machine.bytes, hHalted.bits, ih]

/- A machine that takes bits keeps what it has decoded. -/
theorem isPrefix_bits
    (m : Machine)
    (s : List Bool) :
    m.data.toList <+: (m.bits s).data.toList := by
  induction s generalizing m with
  | nil => exact List.prefix_refl _
  | cons b s ih =>
      refine List.IsPrefix.trans ?_ (ih _)
      rw [bit]
      rcases m.phase.bit m.final b s.isEmpty with
        ⟨final, phase, _ | token⟩
      · exact List.prefix_refl _
      · exact isPrefix_extend _ _

theorem isPrefix_bytes
    (m : Machine)
    (s : Bytes) :
    m.data.toList <+: (m.bytes s).data.toList := by
  induction s generalizing m with
  | nil => exact List.prefix_refl _
  | cons b s ih => exact (m.isPrefix_bits _).trans (ih _)

end Machine

------------------------------------------------------------
-- Taking bits as far as a window reaches
------------------------------------------------------------

namespace Inflater

/- The machine that is there once the token is written out. -/
def written
    (d : Inflater) : Machine :=
  ⟨d.final, d.phase, d.token.elim d.data (extend d.data)⟩

/- The machine that is there once the bits are taken as well. -/
def ahead
    (d : Inflater) : Machine :=
  d.written.bits d.bits

/-
  What a decoder makes of another by going on up to `limit`: it
  has handed out no more, keeps the data, and has a token left
  only if the data reaches the limit.
-/
structure GoesOn
    (limit : Nat)
    (d after : Inflater) : Prop where
  ready : after.ready = d.ready
  data : d.data.toList <+: after.data.toList
  full : after.token.isSome → limit ≤ after.data.size

theorem GoesOn.trans
    {limit : Nat}
    {d mid after : Inflater}
    (hFirst : GoesOn limit d mid)
    (hSecond : GoesOn limit mid after) :
    GoesOn limit d after where
  ready := hSecond.ready.trans hFirst.ready
  data := hFirst.data.trans hSecond.data
  full := hSecond.full

/- A decoder that takes further bits has none of three reasons. -/
theorem stopped_eq_false_iff
    {d : Inflater} :
    d.stopped = false ↔
      d.token = none ∧ d.phase ≠ .finished ∧ d.phase ≠ .corrupt := by
  simp [stopped, and_assoc]

/-
  A token can be written out in parts: as far as the limit first,
  and then the rest.
-/
theorem writeToken_spec
    (d : Inflater)
    (limit : Nat) :
    GoesOn limit d (d.writeToken limit) ∧
      (d.writeToken limit).bits = d.bits ∧
      (d.writeToken limit).written = d.written := by
  rcases d with ⟨phase, final, bits, token, data, ready⟩
  rcases token with _ | b | ⟨length, distance⟩
  · exact ⟨⟨rfl, List.prefix_rfl, fun h => by cases h⟩, rfl, rfl⟩
  · simp only [writeToken]
    by_cases hRoom : data.size < limit
    · rw [if_pos hRoom]
      exact ⟨⟨rfl, isPrefix_extend data (.literal b),
        fun h => by cases h⟩, rfl, rfl⟩
    · rw [if_neg hRoom]
      exact ⟨⟨rfl, List.prefix_rfl, fun _ => Nat.le_of_not_lt hRoom⟩,
        rfl, rfl⟩
  · simp only [writeToken]
    have hGrown := isPrefix_copyOnto data distance
      (min length (limit - data.size))
    by_cases hNone : length - min length (limit - data.size) = 0
    · have hAll : min length (limit - data.size) = length := by
        omega
      rw [if_pos hNone]
      refine ⟨⟨rfl, hGrown, fun h => by cases h⟩, trivial, ?_⟩
      rw [hAll]
      rfl
    · have hParts : min length (limit - data.size) +
          (length - min length (limit - data.size)) = length := by
        omega
      rw [if_neg hNone]
      refine ⟨⟨rfl, hGrown, fun _ => ?_⟩, trivial, ?_⟩
      · simp only [size_copyOnto]
        omega
      · simp only [written, Option.elim, extend]
        rw [← copyOnto_add, hParts]

/-
  Taking bits up to a limit and taking the others without one is
  taking them all without one.
-/
theorem takeBits_spec
    (limit : Nat)
    (d : Inflater)
    (s : List Bool)
    (hFull : d.token.isSome → limit ≤ d.data.size) :
    GoesOn limit d (takeBits limit d s).1 ∧
      (takeBits limit d s).1.bits = d.bits ∧
      (takeBits limit d s).1.written.bits (takeBits limit d s).2 =
        d.written.bits s ∧
      ((takeBits limit d s).1.stopped = true ∨
        (takeBits limit d s).2 = []) := by
  induction s generalizing d with
  | nil => exact ⟨⟨rfl, List.prefix_refl _, hFull⟩, rfl, rfl, .inr rfl⟩
  | cons b s ih =>
      rw [takeBits]
      cases hStopped : d.stopped with
      | true =>
          rw [if_pos rfl]
          exact ⟨⟨rfl, List.prefix_refl _, hFull⟩, rfl, rfl,
            .inl hStopped⟩
      | false =>
          rw [if_neg Bool.false_ne_true]
          have hNone := (stopped_eq_false_iff.mp hStopped).1
          rcases hBit : d.phase.bit d.final b s.isEmpty with
            ⟨final, phase, token⟩
          rcases writeToken_spec { d with phase, final, token } limit
            with ⟨hNext, hSame, hWritten⟩
          rcases ih (writeToken { d with phase, final, token } limit)
            hNext.full with ⟨hRest, hBits, hMachine, hEnd⟩
          have hStep : GoesOn limit d
              (writeToken { d with phase, final, token } limit) :=
            ⟨hNext.ready, hNext.data, hNext.full⟩
          refine ⟨hStep.trans hRest, ?_, ?_, hEnd⟩
          · rw [hBits, hSame]
          · rw [hMachine, hWritten, Machine.bits]
            simp only [written, Machine.bit, hNone, hBit, Option.elim]

/- Bits in front of a stopped decoder stay where they are. -/
theorem ahead_of_bits
    {d : Inflater}
    {bits : List Bool} :
    ({ d with bits := bits } : Inflater).ahead = d.written.bits bits :=
  rfl

/-
  What going on up to a limit takes from bytes: first bytes of
  them. It ends with a reason to stop, or when there is nothing
  left.
-/
theorem take_spec
    (limit : Nat)
    (d : Inflater)
    (s : Bytes)
    (hFull : d.token.isSome → limit ≤ d.data.size)
    (hBits : d.stopped = true ∨ d.bits = []) :
    ∃ touched,
      s = touched ++ (take limit d s).2 ∧
        (take limit d s).1.ahead = d.ahead.bytes touched ∧
        GoesOn limit d (take limit d s).1 ∧
        ((take limit d s).1.stopped = true ∨
          (take limit d s).2 = [] ∧ (take limit d s).1.bits = []) := by
  induction s generalizing d with
  | nil =>
      refine ⟨[], rfl, rfl, ⟨rfl, List.prefix_refl _, hFull⟩, ?_⟩
      exact hBits.imp_right fun hNone => ⟨rfl, hNone⟩
  | cons b s ih =>
      rw [take]
      cases hStopped : d.stopped with
      | true =>
          rw [if_pos rfl]
          exact ⟨[], rfl, rfl, ⟨rfl, List.prefix_refl _, hFull⟩,
            .inl hStopped⟩
      | false =>
          rw [if_neg Bool.false_ne_true]
          have hNone : d.bits = [] := by
            rcases hBits with hTrue | hNone
            · rw [hStopped] at hTrue
              cases hTrue
            · exact hNone
          rcases takeBits_spec limit d (bitsOf b) hFull with
            ⟨hGoesOn, -, hMachine, hEnd⟩
          rcases hTake : takeBits limit d (bitsOf b) with ⟨mid, bits⟩
          rw [hTake] at hGoesOn hMachine hEnd
          have hHere : ({ mid with bits := bits } : Inflater).ahead =
              d.ahead.bytes [b] := by
            rw [ahead_of_bits, hMachine, ahead, hNone]
            rfl
          have hMid : GoesOn limit d { mid with bits := bits } :=
            ⟨hGoesOn.ready, hGoesOn.data, hGoesOn.full⟩
          simp only
          cases hStop : ({ mid with bits := bits } : Inflater).stopped with
          | true =>
              rw [if_pos rfl]
              exact ⟨[b], rfl, hHere, hMid, .inl hStop⟩
          | false =>
              rw [if_neg Bool.false_ne_true]
              have hRest : bits = [] := by
                rcases hEnd with hTrue | hRest
                · change mid.stopped = false at hStop
                  rw [hTrue] at hStop
                  cases hStop
                · exact hRest
              rcases ih { mid with bits := bits } hMid.full
                (.inr hRest) with
                ⟨touched, hAll, hMachine, hLater, hEnd⟩
              refine ⟨b :: touched, ?_, ?_, hMid.trans hLater, hEnd⟩
              · rw [List.cons_append, ← hAll]
              · rw [hMachine, hHere, ← Machine.bytes_append]
                rfl

/-
  Going on to the end of the current window: what is decoded by
  it is ready. If a token is left, there is some of that.
-/
theorem fill_spec
    (d : Inflater)
    (s : Bytes) :
    ∃ touched,
      s = touched ++ (d.fill s).2 ∧
        (d.fill s).1.ahead = d.ahead.bytes touched ∧
        d.data.toList <+: (d.fill s).1.data.toList ∧
        (d.fill s).1.ready =
          d.ready + ((d.fill s).1.data.size - d.data.size) ∧
        ((d.fill s).1.token.isSome →
          d.data.size < (d.fill s).1.data.size) ∧
        ((d.fill s).1.stopped = true ∨
          (d.fill s).2 = [] ∧ (d.fill s).1.bits = []) := by
  have hLimit : d.data.size <
      (d.data.size / windowSize + 1) * windowSize :=
    Nat.lt_mul_of_div_lt (Nat.lt_succ_self _) (by decide)
  rw [fill]
  simp only
  generalize (d.data.size / windowSize + 1) * windowSize = limit at hLimit ⊢
  rcases d.writeToken_spec limit with ⟨hWrite, -, hWritten⟩
  rcases takeBits_spec limit (d.writeToken limit) d.bits hWrite.full
    with ⟨hBits, -, hMachine, hEnd⟩
  rcases hTake : takeBits limit (d.writeToken limit) d.bits with
    ⟨mid, bits⟩
  rw [hTake, hWritten] at hMachine
  rw [hTake] at hBits hEnd
  have hAhead :
      ({ mid with bits := bits } : Inflater).ahead = d.ahead :=
    hMachine
  have hMid : GoesOn limit d { mid with bits := bits } :=
    ⟨hBits.ready.trans hWrite.ready, hWrite.data.trans hBits.data,
      hBits.full⟩
  rcases take_spec limit { mid with bits := bits } s hMid.full hEnd
    with ⟨touched, hAll, hLater, hRest, hStop⟩
  have hGoesOn := hMid.trans hRest
  refine ⟨touched, hAll, ?_, hGoesOn.data, ?_, ?_, hStop⟩
  · exact hLater.trans (congrArg (·.bytes touched) hAhead)
  · exact congrArg (· + _) hGoesOn.ready
  · intro hToken
    exact Nat.lt_of_lt_of_le hLimit (hGoesOn.full hToken)

------------------------------------------------------------
-- Handing out
------------------------------------------------------------

/-
  A decoder that has used `used` and gave `gave`: it is not
  ahead of the machine, and what it has decoded beyond what it
  gave is ready.
-/
structure Follows
    (d : Inflater)
    (used gave : Bytes) : Prop where
  ahead : d.ahead = Machine.start.bytes used
  ready :
    ∃ waiting,
      d.data.toList = gave ++ waiting ∧ waiting.length = d.ready

theorem follows_new : Follows new [] [] :=
  ⟨rfl, [], rfl, rfl⟩

section

variable {d : Inflater} {used gave : Bytes}

/- What the machine has decoded begins with what was given. -/
theorem Follows.isPrefix
    (hFollows : d.Follows used gave) :
    gave <+: (Machine.start.bytes used).data.toList := by
  rcases hFollows.ready with ⟨waiting, hData, -⟩
  have hGiven : gave <+: d.data.toList :=
    hData ▸ List.prefix_append _ _
  have hWritten : d.data.toList <+: d.written.data.toList := by
    rcases d with ⟨phase, final, bits, _ | token, data, ready⟩
    · exact List.prefix_refl _
    · exact isPrefix_extend data token
  rw [← hFollows.ahead]
  exact hGiven.trans (hWritten.trans (d.written.isPrefix_bits d.bits))

/-
  A decoder with nothing ready and no reason to go on has come
  up with the machine.
-/
theorem Follows.caughtUp
    (hFollows : d.Follows used gave)
    (hReady : d.ready = 0)
    (hToken : d.token = none)
    (hEnd : d.written.Halted ∨ d.bits = []) :
    (Machine.start.bytes used).data.toList = gave := by
  rcases hFollows.ready with ⟨waiting, hData, hLength⟩
  rw [hReady, List.length_eq_zero_iff] at hLength
  have hWritten : d.ahead = d.written := by
    rcases hEnd with hHalted | hNone
    · exact hHalted.bits _
    · rw [Inflater.ahead, hNone]
      rfl
  rw [← hFollows.ahead, hWritten, written, hToken]
  rw [hLength, List.append_nil] at hData
  exact hData

/- Handing out gives the first bytes that are ready. -/
theorem Follows.handOut
    (hFollows : d.Follows used gave)
    (room : Nat) :
    Follows (d.handOut room).2 used (gave ++ (d.handOut room).1) ∧
      (d.handOut room).1.length = min room d.ready ∧
      (d.handOut room).2 = { d with ready := d.ready - min room d.ready } := by
  rcases hFollows with ⟨hAhead, waiting, hData, hLength⟩
  have hStart : d.data.size - d.ready = gave.length := by
    rw [← Array.length_toList, hData, List.length_append, hLength]
    omega
  have hOut : (d.handOut room).1 = waiting.take (min room d.ready) := by
    simp only [Inflater.handOut, Array.toList_extract, hStart]
    rw [List.extract_eq_take_drop, hData, List.drop_left,
      Nat.add_sub_cancel_left]
  refine ⟨⟨hAhead, waiting.drop (min room d.ready), ?_, ?_⟩, ?_, rfl⟩
  · rw [hOut, List.append_assoc, List.take_append_drop]
    exact hData
  · rw [List.length_drop, hLength]
    rfl
  · rw [hOut, List.length_take, hLength]
    omega

end

------------------------------------------------------------
-- A call of the decoder
------------------------------------------------------------

/-
  How a call ends that was given `src` behind what was used: it
  has found the data corrupt, or it has given something, or it
  has given everything there is.
-/
structure Answers
    (used gave src : Bytes)
    (room : Nat)
    (next : Decoding Inflater) : Prop where
  follows :
    next.decoder.Follows (used ++ src.take next.consumed)
      (gave ++ next.produced)
  consumed : next.consumed ≤ src.length
  produced : next.produced.length ≤ room
  corrupt :
    next.status = .corrupt → next.decoder.phase = .corrupt
  finished :
    next.status = .finished → next.decoder.phase = .finished
  idle :
    next.status ≠ .corrupt → next.produced = [] →
      (Machine.start.bytes
          (used ++ src.take next.consumed)).data.toList = gave ∧
        (next.status = .finished ∨ next.consumed = src.length)

section

variable {d : Inflater} {used gave src : Bytes} {room : Nat}

/- A call with bytes to use ends the stream, or uses or gives some. -/
theorem Answers.advances
    {next : Decoding Inflater}
    (hAnswers : Answers used gave src room next)
    (hFine : next.status ≠ .corrupt)
    (hSome : src ≠ []) :
    next.status = .finished ∨
      0 < next.consumed ∨ next.produced ≠ [] := by
  by_cases hNone : next.produced = []
  · rcases (hAnswers.idle hFine hNone).2 with hFinished | hAll
    · exact .inl hFinished
    · rw [hAll]
      exact .inr (.inl (List.length_pos_iff.mpr hSome))
  · exact .inr (.inr hNone)

/- Without a token, a decoder has stopped at the machine's end. -/
theorem halted_of_stopped
    (hToken : d.token = none)
    (hStopped : d.stopped = true) :
    d.written.Halted := by
  rw [stopped, hToken] at hStopped
  simpa [Machine.Halted, written] using hStopped

/- At its end, a decoder is where the machine is. -/
theorem Follows.phase_eq
    (hFollows : d.Follows used gave)
    (hHalted : d.written.Halted) :
    (Machine.start.bytes used).phase = d.phase := by
  rw [← hFollows.ahead, Inflater.ahead, hHalted.bits]
  rfl

theorem isFinished_iff :
    d.isFinished = true ↔
      d.phase = .finished ∧ d.token = none ∧ d.ready = 0 := by
  simp [isFinished, and_assoc]

/- Data that is found corrupt is. -/
theorem answers_corrupt
    {touched rest : Bytes}
    (hFollows : d.Follows (used ++ touched) gave)
    (hCorrupt : d.phase = .corrupt) :
    Answers used gave (touched ++ rest) room
      ⟨d, touched.length, [], .corrupt⟩ := by
  refine ⟨?_, ?_, Nat.zero_le _, fun _ => hCorrupt,
    fun h => (by cases h), fun h => absurd rfl h⟩
  · rw [List.take_left, List.append_nil]
    exact hFollows
  · rw [List.length_append]
    exact Nat.le_add_right _ _

/-
  Handing out what is ready, where `touched` was used for it. If
  nothing is, the decoder has to have a reason: its end, or that
  no bytes are left.
-/
theorem answers_handOut
    {touched rest : Bytes}
    (hFollows : d.Follows (used ++ touched) gave)
    (hIdle : d.ready = 0 →
      d.token = none ∧
        (d.stopped = true ∨ rest = [] ∧ d.bits = []))
    (hRoom : 0 < room)
    (hFine : d.phase ≠ .corrupt) :
    Answers used gave (touched ++ rest) room
      ⟨(d.handOut room).2, touched.length, (d.handOut room).1,
        if (d.handOut room).2.isFinished then .finished else .more⟩ := by
  have hTouched : (touched ++ rest).take touched.length = touched :=
    List.take_left
  rcases hFollows.handOut room with ⟨hNext, hLength, hRest⟩
  rcases hOut : d.handOut room with ⟨out, last⟩
  rw [hOut] at hNext hLength hRest
  simp only at hNext hLength hRest ⊢
  have hNothing : out = [] → d.ready = 0 := by
    rintro rfl
    rw [List.length_nil] at hLength
    omega
  refine ⟨?_, ?_, ?_, ?_, ?_, ?_⟩
  · rwa [hTouched]
  · rw [List.length_append]
    exact Nat.le_add_right _ _
  · simp only [hLength]
    exact Nat.min_le_left _ _
  · simp only
    split <;> exact fun h => by cases h
  · simp only
    split
    · next hFinished => exact fun _ => (isFinished_iff.mp hFinished).1
    · exact fun h => by cases h
  · intro _ hNone
    rcases hIdle (hNothing hNone) with ⟨hToken, hEnd⟩
    refine ⟨?_, ?_⟩
    · rw [hTouched]
      exact hFollows.caughtUp (hNothing hNone) hToken
        (hEnd.imp (halted_of_stopped hToken) And.right)
    · rcases hEnd with hStopped | ⟨hAll, -⟩
      · left
        have hHalted := halted_of_stopped hToken hStopped
        have hFinished : last.isFinished = true := by
          rw [isFinished_iff, hRest]
          refine ⟨hHalted.resolve_right hFine, hToken, ?_⟩
          simp only [hNothing hNone, Nat.zero_sub]
        exact if_pos hFinished
      · right
        rw [hAll, List.append_nil]

/- A call goes on where another has handed something out. -/
theorem Answers.behind
    {touched rest out : Bytes}
    {next : Decoding Inflater}
    (hSome : out ≠ [])
    (hFits : out.length ≤ room)
    (hLater :
      Answers (used ++ touched) (gave ++ out) rest (room - out.length)
        next) :
    Answers used gave (touched ++ rest) room
      { next with
        consumed := touched.length + next.consumed
        produced := out ++ next.produced } := by
  have hTouched :
      (touched ++ rest).take (touched.length + next.consumed) =
        touched ++ rest.take next.consumed := by
    rw [List.take_append, List.take_of_length_le
      (Nat.le_add_right _ _), Nat.add_sub_cancel_left]
  have hGiven : out ++ next.produced ≠ [] :=
    List.append_ne_nil_of_left_ne_nil hSome _
  refine ⟨?_, ?_, ?_, hLater.corrupt, hLater.finished,
    fun _ hNone => absurd hNone hGiven⟩
  · rw [hTouched, ← List.append_assoc, ← List.append_assoc]
    exact hLater.follows
  · rw [List.length_append]
    exact Nat.add_le_add_left hLater.consumed _
  · have hProduced := hLater.produced
    simp only [List.length_append]
    omega

/- Filling a window of a decoder. -/
theorem Follows.fill
    (hFollows : d.Follows used gave)
    (src : Bytes) :
    ∃ touched,
      src = touched ++ (d.fill src).2 ∧
        (d.fill src).1.Follows (used ++ touched) gave ∧
        ((d.fill src).1.ready = 0 →
          (d.fill src).1.token = none ∧
            ((d.fill src).1.stopped = true ∨
              (d.fill src).2 = [] ∧ (d.fill src).1.bits = [])) := by
  rcases d.fill_spec src with
    ⟨touched, hAll, hAhead, ⟨more, hData⟩, hReady, hToken, hEnd⟩
  rcases hFollows.ready with ⟨waiting, hGave, hLength⟩
  have hMore : (d.fill src).1.data.size - d.data.size = more.length := by
    rw [← Array.length_toList, ← hData, List.length_append,
      Array.length_toList]
    omega
  refine ⟨touched, hAll, ⟨?_, waiting ++ more, ?_, ?_⟩,
    fun hNone => ⟨?_, hEnd⟩⟩
  · rw [hAhead, hFollows.ahead, Machine.bytes_append]
  · rw [← hData, hGave, List.append_assoc]
  · rw [List.length_append, hReady, hMore, hLength]
  · rw [← Option.not_isSome_iff_eq_none]
    intro hSome
    have hGrown := hToken hSome
    omega

/-
  If nothing is ready, windows are filled and handed out one by
  one, as long as there is room.
-/
theorem answers_windows
    (hFollows : d.Follows used gave)
    (hRoom : 0 < room) :
    Answers used gave src room (d.windows src room) := by
  -- There is less room after every window that is handed out.
  induction room using Nat.strongRecOn generalizing d used gave src with
  | ind room ih =>
      rw [windows]
      rcases hFollows.fill src with ⟨touched, hAll, hFilled, hIdle⟩
      rcases hFill : d.fill src with ⟨filled, rest⟩
      simp only [hFill] at hAll hFilled hIdle ⊢
      subst hAll
      have hCount :
          (touched ++ rest).length - rest.length = touched.length := by
        rw [List.length_append]
        omega
      rw [hCount]
      split
      · next hCorrupt => exact answers_corrupt hFilled hCorrupt
      · next hFine =>
          have hHere := answers_handOut hFilled hIdle hRoom hFine
          have hNext := (hFilled.handOut room).1
          rcases hOut : filled.handOut room with ⟨out, last⟩
          rw [hOut] at hHere hNext
          simp only at hHere hNext ⊢
          split
          · exact hHere
          · next hGoesOn =>
              simp only [not_or] at hGoesOn
              rcases hGoesOn with ⟨-, -, -, hSome, hLeft⟩
              have hMoved : 0 < out.length :=
                List.length_pos_iff.mpr hSome
              exact (ih (room - out.length) (by omega) hNext
                (by omega)).behind hSome hHere.produced

/- A call of the decoder. -/
theorem answers_decode
    (hFollows : d.Follows used gave)
    (hRoom : 0 < room) :
    Answers used gave src room (d.decode src room) := by
  rw [decode]
  split
  · next hCorrupt =>
      rw [← List.append_nil used] at hFollows
      exact answers_corrupt hFollows hCorrupt
  · next hFine =>
      split
      · next hReady =>
          rw [← List.append_nil used] at hFollows
          exact answers_handOut hFollows
            (fun hNone => absurd hNone hReady) hRoom hFine
      · exact answers_windows hFollows hRoom

end

/- A decoder follows the machine, whatever it was called with. -/
theorem follows_of_decodes
    {d : rawDeflate.Decoder}
    {used gave : Bytes}
    (hDecodes : rawDeflate.Decodes d used gave) :
    Follows d used gave := by
  induction hDecodes with
  | new => exact follows_new
  | call _ src hRoom ih => exact (answers_decode ih hRoom).follows

end Inflater

------------------------------------------------------------
-- Streams
------------------------------------------------------------

/- The text that can be decoded from the first bytes of a stream. -/
def text
    (encoded : Bytes) : Bytes :=
  (Machine.start.bytes encoded).data.toList

/-
  A whole stream: the machine comes to the end of the data with
  its last byte and not before.
-/
def IsStream
    (s : Bytes) : Prop :=
  (Machine.start.bytes s).phase = .finished ∧
    ∀ n < s.length, (Machine.start.bytes (s.take n)).phase ≠ .finished

instance
    (s : Bytes) : Decidable (IsStream s) :=
  inferInstanceAs (Decidable (_ ∧ ∀ n < s.length, _))

section

variable {whole trailing used : Bytes}

/- Nothing is corrupt on the way to the end of a stream. -/
theorem IsStream.phase_ne_corrupt
    (hStream : IsStream whole)
    (hUsed : used <+: whole ++ trailing) :
    (Machine.start.bytes used).phase ≠ .corrupt := by
  intro hCorrupt
  rcases hUsed with ⟨rest, hAll⟩
  have hEnd : Machine.start.bytes (whole ++ trailing) =
      Machine.start.bytes whole := by
    rw [Machine.bytes_append]
    exact Machine.Halted.bytes (.inl hStream.1) _
  have hSame : Machine.start.bytes (whole ++ trailing) =
      Machine.start.bytes used := by
    rw [← hAll, Machine.bytes_append]
    exact Machine.Halted.bytes (.inr hCorrupt) _
  rw [← hSame, hEnd, hStream.1] at hCorrupt
  cases hCorrupt

/- The end is reached only behind the whole stream. -/
theorem IsStream.isPrefix_of_finished
    (hStream : IsStream whole)
    (hUsed : used <+: whole ++ trailing)
    (hFinished : (Machine.start.bytes used).phase = .finished) :
    whole <+: used := by
  rcases List.prefix_or_prefix_of_prefix
    (List.prefix_append whole trailing) hUsed with hWhole | hInside
  · exact hWhole
  · rcases Nat.lt_or_ge used.length whole.length with hLess | hAll
    · have hNever := hStream.2 used.length hLess
      rw [← List.prefix_iff_eq_take.mp hInside] at hNever
      exact absurd hFinished hNever
    · exact (hInside.eq_of_length_le hAll).symm ▸ List.prefix_refl _

/-
  How a call ends on the way through a stream and on to what
  stands behind it.
-/
theorem IsStream.answers
    {d : rawDeflate.Decoder}
    {gave src : Bytes}
    {room : Nat}
    (hStream : IsStream whole)
    (hSource : used ++ src <+: whole ++ trailing)
    (hDecodes : rawDeflate.Decodes d used gave)
    (hRoom : 0 < room) :
    Inflater.Answers used gave src room
        (rawDeflate.decode d src room) ∧
      (rawDeflate.decode d src room).status ≠ .corrupt ∧
      used ++ src.take (rawDeflate.decode d src room).consumed <+:
        whole ++ trailing := by
  have hAnswers : Inflater.Answers used gave src room
      (rawDeflate.decode d src room) :=
    Inflater.answers_decode (Inflater.follows_of_decodes hDecodes) hRoom
  have hUsed :
      used ++ src.take (rawDeflate.decode d src room).consumed <+:
        whole ++ trailing := by
    refine List.IsPrefix.trans ?_ hSource
    exact (List.prefix_append_right_inj used).mpr (List.take_prefix _ _)
  refine ⟨hAnswers, fun hStatus => ?_, hUsed⟩
  have hCorrupt := hAnswers.corrupt hStatus
  apply hStream.phase_ne_corrupt hUsed
  rw [hAnswers.follows.phase_eq (.inr hCorrupt), hCorrupt]

end

end Parley.Deflate

namespace Parley

open Deflate

/- The decoder of raw DEFLATE data keeps the laws for streams. -/
theorem inflates_rawDeflate :
    rawDeflate.Inflates text IsStream where
  text_mono := by
    rintro whole encoded _ - - ⟨rest, rfl⟩
    rw [text, text, Machine.bytes_append]
    exact Machine.isPrefix_bytes _ _
  text_trailing := by
    intro whole trailing hStream
    rw [text, text, Machine.bytes_append,
      Machine.Halted.bytes (.inl hStream.1)]
  decode_within hStream hSource hDecodes hRoom := by
    rcases hStream.answers hSource hDecodes hRoom with
      ⟨hAnswers, hFine, -⟩
    exact ⟨hFine, hAnswers.consumed, hAnswers.produced⟩
  decode_sound hStream hSource hDecodes hRoom := by
    rcases hStream.answers hSource hDecodes hRoom with ⟨hAnswers, -⟩
    exact hAnswers.follows.isPrefix
  decode_complete hStream hSource hDecodes hRoom hNone := by
    rcases hStream.answers hSource hDecodes hRoom with
      ⟨hAnswers, hFine, -⟩
    exact (hAnswers.idle hFine hNone).1 ▸ List.prefix_rfl
  decode_advances hStream hSource hDecodes hRoom hSome := by
    rcases hStream.answers hSource hDecodes hRoom with
      ⟨hAnswers, hFine, -⟩
    exact hAnswers.advances hFine hSome
  decode_finished hStream hSource hDecodes hRoom hStatus := by
    rcases hStream.answers hSource hDecodes hRoom with
      ⟨hAnswers, -, hUsed⟩
    have hFinished := hAnswers.finished hStatus
    apply hStream.isPrefix_of_finished hUsed
    rw [hAnswers.follows.phase_eq (.inl hFinished), hFinished]

end Parley
