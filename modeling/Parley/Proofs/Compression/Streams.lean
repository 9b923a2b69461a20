import Parley.Deflate.Stream
import Parley.Endpoint
import Parley.Proofs.Environment
import Parley.Proofs.Compression.Laws
/-
  This file shows what the calls of a compressed stream come to
  if its codec keeps the laws: a write asks the endpoint for
  nothing, a flush sends everything that was compressed, and a
  read gives the next decoded bytes and asks the endpoint only
  when it gave all that can be decoded from what it received.

  The stream below may be the endpoint itself or anything that
  passes its calls on.

  Key definitions include:
    * `Compression.Plain`
    * `Compression.Sending`
    * `Compression.Receiving`
    * `Compression.silence`
    * `Compression.sink`
    * `Compression.source`

  Key theorems include:
    * `Codec.Lawful.yields_produce`
    * `Codec.Lawful.yields_write_over`
    * `Codec.Lawful.yields_flush_over`
    * `Codec.Lawful.yields_read_over`
-/

universe u v

namespace Parley

variable {κ : Codec} {level : Nat} {τ : Type}

namespace Compression

------------------------------------------------------------
-- Plain streams
------------------------------------------------------------

/- A stream that passes every call on to the endpoint. -/
structure Plain
    [ByteStream endpointInterface τ]
    (t : τ) : Prop where
  read :
    ∀ room,
      ByteStream.read t room =
        (Endpoint.read room).bind fun r => .done (r, t)
  write :
    ∀ src,
      ByteStream.write t src =
        (Endpoint.write src).bind fun r => .done (r, t)
  flush : ByteStream.flush t = .done (.ok (), t)

theorem plain_endpoint
    (e : Endpoint) :
    Plain e :=
  ⟨fun _ => rfl, fun _ => rfl, rfl⟩

------------------------------------------------------------
-- Streams between calls
------------------------------------------------------------

/-
  A stream to which `written` was written and which has sent
  `sent`: the compressor has taken in everything, and what it
  gave beyond that is kept.
-/
structure Sending
    (level : Nat)
    (d : DeflateStream κ τ)
    (written sent : Bytes) : Prop where
  waiting_eq : d.encoder.waiting = []
  compresses :
    ∃ marks,
      κ.Compresses level d.encoder.compressor written
        (sent ++ d.output) marks

/-
  A stream that has received `received` and gave `gave`: what
  the decoder has not used yet is kept.
-/
structure Receiving
    (d : DeflateStream κ τ)
    (received gave : Bytes) : Prop where
  decodes :
    ∃ used,
      κ.Decodes d.decoder used gave ∧ received = used ++ d.input

------------------------------------------------------------
-- What the endpoint is asked for
------------------------------------------------------------

/-
  A send of `src` was answered by `r`: of its bytes `n` were
  accepted, and at least one. It may have been cut short then.
-/
structure Accepts
    (src : Bytes)
    (r : Except ShortWrite Nat)
    (n : Nat) : Prop where
  moved : 0 < n
  fits : n ≤ src.length
  answer : r = .ok n ∧ n = src.length ∨ ∃ e, r = .error ⟨n, e⟩

/- An environment that lets itself be asked for nothing. -/
def silence
    (I : Interface.{u})
    (W : Type v) : Environment I W where
  admits _ _ := False
  answers _ _ _ _ := False

/-
  What a flush may send after `sent`, if `written` was written:
  bytes with which a compressor goes on that has taken in all of
  that and made all of it decodable.
-/
def Due
    (κ : Codec)
    (level : Nat)
    (text : Bytes → Bytes)
    (written sent : Bytes) : Prop :=
  ∃ c given marks,
    κ.Compresses level c written given marks ∧
      text given = written ∧ sent <+: given

/-
  The far side of an endpoint over which a flush sends. Of every
  send it accepts some bytes at least.
-/
def sink
    (κ : Codec)
    (level : Nat)
    (text : Bytes → Bytes)
    (written : Bytes) :
    Environment endpointInterface Bytes where
  admits sent call :=
    match call with
    | .send src =>
      src ≠ [] ∧ Due κ level text written (sent ++ src)
    | _ => False
  answers sent call :=
    match call with
    | .send src => fun r sent' => ∃ n,
      Accepts src r n ∧ sent' = sent ++ src.take n
    | _ => fun _ _ => False

/-
  The far side of an endpoint over which a read receives, up to
  `limit` bytes all in all. It lets itself be asked only when
  everything was given that can be decoded.
-/
def source
    (κ : Codec)
    (level : Nat)
    (text : Bytes → Bytes)
    (gave : Bytes)
    (limit : Nat) :
    Environment endpointInterface Bytes where
  admits received call :=
    match call with
    | .recv room => 0 < room ∧ gave = text received
    | _ => False
  answers received call :=
    match call with
    | .recv room => fun r received' => ∃ chunk,
      r = .ok chunk ∧ chunk ≠ [] ∧ chunk.length ≤ room ∧
        received' = received ++ chunk ∧
        κ.Emits level received' ∧ received'.length ≤ limit
    | _ => fun _ _ => False

end Compression

namespace Codec.Lawful

open Routine Compression

variable {text : Bytes → Bytes} {bound : Nat → Nat}
variable {d : DeflateStream κ τ}
variable {written sent received gave : Bytes}

------------------------------------------------------------
-- Writing
------------------------------------------------------------

/-
  Calling the compressor until it has taken in everything and
  leaves some of its room comes to an end, without asking for
  anything. For a flush, everything can be decoded then.
-/
theorem yields_produce
    {I : Interface.{u}}
    {W : Type v}
    (env : Environment I W)
    (flush : Flush)
    (w : W)
    {taken : Bytes}
    (hLawful : κ.Lawful level text bound)
    (hWritten : taken ++ d.encoder.waiting = written)
    (hCompresses :
      ∃ marks,
        κ.Compresses level d.encoder.compressor taken
          (sent ++ d.output) marks)
    (hFlush : flush = .sync → d.encoder.waiting = []) :
    Yields env
      (fun d' w' =>
        w' = w ∧
          Sending level d' written sent ∧
          (flush = .sync → text (sent ++ d'.output) = written) ∧
          d' =
            { d with
              encoder := d'.encoder
              output := d'.output
              capacity := d'.capacity })
      (d.produce flush) w := by
  rcases hCompresses with ⟨marks, hCompresses⟩
  -- The room that is filled counts against the bound; a mark
  -- takes less of it than a round fills.
  apply yields_loop
    (fun rank (u : DeflateStream κ τ) w' =>
      w' = w ∧
      (flush = .sync → u.encoder.waiting = []) ∧
      u =
        { d with
          encoder := u.encoder
          output := u.output
          capacity := u.capacity } ∧
      ∃ taken marks,
        taken ++ u.encoder.waiting = written ∧
        κ.Compresses level u.encoder.compressor taken
          (sent ++ u.output) marks ∧
        rank =
          bound written.length + markSize * marks -
              (sent ++ u.output).length +
            u.encoder.waiting.length)
    _ ⟨rfl, hFlush, rfl, taken, marks, hWritten, hCompresses, rfl⟩
  rintro rank u w' ⟨rfl, hFlush, hSame, taken, marks, hWritten,
    hCompresses, rfl⟩
  rcases u.reserve_eq with ⟨capacity, hReserve, hRoom⟩
  simp only [hReserve, Codec.call]
  generalize capacity - u.output.length = room at hRoom ⊢
  have hPos : 0 < room := Nat.lt_of_lt_of_le (by decide) hRoom
  have hNext := hCompresses.call u.encoder.waiting flush hPos
  have hWithin := hLawful.compress_within u.encoder.waiting flush
    hCompresses hPos
  have hAdvances := hLawful.compress_advances u.encoder.waiting
    flush hCompresses hPos
  have hStuck := hLawful.compress_stuck u.encoder.waiting flush
    hCompresses hPos
  have hComplete := hLawful.compress_complete u.encoder.waiting
    hCompresses hPos
  generalize hHere :
    κ.compress u.encoder.compressor u.encoder.waiting flush room =
      next at hNext hWithin hAdvances hStuck
  have hTaken :
      taken ++ u.encoder.waiting.take next.consumed ++
          u.encoder.waiting.drop next.consumed = written := by
    rw [List.append_assoc, List.take_append_drop, hWritten]
  rw [List.append_assoc] at hNext
  split
  · next hExit =>
      have hDrop : u.encoder.waiting.drop next.consumed = [] := by
        rcases hExit with ⟨hDrop, -⟩ | hStop
        · exact hDrop
        · by_cases hNone : u.encoder.waiting = []
          · rw [hNone, List.drop_nil]
          · rw [(hAdvances hNone).1] at hStop
            cases hStop
      have hShort : next.produced.length < room := by
        rcases hExit with ⟨-, hShort⟩ | hStop
        · exact hShort
        · rw [hStuck hStop]
          exact hPos
      rw [hDrop, List.append_nil] at hTaken
      refine .done (.done
        ⟨rfl, ⟨hDrop, _, hTaken ▸ hNext⟩, ?_, by rw [hSame]⟩)
      rintro rfl
      have hNone := hFlush rfl
      rw [hNone] at hHere hComplete hWithin hWritten
      rw [hHere] at hComplete
      rw [← List.append_assoc, ← hWritten]
      exact hComplete (Nat.le_zero.mp hWithin.1) hShort
  · next hAgain =>
      refine .done
        ⟨_, ?_, rfl, ?_, by rw [hSame], _, _, hTaken, hNext, rfl⟩
      · have hLength := hLawful.length_given hNext
        have hSize : (taken ++
            u.encoder.waiting.take next.consumed).length ≤
            written.length := by
          rw [← hTaken]
          exact (List.prefix_append _ _).length_le
        have hBound := hLawful.bound_mono hSize
        simp only [List.length_append, List.length_drop,
          DeflateStream.chunkSize, markSize, Nat.mul_add]
          at hRoom hWithin hLength hSize hBound ⊢
        by_cases hNone : u.encoder.waiting = []
        · have hFull : room ≤ next.produced.length := by
            apply Nat.le_of_not_lt
            intro hShort
            exact hAgain
              (.inl ⟨by rw [hNone, List.drop_nil], hShort⟩)
          have hMarks : flush.marks ≤ 1 := by
            cases flush <;> decide
          omega
        · have hMarks : flush.marks = 0 := by
            cases flush with
            | none => rfl
            | sync => exact absurd (hFlush rfl) hNone
          have hMoved := (hAdvances hNone).2
          rw [← List.length_pos_iff] at hMoved
          omega
      · intro hSync
        rw [hFlush hSync, List.drop_nil]

/-
  A write takes everything in and asks for nothing. Only the
  direction that sends is touched.
-/
theorem yields_write_over
    {I : Interface.{u}}
    {W : Type v}
    {env : Environment I W}
    {w : W}
    (hLawful : κ.Lawful level text bound)
    (hSending : Sending level d written sent)
    (src : Bytes) :
    Yields env
      (fun (r, d') w' =>
        w' = w ∧
          r = .ok src.length ∧
          Sending level d' (written ++ src) sent ∧
          d' =
            { d with
              encoder := d'.encoder
              output := d'.output
              capacity := d'.capacity })
      (d.write src) w := by
  have hProduce := hLawful.yields_produce env .none w
    (d := { d with encoder := κ.write d.encoder src })
    (by rw [Codec.write, hSending.waiting_eq, List.nil_append])
    hSending.compresses nofun
  apply hProduce.bind
  rintro d' w' ⟨rfl, hNext, -, hSame⟩
  exact .done ⟨rfl, rfl, hNext, hSame⟩

/- So it does in particular over an endpoint. -/
theorem yields_write
    {I : Interface.{u}}
    {W : Type v}
    {env : Environment I W}
    {w : W}
    {d : DeflateStream κ Endpoint}
    (hLawful : κ.Lawful level text bound)
    (hSending : Sending level d written sent)
    (src : Bytes) :
    Yields env
      (fun (r, d') w' =>
        w' = w ∧
          r = .ok src.length ∧
          Sending level d' (written ++ src) sent)
      (d.write src) w := by
  apply (hLawful.yields_write_over hSending src).mono
  rintro ⟨r, d'⟩ w' ⟨rfl, rfl, hNext, -⟩
  exact ⟨rfl, rfl, hNext⟩

variable [ByteStream endpointInterface τ]

/-
  A flush sends everything that was compressed, however much of
  each send is accepted at a time, and everything written can be
  decoded then. Only the direction that sends is touched.
-/
theorem yields_flush_over
    (hLawful : κ.Lawful level text bound)
    (hPlain : Plain d.inner)
    (hSending : Sending level d written sent) :
    Yields (sink κ level text written)
      (fun (r, d') sent' =>
        r = .ok () ∧
          Sending level d' written sent' ∧
          text sent' = written ∧
          d' =
            { d with
              encoder := d'.encoder
              output := d'.output
              capacity := d'.capacity })
      d.flush sent := by
  have hProduce := hLawful.yields_produce
    (sink κ level text written) .sync sent
    (by rw [hSending.waiting_eq, List.append_nil])
    hSending.compresses fun _ => hSending.waiting_eq
  apply hProduce.bind
  rintro d' now
    ⟨hNow, ⟨hWaiting, marks, hCompresses⟩, hText, hSame⟩
  replace hText := hText rfl
  have hInner : d'.inner = d.inner := by
    rw [hSame]
  rw [hNow]
  split
  · next hNone =>
      rw [hNone, List.append_nil] at hText
      rw [hNone] at hCompresses
      simp only [done_bind, hInner, hPlain.flush]
      exact .done ⟨rfl, ⟨hWaiting, marks, hCompresses⟩, hText,
        by rw [hSame]⟩
  · have hWrite : ∀ (u : τ) before now rest,
        u = d.inner ∧ now = sent ++ before →
        before ++ rest = d'.output →
        rest ≠ [] →
        Yields (sink κ level text written)
          (fun next now => ∃ n,
            next.1 = .ok n ∧ 0 < n ∧ n ≤ rest.length ∧
              next.2 = d.inner ∧
              now = sent ++ (before ++ rest.take n))
          (ByteStream.write u rest) now := by
      rintro _ before _ rest ⟨rfl, rfl⟩ hWhole hSome
      rw [hPlain.write]
      refine .ask ⟨hSome, _, _, marks, hCompresses, hText, ?_⟩ ?_
      · simp only [List.append_assoc, hWhole, List.prefix_refl]
      · rintro r now ⟨n, ⟨hMoved, hFits, hAnswer⟩, rfl⟩
        rw [List.append_assoc]
        rcases hAnswer with ⟨rfl, rfl⟩ | ⟨e, rfl⟩
        · exact .done ⟨_, rfl, hMoved, hFits, rfl, rfl⟩
        · show Yields _ _ (Routine.bind (if 0 < n then _ else _) _) _
          rw [if_pos hMoved]
          exact .done ⟨n, rfl, hMoved, hFits, rfl, rfl⟩
    have hAll := ByteStream.yields_writeAll
      (fun u before now => u = d.inner ∧ now = sent ++ before)
      hWrite (t := d'.inner) ⟨hInner, (List.append_nil sent).symm⟩
      (List.nil_append d'.output)
    apply hAll.bind
    rintro ⟨r, _⟩ now ⟨rfl, rfl, rfl⟩
    simp only [hPlain.flush, done_bind]
    refine .done ⟨rfl, ⟨hWaiting, marks, ?_⟩, hText, by rw [hSame]⟩
    rw [List.append_nil]
    exact hCompresses

/- So it does in particular over an endpoint. -/
theorem yields_flush
    {d : DeflateStream κ Endpoint}
    (hLawful : κ.Lawful level text bound)
    (hSending : Sending level d written sent) :
    Yields (sink κ level text written)
      (fun (r, d') sent' =>
        r = .ok () ∧
          Sending level d' written sent' ∧
          text sent' = written)
      d.flush sent := by
  apply (hLawful.yields_flush_over (plain_endpoint d.inner)
    hSending).mono
  rintro ⟨r, d'⟩ sent' ⟨rfl, hNext, hText, -⟩
  exact ⟨rfl, hNext, hText⟩

------------------------------------------------------------
-- Reading
------------------------------------------------------------

/-
  A read with room gives some more of the decoded bytes. It
  receives only when everything was given that can be decoded
  from what was received before, and it does not fail. Only the
  direction that receives is touched.
-/
theorem yields_read_over
    {limit room : Nat}
    (hLawful : κ.Lawful level text bound)
    (hPlain : Plain d.inner)
    (hReceiving : Receiving d received gave)
    (hEmits : κ.Emits level received)
    (hRoom : 0 < room)
    (hLimit : received.length ≤ limit) :
    Yields (source κ level text gave limit)
      (fun (r, d') received' => ∃ chunk,
        r = .ok chunk ∧
          chunk ≠ [] ∧
          chunk.length ≤ room ∧
          gave ++ chunk <+: text received' ∧
          Receiving d' received' (gave ++ chunk) ∧
          d' =
            { d with decoder := d'.decoder, input := d'.input })
      (d.read room) received := by
  rw [DeflateStream.read, if_neg (Nat.ne_of_gt hRoom)]
  -- A round uses some of the input, or receives some more of
  -- what is to be received; as input this counts less.
  apply yields_loop
    (fun rank (u : DeflateStream κ τ) received =>
      u = { d with decoder := u.decoder, input := u.input } ∧
      Receiving u received gave ∧
      κ.Emits level received ∧
      received.length ≤ limit ∧
      rank = 2 * (limit - received.length) + u.input.length)
    _ ⟨rfl, hReceiving, hEmits, hLimit, rfl⟩
  rintro rank u received
    ⟨hSame, ⟨used, hDecodes, rfl⟩, hEmits, hLimit, rfl⟩
  have hInner : u.inner = d.inner := by
    rw [hSame]
  have hWithin := hLawful.decode_within hDecodes hEmits hRoom
  have hAdvances := hLawful.decode_advances hDecodes hEmits hRoom
  have hComplete := hLawful.decode_complete hDecodes hEmits hRoom
  have hSound := hLawful.decode_sound hDecodes hEmits hRoom
  have hNext := hDecodes.call u.input hRoom
  simp only
  generalize κ.decode u.decoder u.input room = next at *
  rcases hWithin with ⟨hStatus, hFits, hProduced⟩
  simp only [hStatus, reduceCtorEq, if_false]
  have hKept : used ++ u.input =
      used ++ u.input.take next.consumed ++
        u.input.drop next.consumed := by
    rw [List.append_assoc, List.take_append_drop]
  split
  · next hSome =>
      have hText := hLawful.text_mono hEmits ⟨_, hKept.symm⟩
      exact .done (.done
        ⟨_, rfl, hSome, hProduced, hSound.trans hText,
          ⟨_, hNext, hKept⟩, by rw [hSame]⟩)
  · next hNone =>
      replace hNone : next.produced = [] := Decidable.not_not.mp hNone
      rw [hNone, List.append_nil] at hNext hSound hComplete
      split
      · next hMore =>
          have hInput : u.input ≠ [] := by
            rintro hInput
            rw [hInput, List.drop_nil] at hMore
            exact hMore rfl
          have hUsed : 0 < next.consumed := by
            rcases hAdvances hInput with hUsed | hSome
            · exact hUsed
            · exact absurd hNone hSome
          rw [if_neg (Nat.ne_of_gt hUsed)]
          refine .done ⟨_, ?_, by rw [hSame], ⟨_, hNext, hKept⟩, hEmits,
            hLimit, rfl⟩
          rw [List.length_drop]
          omega
      · next hAll =>
          replace hAll := Decidable.not_not.mp hAll
          rw [hAll, List.append_nil] at hKept
          rw [← hKept] at hNext hSound hComplete
          have hText : gave = text (used ++ u.input) :=
            hSound.eq_of_length_le (hComplete hRoom).length_le
          simp only [hInner, hPlain.read]
          refine .ask ⟨by decide, hText⟩ ?_
          rintro r more ⟨chunk, rfl, hSome, -, rfl, hEmits, hLimit⟩
          cases chunk with
          | nil => exact absurd rfl hSome
          | cons b chunk =>
              refine .done ⟨_, ?_, by rw [hSame], ⟨_, hNext, rfl⟩, hEmits,
                hLimit, rfl⟩
              simp only [List.length_append, List.length_cons]
                at hLimit ⊢
              omega

/- So it does in particular over an endpoint. -/
theorem yields_read
    {limit room : Nat}
    {d : DeflateStream κ Endpoint}
    (hLawful : κ.Lawful level text bound)
    (hReceiving : Receiving d received gave)
    (hEmits : κ.Emits level received)
    (hRoom : 0 < room)
    (hLimit : received.length ≤ limit) :
    Yields (source κ level text gave limit)
      (fun (r, d') received' => ∃ chunk,
        r = .ok chunk ∧
          chunk ≠ [] ∧
          gave ++ chunk <+: text received' ∧
          Receiving d' received' (gave ++ chunk))
      (d.read room) received := by
  apply (hLawful.yields_read_over (plain_endpoint d.inner) hReceiving
    hEmits hRoom hLimit).mono
  rintro ⟨r, d'⟩ received' ⟨chunk, hChunk, hSome, -, hText, hNext, -⟩
  exact ⟨chunk, hChunk, hSome, hText, hNext⟩

end Codec.Lawful

end Parley
