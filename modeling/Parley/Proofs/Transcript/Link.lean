import Parley.Proofs.Transcript.Delivery
/-
  This file says what it is for the layers under a surrogate to
  deliver a stream of bytes in whatever parts they like, and to
  take whatever is written to them, and shows what the calls of
  a surrogate on top of such layers come to.

  The surrogate may have taken in more than was read from it.
  What it holds and what its layers are still to deliver are
  one stream, and every call is a step on that stream: where it
  is cut into parts makes no difference.

  Key definitions include:
    * `Transcript.Passage`
    * `Transcript.Serves`
    * `Transcript.Standing`
    * `Transcript.Wire`

  Key theorems include:
    * `Transcript.Serves.yields_readLine`
    * `Transcript.Serves.yields_readExact`
    * `Transcript.Serves.yields_flush`
    * `Transcript.serves_plain`
-/

universe v

namespace Parley

namespace Transcript

open Routine

variable {κ : Codec} {θ : Tls.Provider} {W : Type v}
variable {env : Environment endpointInterface W}

------------------------------------------------------------
-- Layers that deliver and take
------------------------------------------------------------

/-
  What has passed through layers, and what is to pass: the bytes
  that they are still to deliver before they end, what was
  written up to each flush since the flush before, and what was
  written since the last flush.
-/
structure Passage where
  coming : Bytes
  flushed : List Bytes
  written : Bytes

/-
  Layers of which `holds` says what has passed through them. A
  read gives some of what is to come, and nothing only when
  nothing is to come; it is not made as long as something
  written is not flushed. A write takes some of its bytes, and
  a flush what was written since the last one.
-/
structure Serves
    (env : Environment endpointInterface W)
    (holds : Layer κ θ → Passage → W → Prop) : Prop where
  read :
    ∀ layer coming flushed w room,
      holds layer ⟨coming, flushed, []⟩ w → 0 < room →
      Yields env
        (fun (r, layer) w => ∃ chunk rest,
          r = .ok chunk ∧
            chunk.length ≤ room ∧
            coming = chunk ++ rest ∧
            (chunk = [] → coming = []) ∧
            holds layer ⟨rest, flushed, []⟩ w)
        (layer.read room) w
  write :
    ∀ layer passage w src,
      holds layer passage w → src ≠ [] →
      Yields env
        (fun (r, layer) w => ∃ n,
          r = .ok n ∧ 0 < n ∧ n ≤ src.length ∧
            holds layer
              { passage with
                written := passage.written ++ src.take n } w)
        (layer.write src) w
  flush :
    ∀ layer passage w,
      holds layer passage w →
      Yields env
        (fun (r, layer) w =>
          r = .ok () ∧
            holds layer
              { passage with
                flushed := passage.flushed ++ [passage.written]
                written := [] } w)
        layer.flush w

------------------------------------------------------------
-- A surrogate on top of them
------------------------------------------------------------

/-
  Where an open surrogate stands: `left` is still to be read
  through it, `unsent` was written and is not flushed yet.
-/
structure Standing
    (holds : Layer κ θ → Passage → W → Prop)
    (terminator left unsent : Bytes)
    (flushed : List Bytes)
    (s : Surrogate κ θ)
    (w : W) : Prop where
  isOpen : s.closed = false
  terminator_eq : s.terminator = terminator
  unsent_eq : s.unsent = unsent
  stream :
    ∃ coming,
      left = s.unread ++ coming ∧
        holds s.layer ⟨coming, flushed, []⟩ w

namespace Serves

variable {holds : Layer κ θ → Passage → W → Prop}
variable {terminator left unsent : Bytes}
variable {flushed : List Bytes} {s : Surrogate κ θ} {w : W}

/- The layers deliver what is to come, and never fail. -/
theorem delivers
    (hServes : Serves env holds)
    (flushed : List Bytes)
    {room : Nat}
    (hRoom : 0 < room) :
    Delivers env
      (fun layer coming _ w => holds layer ⟨coming, flushed, []⟩ w)
      (fun _ => False) True room := by
  intro layer coming _ w hHolds _
  apply (hServes.read layer coming flushed w room hHolds hRoom).mono
  rintro ⟨r, layer⟩ w ⟨chunk, rest, rfl, hFits, rfl, hEnd, hNext⟩
  refine ⟨rest, .given hFits fun hNone => ?_, hNext⟩
  have hBoth := hEnd hNone
  rw [List.append_eq_nil_iff] at hBoth
  exact .inr hBoth.2

/-
  Reading a line takes what is left up to the first place where
  what ends a line stands, however it comes in. If it stands
  nowhere, all that is left is the part of a line that the
  failure reports.
-/
theorem yields_readLine
    (hServes : Serves env holds)
    (hTerminator : terminator ≠ [])
    (hStanding :
      Standing holds terminator left unsent flushed s w) :
    Yields env
      (fun (r, s) w =>
        match terminator.find? left with
        | some n =>
          r = .ok (left.take n) ∧
            Standing holds terminator
              (left.drop (n + terminator.length))
              unsent flushed s w
        | none =>
          r = .error (.unexpectedEof left) ∧
            Standing holds terminator [] unsent flushed s w)
      s.readLine w := by
  rcases hStanding with ⟨hOpen, rfl, hUnsent, coming, rfl, hHolds⟩
  have hRoom : 0 < Surrogate.chunkSize := by decide
  have hDelivers := hServes.delivers flushed hRoom
  apply (hDelivers.yields_readLine hTerminator hOpen []
    hHolds (.inl trivial)).mono
  rintro ⟨r, s'⟩ w ⟨layer, unread, rest, rfl, hLine, hNext⟩
  generalize hLeft : s.unread ++ coming = left at hLine
  generalize hAfter : unread ++ rest = after at hLine
  cases hLine with
  | line hCut =>
      rw [hCut.find?_eq, hCut.whole]
      simp only
      rw [← List.length_append, List.drop_left, List.append_assoc,
        List.take_left]
      exact ⟨rfl, hOpen, rfl, hUnsent, rest, hAfter.symm, hNext⟩
  | ended hNowhere =>
      rw [Bytes.find?_eq_none_iff_not_isInfix.mpr hNowhere]
      exact ⟨rfl, hOpen, rfl, hUnsent, rest, hAfter.symm, hNext⟩
  | failed hFails => exact hFails.elim

/-
  A read gives the next bytes of what is left, from what was
  taken in as long as there is some of it.
-/
theorem yields_read
    (hServes : Serves env holds)
    {room : Nat}
    (hRoom : 0 < room)
    (hStanding :
      Standing holds terminator left unsent flushed s w) :
    Yields env
      (fun (r, s) w => ∃ chunk rest,
        r = .ok chunk ∧
          chunk.length ≤ room ∧
          left = chunk ++ rest ∧
          (chunk = [] → left = []) ∧
          Standing holds terminator rest unsent flushed s w)
      (s.read room) w := by
  rcases hStanding with ⟨hOpen, rfl, hUnsent, coming, rfl, hHolds⟩
  have hDelivers := hServes.delivers flushed hRoom
  apply (hDelivers.yields_read hOpen [] hHolds
    fun _ => trivial).mono
  rintro ⟨r, s'⟩ w ⟨layer, unread, rest, rfl, hPart, hNext⟩
  generalize s.unread ++ coming = left at hPart
  generalize hAfter : unread ++ rest = after at hPart
  cases hPart with
  | given hFits hNone =>
      refine ⟨_, after, rfl, hFits, rfl, ?_, hOpen, rfl, hUnsent,
        rest, hAfter.symm, hNext⟩
      intro hEmpty
      rcases hNone hEmpty with hZero | hNoMore
      · omega
      · rw [hEmpty, hNoMore, List.append_nil]
  | failed hFails => exact hFails.elim

/-
  Reading a number of bytes takes as many of what is left. If
  there are fewer, they are gone.
-/
theorem yields_readExact
    (hServes : Serves env holds)
    (n : Nat)
    (hStanding :
      Standing holds terminator left unsent flushed s w) :
    Yields env
      (fun (r, s) w =>
        if left.length < n then
          r = .error .shortInput ∧
            Standing holds terminator [] unsent flushed s w
        else
          r = .ok (left.take n) ∧
            Standing holds terminator (left.drop n)
              unsent flushed s w)
      (ByteStream.readExact s n) w := by
  -- What was gathered and what is left then make up the stream.
  apply yields_loop
    (fun rank ((u : Surrogate κ θ), missing, got) w => ∃ rest,
      rank = missing ∧
      got.length + missing = n ∧
      left = got.reverse ++ rest ∧
      Standing holds terminator rest unsent flushed u w)
    n ⟨left, rfl, Nat.zero_add n, rfl, hStanding⟩
  rintro missing ⟨u, _, got⟩ w ⟨rest, rfl, hCount, rfl, hNow⟩
  by_cases hAll : missing = 0
  · have hLength : n = got.reverse.length := by
      rw [List.length_reverse]
      omega
    simp only [if_pos hAll]
    refine .done (.done ?_)
    rw [hLength, if_neg (by simp), List.take_left, List.drop_left]
    exact ⟨rfl, hNow⟩
  · simp only [if_neg hAll]
    apply (hServes.yields_read (Nat.pos_of_ne_zero hAll) hNow).bind
    rintro ⟨r, u⟩ w ⟨chunk, later, rfl, hFits, rfl, hEnd, hNext⟩
    cases chunk with
    | nil =>
        have hNone : later = [] := hEnd rfl
        subst hNone
        refine .done (.done ?_)
        rw [if_pos (by simp; omega)]
        exact ⟨rfl, hNext⟩
    | cons b chunk =>
        have hLength : (b :: chunk).length = chunk.length + 1 := rfl
        refine .done ⟨missing - (b :: chunk).length, by omega,
          later, rfl, ?_, ?_, hNext⟩
        · rw [List.length_append, List.length_reverse]
          change _ + (missing - _) = _
          omega
        · rw [List.reverse_append, List.reverse_reverse,
            List.append_assoc]

/- A flush hands over what was written, as one batch. -/
theorem yields_flush
    (hServes : Serves env holds)
    (hStanding :
      Standing holds terminator left unsent flushed s w) :
    Yields env
      (fun (r, s) w =>
        r = .ok () ∧
          Standing holds terminator left []
            (flushed ++ [unsent]) s w)
      s.flush w := by
  rcases hStanding with ⟨hOpen, hEnds, rfl, coming, rfl, hHolds⟩
  have hFlush : ∀ layer w,
      holds layer ⟨coming, flushed, s.unsent⟩ w →
      Yields env
        (fun (r, s') w =>
          r = .ok () ∧
            Standing holds terminator (s.unread ++ coming) []
              (flushed ++ [s.unsent]) s' w)
        (Surrogate.onLayer
          { s with layer := layer, unsent := [] }
          layer.flush) w := by
    intro layer w hHolds
    apply (hServes.flush _ _ _ hHolds).bind
    rintro ⟨r, layer⟩ w ⟨rfl, hHolds⟩
    exact .done ⟨rfl, hOpen, hEnds, rfl, coming, rfl, hHolds⟩
  rw [Surrogate.flush, if_neg (ne_true_of_eq_false hOpen)]
  simp only
  split
  · next hNone => exact hFlush s.layer w (hNone.symm ▸ hHolds)
  · have hAll := ByteStream.yields_writeAll
      (fun layer before w =>
        holds layer ⟨coming, flushed, before⟩ w)
      (fun layer before w rest hHolds _ hSome =>
        hServes.write layer _ w rest hHolds hSome)
      hHolds (List.nil_append s.unsent)
    have hLayer : Yields env
        (fun (r, u) w => ∃ layer,
          r = .ok () ∧
            u = { s with layer := layer, unsent := [] } ∧
            holds layer ⟨coming, flushed, s.unsent⟩ w)
        (Surrogate.onLayer { s with unsent := [] }
          (ByteStream.writeAll s.layer s.unsent)) w := by
      apply hAll.bind
      rintro ⟨r, layer⟩ w ⟨rfl, hHolds⟩
      exact .done ⟨layer, rfl, rfl, hHolds⟩
    apply hLayer.ifOk
    · rintro e u w ⟨layer, hFailed, -⟩
      cases hFailed
    · rintro ⟨⟩ u w ⟨layer, -, rfl, hHolds⟩
      exact hFlush layer w hHolds

/- Sending a line is a batch of its own. -/
theorem yields_sendLine
    (hServes : Serves env holds)
    (line : Bytes)
    (hStanding :
      Standing holds terminator left [] flushed s w) :
    Yields env
      (fun (r, s) w =>
        r = .ok () ∧
          Standing holds terminator left []
            (flushed ++ [line ++ terminator]) s w)
      (s.sendLine line) w := by
  rcases hStanding with ⟨hOpen, rfl, hUnsent, hStream⟩
  rw [Surrogate.sendLine, Surrogate.writeLine,
    if_neg (ne_true_of_eq_false hOpen), hUnsent]
  exact hServes.yields_flush ⟨hOpen, rfl, rfl, hStream⟩

/- Sending bytes is a batch of its own, even without a byte. -/
theorem yields_sendRaw
    (hServes : Serves env holds)
    (bytes : Bytes)
    (hStanding :
      Standing holds terminator left [] flushed s w) :
    Yields env
      (fun (r, s) w =>
        r = .ok () ∧
          Standing holds terminator left []
            (flushed ++ [bytes]) s w)
      (s.sendRaw bytes) w := by
  have hWrite : ∀ (u : Surrogate κ θ) before w rest,
      Standing holds terminator left before flushed u w →
      before ++ rest = bytes → rest ≠ [] →
      Yields env
        (fun a w => ∃ n,
          a.1 = .ok n ∧ 0 < n ∧ n ≤ rest.length ∧
            Standing holds terminator left
              (before ++ rest.take n) flushed a.2 w)
        (u.write rest) w := by
    rintro u before w rest ⟨hOpen, hEnds, rfl, hStream⟩ - hSome
    rw [Surrogate.write, if_neg (ne_true_of_eq_false hOpen)]
    refine .done ⟨rest.length, rfl, List.length_pos_iff.mpr hSome,
      Nat.le_refl _, hOpen, hEnds, ?_, hStream⟩
    rw [List.take_length]
  have hAll := ByteStream.yields_writeAll
    (fun u before w =>
      Standing holds terminator left before flushed u w)
    hWrite hStanding (List.nil_append bytes)
  have hRun : Yields env
      (fun a w =>
        a.1 = .ok () ∧
          Standing holds terminator left bytes flushed a.2 w)
      ((ByteStream.writeAll s bytes).bind fun a =>
        .done (a.1.mapError SurrogateError.io, a.2)) w := by
    apply hAll.bind
    rintro ⟨r, u⟩ w ⟨rfl, hStanding⟩
    exact .done ⟨rfl, hStanding⟩
  apply hRun.ifOk
  · rintro e u w ⟨hFailed, -⟩
    cases hFailed
  · rintro ⟨⟩ u w ⟨-, hStanding⟩
    exact hServes.yields_flush hStanding

end Serves

------------------------------------------------------------
-- Plain layers
------------------------------------------------------------

/-
  What a plain endpoint is connected to: the bytes that are
  still to come from there, and all that were sent there.
-/
structure Wire where
  coming : Bytes
  sent : Bytes

namespace Wire

/-
  How calls on the endpoint are answered. What comes is
  delivered in any parts, and then the stream ends. A send may
  be cut short after some of its bytes, for whatever reason.
-/
inductive Answers :
    Wire → (call : Call) → call.Answer → Wire → Prop where
  | delivered
      {room : Nat}
      {chunk rest sent : Bytes}
      (hSome : chunk ≠ [])
      (hFits : chunk.length ≤ room) :
      Answers ⟨chunk ++ rest, sent⟩ (.recv room) (.ok chunk)
        ⟨rest, sent⟩
  | ended
      {room : Nat}
      {sent : Bytes} :
      Answers ⟨[], sent⟩ (.recv room) (.error .endOfStream)
        ⟨[], sent⟩
  | accepted
      {src coming sent : Bytes} :
      Answers ⟨coming, sent⟩ (.send src) (.ok src.length)
        ⟨coming, sent ++ src⟩
  | cutShort
      {src coming sent : Bytes}
      {n : Nat}
      {e : PipeError}
      (hMoved : 0 < n)
      (hShort : n < src.length) :
      Answers ⟨coming, sent⟩ (.send src) (.error ⟨n, e⟩)
        ⟨coming, sent ++ src.take n⟩

/- The wire is there to receive with room, and to send bytes. -/
def serving : Environment endpointInterface Wire where
  admits _ call :=
    match call with
    | .recv room => 0 < room
    | .send src => src ≠ []
    | _ => False
  answers := Answers

/- What the wire lets itself be asked for it has an answer to. -/
theorem exists_answers
    (w : Wire)
    (call : Call)
    (hAdmits : serving.admits w call) :
    ∃ r w', serving.answers w call r w' := by
  rcases w with ⟨coming, sent⟩
  cases call with
  | recv room =>
      cases coming with
      | nil => exact ⟨_, _, .ended⟩
      | cons b coming =>
          exact ⟨_, _,
            .delivered (List.cons_ne_nil b []) hAdmits⟩
  | send src => exact ⟨_, _, .accepted⟩
  | _ => exact hAdmits.elim

/- Plain layers over a wire, of which this has passed. -/
def Holds
    (layer : Layer κ θ)
    (passage : Passage)
    (w : Wire) : Prop :=
  layer = .raw .plain ∧
    w.coming = passage.coming ∧
    w.sent = passage.flushed.flatten ++ passage.written

end Wire

/- Plain layers over a wire deliver and take as they should. -/
theorem serves_plain :
    Serves Wire.serving (Wire.Holds (κ := κ) (θ := θ)) where
  read := by
    rintro layer coming flushed ⟨_, sent⟩ room
      ⟨rfl, rfl, hSent⟩ hRoom
    refine .ask hRoom fun r w hAnswers => ?_
    cases hAnswers with
    | delivered hSome hFits =>
        exact .done ⟨_, _, rfl, hFits, rfl,
          fun hNone => absurd hNone hSome, rfl, rfl, hSent⟩
    | ended =>
        exact .done ⟨[], [], rfl, Nat.zero_le _, rfl,
          fun _ => rfl, rfl, rfl, hSent⟩
  write := by
    rintro layer passage ⟨coming, sent⟩ src
      ⟨rfl, hComing, hSent⟩ hSome
    refine .ask hSome fun r w hAnswers => ?_
    cases hAnswers with
    | accepted =>
        refine .done ⟨src.length, rfl,
          List.length_pos_iff.mpr hSome, Nat.le_refl _, rfl,
          hComing, ?_⟩
        rw [List.take_length, ← List.append_assoc]
        exact congrArg (· ++ src) hSent
    | @cutShort _ _ _ n e hMoved hShort =>
        show Yields _ _ (Routine.bind
          (Routine.bind (if 0 < n then _ else _) _) _) _
        rw [if_pos hMoved]
        refine .done ⟨n, rfl, hMoved, Nat.le_of_lt hShort, rfl,
          hComing, ?_⟩
        rw [← List.append_assoc]
        exact congrArg (· ++ src.take n) hSent
  flush := by
    rintro layer passage w ⟨rfl, hComing, hSent⟩
    refine .done ⟨rfl, rfl, hComing, ?_⟩
    rw [hSent, List.flatten_concat, List.append_nil]

end Transcript

end Parley
