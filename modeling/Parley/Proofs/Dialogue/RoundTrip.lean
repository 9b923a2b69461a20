import Parley.Deflate.Codec
import Parley.Tls.Stream
import Parley.Proofs.Dialogue.Abiding
import Parley.Proofs.Dialogue.Exchange
import Parley.Proofs.Transcript.Joined
import Parley.Proofs.Transcript.Link
/-
  This file lets one surrogate write lines and another, at the
  other end of the pipe, read as many, and says when the lines
  that are read are those that were written: exactly when what
  ends a line cannot be taken for ending one of them earlier.

  Key definitions include:
    * `Dialogue.writeBatches`
    * `Dialogue.transfer`
    * `Dialogue.RoundTrips`

  Key theorems include:
    * `Dialogue.keeps_writeBatches`
    * `Dialogue.keeps_readLines`
    * `Dialogue.roundTrips`
-/

universe v

namespace Parley

namespace Dialogue

open Routine Traffic Transcript

variable {κ : Codec} {θ : Tls.Provider} {terminator : Bytes}

------------------------------------------------------------
-- Writing lines
------------------------------------------------------------

/- Write lines without sending them. -/
def writeLines :
    List Bytes → Surrogate κ θ → Surrogate.Run κ θ Unit
  | [], s => .done (.ok (), s)
  | line :: ls, s =>
    (s.writeLine line).ifOk fun () s => writeLines ls s

/- Write lines in batches and send each batch by a flush. -/
def writeBatches :
    List (List Bytes) → Surrogate κ θ → Surrogate.Run κ θ Unit
  | [], s => .done (.ok (), s)
  | batch :: batches, s =>
    (writeLines batch s).ifOk fun () s =>
      s.flush.ifOk fun () s => writeBatches batches s

/- Written lines wait to be sent, each with what ends it. -/
theorem writeLines_of_open
    {s : Surrogate κ θ}
    (hOpen : s.closed = false)
    (ls : List Bytes) :
    writeLines ls s =
      .done (.ok (),
        { s with unsent := s.unsent ++ joined s.terminator ls }) := by
  induction ls generalizing s with
  | nil =>
      rw [joined_nil, List.append_nil]
      rfl
  | cons line ls ih =>
      rw [writeLines, Surrogate.writeLine,
        if_neg (ne_true_of_eq_false hOpen)]
      apply (ih (s := { s with
        unsent := s.unsent ++ line ++ s.terminator }) hOpen).trans
      simp only [joined_cons, List.append_assoc]

/-
  Over layers that take all that is written, batches of lines
  are sent one after the other.
-/
theorem yields_writeBatches
    {W : Type v}
    {env : Environment endpointInterface W}
    {holds : Layer κ θ → Passage → W → Prop}
    {left : Bytes}
    {flushed : List Bytes}
    {s : Surrogate κ θ}
    {w : W}
    (hServes : Serves env holds)
    (hStanding : Standing holds terminator left [] flushed s w)
    (batches : List (List Bytes)) :
    Yields env
      (fun (r, s) w =>
        r = .ok () ∧
          Standing holds terminator left []
            (flushed ++ batches.map (joined terminator)) s w)
      (writeBatches batches s) w := by
  induction batches generalizing flushed s w with
  | nil =>
      rw [List.map_nil, List.append_nil]
      exact .done ⟨rfl, hStanding⟩
  | cons batch batches ih =>
      rcases hStanding with ⟨hOpen, rfl, hUnsent, hStream⟩
      rw [writeBatches, writeLines_of_open hOpen, hUnsent,
        List.nil_append]
      have hWritten :
          Standing holds s.terminator left
            (joined s.terminator batch) flushed
            { s with unsent := joined s.terminator batch } w :=
        ⟨hOpen, rfl, rfl, hStream⟩
      apply (hServes.yields_flush hWritten).ifOk_of_ok
      intro u w hStanding
      rw [List.map_cons, List.append_cons]
      exact ih hStanding

------------------------------------------------------------
-- The plan of a transfer
------------------------------------------------------------

/- One turn for each batch; the other party only listens. -/
def batchTurns
    (terminator : Bytes)
    (batches : List (List Bytes)) : List Turn :=
  batches.map fun batch => ⟨.surrogate, joined terminator batch⟩

/- All that is said are the lines of all batches. -/
theorem said_batchTurns
    (batches : List (List Bytes)) :
    said (batchTurns terminator batches) .surrogate =
      joined terminator batches.flatten := by
  induction batches with
  | nil => rfl
  | cons batch batches ih =>
      rw [List.flatten_cons, joined_append, ← ih]
      rfl

/- The listening party says nothing. -/
theorem said_batchTurns_client
    (batches : List (List Bytes)) :
    said (batchTurns terminator batches) .client = [] := by
  induction batches with
  | nil => rfl
  | cons batch batches ih => exact ih

/-
  As long as not all was heard, there is a turn that was not
  heard to its end.
-/
theorem listening_of_length_lt
    {batches : List (List Bytes)}
    {got : Bytes}
    (hShort :
      got.length <
        (said (batchTurns terminator batches) .surrogate).length) :
    Listening (batchTurns terminator batches) .client got [] := by
  -- The turns that were heard to their end are passed by.
  have hFrom : ∀ first later,
      first ++ later = batches →
      (said (batchTurns terminator first) .surrogate).length ≤
        got.length →
      Listening (batchTurns terminator batches) .client got [] := by
    intro first later hAll hHeard
    induction later generalizing first with
    | nil =>
        rw [List.append_nil] at hAll
        rw [hAll] at hHeard
        omega
    | cons batch later ih =>
        have hNext :
            batchTurns terminator (first ++ [batch]) =
              batchTurns terminator first ++
                [⟨.surrogate, joined terminator batch⟩] := by
          simp [batchTurns]
        by_cases hPassed :
          (said (batchTurns terminator (first ++ [batch]))
              .surrogate).length ≤ got.length
        · apply ih (first ++ [batch]) ?_ hPassed
          rw [← hAll, List.append_assoc, List.singleton_append]
        · rw [hNext, Nat.not_le] at hPassed
          refine ⟨batchTurns terminator first, _, ?_, rfl, ⟨?_, hHeard⟩,
            hPassed⟩
          · rw [← hNext, ← hAll]
            refine ⟨batchTurns terminator later, ?_⟩
            simp [batchTurns]
          · exact Nat.le_of_eq (congrArg _ (said_batchTurns_client _))
  exact hFrom [] batches rfl (Nat.zero_le _)

------------------------------------------------------------
-- Both parties keep to it
------------------------------------------------------------

/- The party that writes keeps to the plan. -/
theorem keeps_writeBatches
    {plan past : List Turn}
    {got gave : Bytes}
    {batches : List (List Bytes)}
    (hPlan : past ++ batchTurns terminator batches = plan)
    (hAbreast : Abreast plan past [] got gave) :
    Keeps plan .surrogate
      (writeBatches batches
        (Surrogate.new terminator : Surrogate κ θ))
      (fun r got gave =>
        r = (.ok (), Surrogate.new terminator) ∧
          Abreast plan plan [] got gave)
      got gave := by
  induction batches generalizing past got gave with
  | nil =>
      have hOver : past = plan := by
        simpa [batchTurns] using hPlan
      subst hOver
      exact ⟨rfl, hAbreast⟩
  | cons batch batches ih =>
      have hNext :
          past ++ [⟨.surrogate, joined terminator batch⟩] ++
            batchTurns terminator batches = plan := by
        rw [List.append_assoc, ← hPlan]
        rfl
      rw [writeBatches, writeLines_of_open rfl]
      simp only [Routine.ifOk, done_bind, keeps_bind]
      apply (keeps_flush ⟨_, hNext⟩ rfl hAbreast).mono
      rintro _ got gave ⟨rfl, hPast⟩
      exact ih hNext hPast

/- What the party that reads has come to when it is done. -/
def ReadPost
    (terminator : Bytes)
    (ls : List Bytes)
    (results : List (Except SurrogateError Bytes))
    (got : Bytes) : Prop :=
  results = lines terminator ls.length (joined terminator ls) ∧
    (results = ls.map .ok → got = joined terminator ls)

/-
  The party that reads keeps to the plan, since there are always
  enough lines. If it reads the lines that were written, it has
  heard everything by then.
-/
theorem keeps_readLines
    {batches : List (List Bytes)}
    (hTerminator : terminator ≠ []) :
    Keeps (batchTurns terminator batches) .client
      (readLines (Surrogate.new terminator : Surrogate κ θ)
        batches.flatten.length)
      (fun r got gave =>
        ReadPost terminator batches.flatten r.1 got ∧ gave = [])
      [] [] := by
  have hSaid :
      said (batchTurns terminator batches) .surrogate =
        joined terminator batches.flatten :=
    said_batchTurns batches
  -- What was got and what is still to come is the whole stream.
  have hDelivers :
      Delivers (abiding (batchTurns terminator batches) .client)
        (fun (layer : Layer κ θ) coming _ w =>
          layer = .raw .plain ∧ w.2 = [] ∧
            w.1 ++ coming = joined terminator batches.flatten)
        (fun _ => False) False Surrogate.chunkSize := by
    rintro layer coming _ ⟨got, _⟩ ⟨rfl, rfl, hWhole⟩ hMore
    change got ++ coming = joined terminator batches.flatten at hWhole
    have hShort : got.length <
        (said (batchTurns terminator batches) .surrogate).length := by
      have hSome := List.length_pos_iff.mpr hMore
      rw [hSaid, ← hWhole, List.length_append]
      omega
    refine .ask ⟨by decide, listening_of_length_lt hShort⟩ ?_
    rintro _ _ ⟨more, rfl, hSome, hFits, hPlan, rfl⟩
    rw [Role.other, hSaid, ← hWhole, List.prefix_append_right_inj]
      at hPlan
    rcases hPlan with ⟨rest, rfl⟩
    refine .done ⟨rest,
      .given hFits fun hNone => absurd hNone hSome, rfl, rfl, ?_⟩
    rw [← hWhole, List.append_assoc]
  apply keeps_of_yields
  have hLines := hDelivers.yields_readLines
    (s := Surrogate.new terminator) (w := ([], [])) hTerminator rfl
    ⟨rfl, rfl, rfl⟩ (supplies_joined batches.flatten)
  apply hLines.mono
  rintro ⟨results, s⟩ ⟨got, _⟩
    ⟨read, layer, unread, rest, hLines, hRead, hTaken, -, -, rfl,
      hWhole⟩
  refine ⟨⟨hLines, fun hSame => ?_⟩, rfl⟩
  rw [hRead] at hSame
  have hAll : read = batches.flatten :=
    (List.map_inj_right fun _ _ => Except.ok.inj).mp hSame
  have hNoMore : unread ++ rest = [] := by
    rw [hAll] at hTaken
    exact List.append_cancel_left
      (hTaken.symm.trans (List.append_nil _).symm)
  rw [(List.append_eq_nil_iff.mp hNoMore).2, List.append_nil] at hWhole
  exact hWhole

------------------------------------------------------------
-- Round trips
------------------------------------------------------------

/- What each party of a transfer comes to. -/
def TransferEnd
    (κ : Codec)
    (θ : Tls.Provider) : Role → Type
  | .client => List (Except SurrogateError Bytes) × Surrogate κ θ
  | .surrogate => Except SurrogateError Unit × Surrogate κ θ

/- One surrogate writes lines in batches, another reads as many. -/
def transfer
    (κ : Codec)
    (θ : Tls.Provider)
    (terminator : Bytes)
    (batches : List (List Bytes)) :
    (r : Role) → Routine endpointInterface (TransferEnd κ θ r)
  | .client =>
    readLines (Surrogate.new terminator) batches.flatten.length
  | .surrogate => writeBatches batches (Surrogate.new terminator)

/- What each party of a transfer has come to when it is done. -/
def TransferPost
    (terminator : Bytes)
    (batches : List (List Bytes)) :
    (r : Role) → TransferEnd κ θ r → Bytes → Bytes → Prop
  | .client => fun r got gave =>
    ReadPost terminator batches.flatten r.1 got ∧ gave = []
  | .surrogate => fun r got gave =>
    r = (.ok (), Surrogate.new terminator) ∧
      Abreast (batchTurns terminator batches)
        (batchTurns terminator batches) [] got gave

/- Both parties of a transfer keep to its plan. -/
theorem keeps_transfer
    {batches : List (List Bytes)}
    (hTerminator : terminator ≠ [])
    (r : Role) :
    Keeps (batchTurns terminator batches) r
      (transfer κ θ terminator batches r)
      (TransferPost terminator batches r) [] [] := by
  cases r with
  | client => exact keeps_readLines hTerminator
  | surrogate =>
      exact keeps_writeBatches (List.nil_append _)
        ⟨rfl, List.nil_prefix, rfl⟩

/- If all lines are framed, who is done is past the whole plan. -/
theorem past_of_transferPost
    {batches : List (List Bytes)}
    (hTerminator : terminator ≠ [])
    (hFramed :
      ∀ line ∈ batches.flatten, Bytes.Framed terminator line)
    (r : Role)
    (result : TransferEnd κ θ r)
    (got gave : Bytes)
    (hPost : TransferPost terminator batches r result got gave) :
    Past (batchTurns terminator batches) r got gave := by
  cases r with
  | client =>
      rcases hPost with ⟨⟨hLines, hAll⟩, rfl⟩
      have hSame := (lines_joined_iff hTerminator _).mpr hFramed
      have hGot := hAll (hLines.trans hSame)
      rw [← said_batchTurns] at hGot
      exact ⟨Nat.le_of_eq (congrArg _ (said_batchTurns_client _)),
        Nat.le_of_eq (congrArg _ hGot.symm)⟩
  | surrogate => exact hPost.2.past_spec

/-
  When lines that one surrogate writes are read by another. Over
  endpoints that cut up what is written in any way, and that
  deliver it in any parts, the lines are sent as they are, and
  those that are read are the same exactly if each is framed. So
  it is in every run over a pipe, whatever its capacity, and
  neither party is ever stuck if they are framed. If what ends a
  line has no border, they are framed exactly if no line has it
  as a part.
-/
structure RoundTrips
    (κ : Codec)
    (θ : Tls.Provider)
    (terminator : Bytes)
    (batches : List (List Bytes)) : Prop where
  written :
    Yields Wire.serving
      (fun (r, _) w =>
        r = .ok () ∧ w.sent = joined terminator batches.flatten)
      (writeBatches batches
        (Surrogate.new terminator : Surrogate κ θ))
      ⟨[], []⟩
  read :
    Yields Wire.serving
      (fun (results, _) _ =>
        results = batches.flatten.map .ok ↔
          ∀ line ∈ batches.flatten, Bytes.Framed terminator line)
      (readLines (Surrogate.new terminator : Surrogate κ θ)
        batches.flatten.length)
      ⟨joined terminator batches.flatten, []⟩
  transferred :
    ∀ (home : Side) (nameA nameB : String) (capacity : Nat)
      (log : List (Visit Role)) (t : Traffic (TransferEnd κ θ)),
      Run (Role.seat home)
        (new (.pair nameA nameB capacity)
          (transfer κ θ terminator batches)) log t →
      (∀ results s,
        t.parties .client = .ready (.done (results, s)) →
          (results = batches.flatten.map .ok ↔
            ∀ line ∈ batches.flatten,
              Bytes.Framed terminator line)) ∧
        ((∀ line ∈ batches.flatten, Bytes.Framed terminator line) →
          (∃ r, Runnable (Role.seat home) t r) ∨
            ∀ r, ∃ result, t.parties r = .ready (.done result))
  borderFree :
    Bytes.BorderFree terminator →
      ((∀ line ∈ batches.flatten, Bytes.Framed terminator line) ↔
        ∀ line ∈ batches.flatten, ¬ terminator <:+: line)

/- Every transfer is a round trip in this sense. -/
theorem roundTrips
    (κ : Codec)
    (θ : Tls.Provider)
    {terminator : Bytes}
    (hTerminator : terminator ≠ [])
    (batches : List (List Bytes)) :
    RoundTrips κ θ terminator batches := by
  refine ⟨?_, ?_, ?_, ?_⟩
  · -- The lines are written.
    have hStanding :
        Standing Wire.Holds terminator [] [] []
          (Surrogate.new terminator : Surrogate κ θ) ⟨[], []⟩ :=
      ⟨rfl, rfl, rfl, [], rfl, rfl, rfl, rfl⟩
    apply (yields_writeBatches serves_plain hStanding batches).mono
    rintro ⟨r, s⟩ w ⟨rfl, hSent⟩
    rcases hSent.stream with ⟨coming, -, -, -, hWire⟩
    refine ⟨rfl, ?_⟩
    rw [hWire, List.nil_append, List.append_nil]
    exact flatten_map_joined batches
  · -- The lines are read.
    have hRoom : 0 < Surrogate.chunkSize := by decide
    have hRead := (serves_plain.delivers (κ := κ) (θ := θ) []
      hRoom).yields_readLines (s := Surrogate.new terminator)
      (w := ⟨joined terminator batches.flatten, []⟩) hTerminator rfl
      ⟨rfl, rfl, rfl⟩ (supplies_joined batches.flatten)
    apply hRead.mono
    rintro ⟨results, s⟩ w ⟨_, _, _, _, hLines, -⟩
    rw [hLines]
    exact lines_joined_iff hTerminator _
  · intro home nameA nameB capacity log t hRun
    have hKeeps : ∀ r,
        Keeps (batchTurns terminator batches) r
          (transfer κ θ terminator batches r)
          (TransferPost terminator batches r) [] [] :=
      keeps_transfer hTerminator
    constructor
    · intro results s hDone
      have hEnd := (inKeeping_of_run hRun hKeeps).keeps .client
      rw [hDone] at hEnd
      have hLines :
          results =
            lines terminator batches.flatten.length
              (joined terminator batches.flatten) :=
        hEnd.1.1
      rw [hLines]
      exact lines_joined_iff hTerminator _
    · intro hFramed
      rcases runnable_or_over hRun hKeeps
        (past_of_transferPost hTerminator hFramed)
        with hRunnable | ⟨hOver, -⟩
      · exact .inl hRunnable
      · right
        intro r
        rcases hOver r with ⟨result, hDone, -⟩
        exact ⟨result, hDone⟩
  · intro hBorderFree
    exact forall₂_congr fun line _ =>
      Bytes.framed_iff_of_borderFree hTerminator hBorderFree

/-
  Two lines, without what ends them, where the end of each
  seems to come one byte early.
-/
def earlyRun :
    List (Visit Role) ×
      Traffic (TransferEnd rawDeflate Tls.transparent) :=
  play (Role.seat .a)
    (List.replicate 16 [Role.surrogate, Role.client]).flatten
    (new (.pair "left" "right" 3)
      (transfer rawDeflate Tls.transparent [1, 1] [[[7, 1]], [[1]]]))

theorem roundTrips_of_early :
    (∃ s, earlyRun.2.parties .client =
      .ready (.done ([.ok [7], .ok []], s))) ∧
      ¬ ∀ line ∈ [[7, 1], [1]], Bytes.Framed [1, 1] line := by
  have hDone :
      earlyRun.2.parties .client =
        .ready (.done ([.ok [7], .ok []],
          { Surrogate.new [1, 1] with unread := [1, 1] })) :=
    rfl
  have hTrips := roundTrips rawDeflate Tls.transparent
    (List.cons_ne_nil 1 [1])
    [[[7, 1]], [[1]]]
  have hSame := (hTrips.transferred .a "left" "right" 3 _ _
    (run_play (Role.seat .a) _ _)).1 _ _ hDone
  refine ⟨⟨_, hDone⟩, fun hFramed => ?_⟩
  cases hSame.mpr hFramed

end Dialogue

end Parley
