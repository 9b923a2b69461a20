import Parley.Proofs.Outflow.Compressed
import Parley.Proofs.Shutdown.Reading
import Parley.Proofs.Upgrade.Settled
import Parley.Proofs.Upgrade.Transparent
/-
  This file shows what an upgrade sends that has nothing to send
  for the layers that it replaces, as is the case when all that
  was written has been flushed. A layer that does not compress
  stays silent then, and the first byte on the pipe is one of the
  new layers. One that compresses does not: it is flushed before
  the handshake begins, and a flush of a compressed stream sends
  the mark of a flush even if nothing was written.

  Key definitions include:
    * `Codec.Marks`
    * `Layer.Parting`
    * `Step.IsRead`
    * `Upgrade.openingTypes`
    * `Upgrade.Turns`

  Key theorems include:
    * `Layer.Parting.eq_nil_iff`
    * `Surrogate.Settled.of_hears`
    * `Upgrade.offers_flush_of_settled`
    * `Upgrade.offers_switch`
    * `Upgrade.onset_of_settled`
    * `Upgrade.onset_spec`
    * `Upgrade.mark_before_handshake`
-/

namespace Parley

variable {κ : Codec} {θ : Tls.Provider}

------------------------------------------------------------
-- The parting of a layer
------------------------------------------------------------

/-
  A compressor that gives something when it is to flush, even if
  there is nothing that it could take in.
-/
def Codec.Marks
    (κ : Codec)
    (c : κ.Compressor) : Prop :=
  ∀ room, 0 < room → (κ.compress c [] .sync room).produced ≠ []

namespace Layer

/-
  What a layer sends when it is flushed with nothing to send:
  nothing, or what its encoder gives to calls that ask it to
  flush.
-/
def Parting : Layer κ θ → Bytes → Prop
  | .raw _, out => out = []
  | .deflate d, out =>
    ∃ rooms : List Nat,
      rooms ≠ [] ∧
      (∀ room ∈ rooms, 0 < room) ∧
      out = (κ.emit d.encoder (rooms.map (.encode .sync))).2

/- There is always something that a layer sends then. -/
theorem exists_parting
    (layer : Layer κ θ) :
    ∃ out, layer.Parting out := by
  cases layer with
  | raw link => exact ⟨[], rfl⟩
  | deflate d => exact ⟨_, [1], by simp, by simp, rfl⟩

/- Layers that compress send a mark, and others send nothing. -/
theorem Parting.eq_nil_iff
    {layer : Layer κ θ}
    {out : Bytes}
    (hParting : layer.Parting out)
    (hSent : layer.IsSent)
    (hMarks : ∀ d,
      layer = .deflate d → κ.Marks d.encoder.compressor) :
    out = [] ↔ layer.isCompressed = false := by
  cases layer with
  | raw link => exact ⟨fun _ => rfl, fun _ => hParting⟩
  | deflate d =>
      rcases hParting with ⟨_ | ⟨room, rooms⟩, hSome, hRooms, rfl⟩
      · exact absurd rfl hSome
      · have hRoom : 0 < room := hRooms room List.mem_cons_self
        have hMark : (κ.encode d.encoder .sync room).2 ≠ [] := by
          rw [Codec.encode, Codec.call, hSent.1]
          exact hMarks d rfl room hRoom
        refine ⟨fun hNone => ?_, Bool.noConfusion⟩
        rw [List.map_cons, Codec.emit] at hNone
        exact absurd (List.append_eq_nil_iff.mp hNone).1 hMark

end Layer

------------------------------------------------------------
-- Reading from a settled surrogate
------------------------------------------------------------

/- Calls that take something in. -/
def Step.IsRead : Step θ → Prop
  | .readLine => True
  | .read _ => True
  | _ => False

/- What is to be sent says whether something is. -/
theorem Layer.IsSent.of_outgoing
    {layer after : Layer κ θ}
    (hSent : layer.IsSent)
    (hSame : after.outgoing = layer.outgoing) :
    after.IsSent := by
  cases layer with
  | raw link =>
      cases after with
      | raw link' =>
          cases hSame
          exact hSent
      | deflate d' => cases hSame
  | deflate d =>
      cases after with
      | raw link' => cases hSame
      | deflate d' =>
          simp only [Layer.outgoing, Prod.mk.injEq,
            Option.some.injEq] at hSame
          rcases hSame with ⟨hInner, hEncoder, hOutput⟩
          rw [Layer.IsSent, hInner, hEncoder, hOutput]
          exact hSent

/- Reads that leave nothing unread leave a surrogate settled. -/
theorem Surrogate.Settled.of_hears
    {s after : Surrogate κ θ}
    (hSettled : s.Settled)
    (hHears : s.Hears after)
    (hRead : after.unread = []) :
    after.Settled where
  isOpen := hHears.closed.trans hSettled.isOpen
  read := hRead
  written := hHears.unsent.trans hSettled.written
  sent := hSettled.sent.of_outgoing hHears.outgoing

namespace Upgrade

open Traffic Outflow

------------------------------------------------------------
-- What an upgrade gives
------------------------------------------------------------

/-
  The types of the records with which the new layers begin to
  speak; there are none if they wait for something to be written.
-/
def openingTypes : Upgrade → List UInt8
  | .deflate _ => []
  | .tls => Tls.openingTypes

/-
  The parting of the old layers, and behind it what begins with
  a record of one of these types, if it goes on.
-/
def Turns
    (types : List UInt8)
    (parting out : Bytes) : Prop :=
  ∃ new, out = parting ++ new ∧ Tls.Opens types new

section

variable {always : Bytes → Prop}
variable {s : Surrogate κ θ} {upgrade : Upgrade}

/- A read on a plain link puts nothing on the pipe. -/
theorem offers_read
    {step : Step θ}
    {gave : Bytes}
    (hPlain : s.layer.link = .plain)
    (hReads : step.IsRead) :
    Offers always (step.carryOut s)
      (fun (_, after) out => s.Hears after ∧ out = gave)
      gave := by
  cases step with
  | readLine =>
      rw [Step.carryOut, Step.verdict, offers_bind]
      exact s.offers_readLine hPlain
  | read room =>
      rw [Step.carryOut, Step.verdict, offers_bind]
      exact s.offers_read hPlain room
  | writeLine line => cases hReads
  | write src => cases hReads
  | flush => cases hReads
  | change c => cases hReads
  | close flushes => cases hReads

/-
  A compressed stream on a plain link that keeps nothing sends
  its parting when it is flushed, or a first part of it.
-/
theorem offers_flush_deflate
    {d : DeflateStream κ (Link θ)}
    (hOutput : d.output = [])
    (hInner : d.inner = .plain)
    (hAlways : ∀ parting out,
      (Layer.deflate d).Parting parting →
      out <+: parting → always out) :
    Offers always d.flush
      (fun (r, _) out =>
        ∃ parting,
          (Layer.deflate d).Parting parting ∧ out <+: parting ∧
            (r = .ok () → out = parting))
      [] := by
  rw [DeflateStream.flush, offers_bind]
  apply offers_produce_grows.mono
  rintro d' out ⟨rfl, rooms, hGrows, hSome, hRooms⟩
  have hParting : (Layer.deflate d).Parting d'.output := by
    refine ⟨rooms, hSome, hRooms, ?_⟩
    rw [hGrows.output, hOutput, List.nil_append]
  have hInner' := hGrows.inner.trans hInner
  rw [offers_bind]
  split
  · next hNone =>
      rw [hInner']
      exact ⟨d'.output, hParting, List.nil_prefix,
        fun _ => hNone.symm⟩
  · rw [hInner']
    have hPart : ∀ n ≤ d'.output.length,
        always ([] ++ d'.output.take n) := by
      intro n _
      exact hAlways _ _ hParting (List.take_prefix n _)
    apply (offers_writeAll (fun _ => rfl) hPart).mono
    rintro ⟨r, inner⟩ out ⟨rfl, -, n, hFits, rfl, hAll⟩
    have hPrefix := List.take_prefix n d'.output
    cases r with
    | error e => exact ⟨d'.output, hParting, hPrefix, by simp⟩
    | ok =>
        refine ⟨d'.output, hParting, hPrefix, fun _ => ?_⟩
        rw [hAll.mp rfl]
        exact List.take_length

/-
  A settled surrogate that is flushed sends the parting of its
  layers and nothing else, or fails on the way.
-/
theorem offers_flush_of_settled
    (hLawful : θ.Lawful)
    (hSettled : s.Settled)
    (hPlain : s.isCompressed = true → s.isEncrypted = false)
    (hAlways : ∀ parting out,
      s.layer.Parting parting → out <+: parting → always out) :
    Offers always s.flush
      (fun (r, _) out =>
        ∃ parting, s.layer.Parting parting ∧ out <+: parting ∧
          (r = .ok () ∧ out = parting ∨ ∃ e, r = .error (.io e)))
      [] := by
  by_cases hRaw : s.isCompressed = false
  · rw [s.flush_of_settled hLawful hSettled hRaw]
    refine ⟨[], ?_, List.nil_prefix, .inl ⟨rfl, rfl⟩⟩
    rw [Surrogate.isCompressed] at hRaw
    cases hLayer : s.layer with
    | raw link => rfl
    | deflate d =>
        rw [hLayer] at hRaw
        cases hRaw
  · rw [Bool.not_eq_false] at hRaw
    have hLink := hPlain hRaw
    rcases s with ⟨layer, terminator, unread, unsent, closed⟩
    rcases hSettled with ⟨hOpen, -, hWritten, hSent⟩
    simp only at hOpen hWritten hSent hAlways ⊢
    subst hOpen hWritten
    cases layer with
    | raw link => cases hRaw
    | deflate d =>
        have hInner : d.inner = .plain := by
          cases hInner : d.inner with
          | plain => rfl
          | tls session =>
              rw [Surrogate.isEncrypted, Layer.isEncrypted,
                Layer.link, hInner] at hLink
              cases hLink
          | detached =>
              have hInnerSent := hSent.2.2
              rw [hInner] at hInnerSent
              cases hInnerSent
        change Offers always
          (Routine.bind (Routine.bind d.flush _) _) _ _
        rw [Routine.bind_assoc, offers_bind]
        apply (offers_flush_deflate hSent.2.1 hInner
          hAlways).mono
        rintro ⟨r, d'⟩ out ⟨parting, hParting, hPart, hAll⟩
        refine ⟨parting, hParting, hPart, ?_⟩
        cases r with
        | ok => exact .inl ⟨rfl, hAll rfl⟩
        | error e => exact .inr ⟨e, rfl⟩

/- After the parting, what is given begins with the new layers. -/
theorem offers_switch
    {parting : Bytes}
    (hLawful : θ.Lawful)
    (hAlways : ∀ out,
      Turns upgrade.openingTypes parting out → always out) :
    Offers always (s.switch upgrade)
      (fun (r, _) out =>
        Turns upgrade.openingTypes parting out ∧
          (r = .ok () → Turns [Tls.Record.handshake] parting out))
      parting := by
  cases upgrade with
  | deflate level =>
      have hNone := (List.append_nil parting).symm
      rw [Surrogate.switch, Surrogate.startDeflate,
        Surrogate.detachLayer]
      cases s.layer with
      | raw link =>
          exact ⟨⟨[], hNone, .nil _⟩,
            fun _ => ⟨[], hNone, .nil _⟩⟩
      | deflate d =>
          exact ⟨⟨[], hNone, .nil _⟩, fun hOk => by cases hOk⟩
  | tls =>
      have hNone := (List.append_nil parting).symm
      rw [Surrogate.switch, Surrogate.startTls,
        Surrogate.detachLink]
      cases s.layer.link with
      | plain =>
          simp only [offers_bind]
          have hHandshake := hLawful.offers_handshake.behind
            fun new hOpens => hAlways _ ⟨new, rfl, hOpens⟩
          rw [List.append_nil] at hHandshake
          apply hHandshake.mono
          rintro ⟨e | _, last⟩ out ⟨new, rfl, hOpens, hGreets⟩
          · exact ⟨⟨new, rfl, hOpens⟩, fun hOk => by cases hOk⟩
          · exact ⟨⟨new, rfl, hOpens⟩,
              fun _ => ⟨new, rfl, hGreets rfl⟩⟩
      | tls session =>
          exact ⟨⟨[], hNone, .nil _⟩, fun hOk => by cases hOk⟩
      | detached =>
          exact ⟨⟨[], hNone, .nil _⟩, fun hOk => by cases hOk⟩

end

------------------------------------------------------------
-- The law of the first byte
------------------------------------------------------------

/-
  What an upgrade may have given at any time: a first part of
  the parting, or all of it and what the new layers begin with.
-/
def Turning
    (layer : Layer κ θ)
    (upgrade : Upgrade)
    (out : Bytes) : Prop :=
  ∃ parting,
    layer.Parting parting ∧
      (out <+: parting ∨ Turns upgrade.openingTypes parting out)

/-
  What it has given when it is over: the whole parting at least,
  unless the flush of the old layers has failed.
-/
def Turned
    (layer : Layer κ θ)
    (upgrade : Upgrade) :
    Except SurrogateError Unit × Surrogate κ θ → Bytes → Prop
  | (r, _), out =>
    ∃ parting,
      layer.Parting parting ∧
        (out <+: parting ∧ (∃ e, r = .error (.io e)) ∨
          Turns upgrade.openingTypes parting out ∧
            (r = .ok () →
              Turns [Tls.Record.handshake] parting out))

/- A new upgrade of a settled surrogate gives this. -/
theorem offers_upgrade
    {s : Surrogate κ θ}
    {upgrade : Upgrade}
    (hLawful : θ.Lawful)
    (hSettled : s.Settled)
    (hNew : s.isUpgraded upgrade = false) :
    Offers (Turning s.layer upgrade) (s.upgrade upgrade)
      (Turned s.layer upgrade) [] := by
  have hPlain : s.isCompressed = true → s.isEncrypted = false := by
    intro hCompressed
    cases upgrade with
    | deflate level =>
        rw [Surrogate.isUpgraded, hCompressed] at hNew
        cases hNew
    | tls => exact hNew
  rw [s.upgrade_eq hSettled.isOpen hNew, Surrogate.prepareUpgrade,
    if_pos hSettled.read, Routine.ifOk, offers_bind]
  apply (offers_flush_of_settled hLawful hSettled hPlain
    fun parting out hParting hPart =>
      ⟨parting, hParting, .inl hPart⟩).mono
  rintro ⟨r, after⟩ out
    ⟨parting, hParting, hPart, ⟨rfl, rfl⟩ | ⟨e, rfl⟩⟩
  · apply (offers_switch hLawful fun now hTurns =>
      ⟨out, hParting, .inr hTurns⟩).mono
    rintro ⟨r, last⟩ now hTurns
    exact ⟨out, hParting, .inr hTurns⟩
  · exact ⟨parting, hParting, .inl ⟨hPart, e, rfl⟩⟩

section

variable {ι : Type} [DecidableEq ι] {R : ι → Type} {home : Side}
variable {s : Surrogate κ θ} {upgrade : Upgrade}
variable {log : List (Visit (Option ι))}
variable
  {t₀ t : Traffic
    (Result (Except SurrogateError Unit × Surrogate κ θ) R)}

/-
  For every settled surrogate, every new upgrade of it, and
  every run in which it begins to carry the upgrade out: what
  the pipe accepts from then on is, at every moment, a first
  part of the parting of the old layers, or all of it and what
  begins with the new layers.
-/
theorem onset_of_settled
    (hLawful : θ.Lawful)
    (hSettled : s.Settled)
    (hNew : s.isUpgraded upgrade = false)
    (hMarks : ∀ d,
      s.layer = .deflate d → κ.Marks d.encoder.compressor)
    (hRun : Run (seat home) t₀ log t)
    (hSound : t₀.pipe.Sound)
    (hHere : t₀.parties none = .ready (s.upgrade upgrade)) :
    ∃ parting,
      s.layer.Parting parting ∧
      (parting = [] ↔ s.isCompressed = false) ∧
      (accepted home.other log <+: parting ∨
        Turns upgrade.openingTypes parting
          (accepted home.other log)) ∧
      ∀ r after, t.parties none = .ready (.done (r, after)) →
        (∀ e, r ≠ .error (.io e)) →
          Turns upgrade.openingTypes parting
              (accepted home.other log) ∧
            (r = .ok () →
              Turns [Tls.Record.handshake] parting
                (accepted home.other log)) := by
  have hEmpty : ∀ {parting}, s.layer.Parting parting →
      (parting = [] ↔ s.isCompressed = false) :=
    fun hParting => hParting.eq_nil_iff hSettled.sent hMarks
  have hAlways : Turning s.layer upgrade [] := by
    rcases s.layer.exists_parting with ⟨parting, hParting⟩
    exact ⟨parting, hParting, .inl List.nil_prefix⟩
  rcases given_of_run_from hRun hSound hHere hAlways
    (offers_upgrade hLawful hSettled hNew) with ⟨hNow, hEnd⟩
  by_cases hDone : ∃ a, t.parties none = .ready (.done a)
  · rcases hDone with ⟨⟨r, after⟩, hDone⟩
    rcases hEnd _ hDone with
      ⟨parting, hParting, ⟨hPart, e, rfl⟩ | hTurned⟩
    · refine ⟨parting, hParting, hEmpty hParting, .inl hPart, ?_⟩
      intro r' after' hDone' hOther
      rw [hDone] at hDone'
      cases hDone'
      exact absurd rfl (hOther e)
    · refine ⟨parting, hParting, hEmpty hParting,
        .inr hTurned.1, ?_⟩
      intro r' after' hDone' _
      rw [hDone] at hDone'
      cases hDone'
      exact hTurned
  · rcases hNow with ⟨parting, hParting, hNow⟩
    refine ⟨parting, hParting, hEmpty hParting, hNow, ?_⟩
    intro r after hOver _
    exact absurd ⟨_, hOver⟩ hDone

/-
  For every codec that takes everything in, and all lawful
  sessions:

  A surrogate that any calls have led to, and that is open with
  nothing unread, is settled once a flush of it has come to a
  good end, also on an encrypted link. On a plain link it stays
  settled over reads that leave nothing unread, and they put
  nothing on the pipe.

  For every settled surrogate, every new upgrade of it, and
  every run in which it begins to carry the upgrade out: what
  the pipe accepts from then on is, at every moment, a first
  part of the parting of the old layers, or all of it and what
  begins with the new layers. The parting is empty just for
  layers that do not compress; with compression it is what the
  encoder gives when it is flushed with nothing to encode. Unless
  the old layers failed, all of it is there when the upgrade is
  over, and if it succeeded the first byte behind it is that of a
  handshake message.
-/
theorem onset_spec
    (hLawful : θ.Lawful)
    (hAdvances : κ.Advances) :
    (∀ terminator steps (s after : Surrogate κ θ) out,
      (Surrogate.new terminator).Leads steps s →
      (∀ step ∈ steps, step.IsStandard) →
      s.closed = false →
      s.unread = [] →
      Finishes s.flush (.ok (), after) out →
        after.Settled) ∧
    (∀ (s after : Surrogate κ θ) (step : Step θ) r out,
      s.Settled →
      s.layer.link = .plain →
      step.IsRead →
      Finishes (step.carryOut s) (r, after) out →
        out = [] ∧ (after.unread = [] → after.Settled)) ∧
    ∀ (s : Surrogate κ θ) upgrade,
      s.Settled →
      s.isUpgraded upgrade = false →
      (∀ d, s.layer = .deflate d →
        κ.Marks d.encoder.compressor) →
      ∀ (home : Side) (log : List (Visit (Option ι)))
        (t₀ t : Traffic
          (Result (Except SurrogateError Unit × Surrogate κ θ) R)),
        Run (seat home) t₀ log t →
        t₀.pipe.Sound →
        t₀.parties none = .ready (s.upgrade upgrade) →
        ∃ parting,
          s.layer.Parting parting ∧
          (parting = [] ↔ s.isCompressed = false) ∧
          (accepted home.other log <+: parting ∨
            Turns upgrade.openingTypes parting
              (accepted home.other log)) ∧
          ∀ r after, t.parties none = .ready (.done (r, after)) →
            (∀ e, r ≠ .error (.io e)) →
              Turns upgrade.openingTypes parting
                  (accepted home.other log) ∧
                (r = .ok () →
                  Turns [Tls.Record.handshake] parting
                    (accepted home.other log)) := by
  refine ⟨?_, ?_, ?_⟩
  · intro terminator steps s after out hLeads hStandard hOpen
      hRead hFinishes
    have hLink : s.layer.link.IsOpen :=
      hLeads.isOpen hLawful rfl hStandard (fun _ => trivial) hOpen
    exact hFinishes.post
      (concludes_flush_settled hLawful hAdvances hOpen hRead
        hLink []) rfl
  · intro s after step r out hSettled hPlain hReads hFinishes
    rcases hFinishes.post (offers_read hPlain hReads) with
      ⟨hHears, hNone⟩
    exact ⟨hNone, hSettled.of_hears hHears⟩
  · intro s upgrade hSettled hNew hMarks home log t₀ t hRun
      hSound hHere
    exact onset_of_settled hLawful hSettled hNew hMarks hRun
      hSound hHere

end

open Surrogate (compressing)

/-
  A surrogate that has begun to compress and written nothing is
  to encrypt; the client takes five bytes and leaves.
-/
def markRoutines :
    (i : Option Unit) →
      Routine endpointInterface
        (Result
          (Except SurrogateError Unit ×
            Surrogate rawDeflate Tls.transparent)
          (fun _ => Except PipeError Bytes) i) :=
  routines (compressing.upgrade .tls) fun _ =>
    (Endpoint.recv 5).bind fun r =>
      Endpoint.close.bind fun () => .done r

/- The run: the handshake waits in vain for a hello. -/
def markRun :
    List (Visit (Option Unit)) ×
      Traffic (Result
        (Except SurrogateError Unit ×
          Surrogate rawDeflate Tls.transparent)
        (fun _ : Unit => Except PipeError Bytes)) :=
  playPaced (seat .b)
    (List.replicate 8 (0, none) ++
      [(0, some ()), (0, some ()), (0, none), (0, none)])
    (new (.pair "client" "server" 32) markRoutines)

/- What comes of the upgrade. -/
def marked :
    Except SurrogateError Unit ×
      Surrogate rawDeflate Tls.transparent :=
  (markRun.2.parties none).result?.get (by decide +kernel)

/- A new encoder of this codec gives a mark. -/
theorem marks_compressor :
    rawDeflate.Marks (rawDeflate.compressor 6) := by
  intro room hRoom
  cases room with
  | zero => cases hRoom
  | succ room =>
      have hMark :
          (rawDeflate.compress (rawDeflate.compressor 6) [] .sync
            (room + 1)).produced =
            [0, 0, 0, 255, 255].take (room + 1) := by
        with_unfolding_all rfl
      rw [hMark]
      exact List.cons_ne_nil _ _

theorem settled_compressing :
    compressing.Settled :=
  ⟨rfl, rfl, rfl, rfl, rfl, trivial⟩

/-
  Nothing was written since compression began. The client finds
  five bytes on the pipe that do not belong to a handshake.
-/
theorem mark_before_handshake :
    (Surrogate.new [13, 10]).upgrade (.deflate 6) =
        .done (.ok (), compressing) ∧
      compressing.Settled ∧
      compressing.isUpgraded .tls = false ∧
      rawDeflate.Marks (rawDeflate.compressor 6) ∧
      Run (seat .b) (new (.pair "client" "server" 32) markRoutines)
        markRun.1 markRun.2 ∧
      accepted .a markRun.1 = [0, 0, 0, 255, 255] ∧
      markRun.2.parties (some ()) =
        .ready (.done (.ok [0, 0, 0, 255, 255])) ∧
      ¬ Tls.Opens Tls.openingTypes (accepted .a markRun.1) := by
  have hAccepted : accepted .a markRun.1 = [0, 0, 0, 255, 255] := by
    decide +kernel
  refine ⟨rfl, settled_compressing, rfl, marks_compressor,
    run_playPaced _ _ _, hAccepted, ?_, ?_⟩
  · have hGot :
        Party.result? (α := Except PipeError Bytes)
            (markRun.2.parties (some ())) =
          some (.ok [0, 0, 0, 255, 255]) := by
      decide +kernel
    exact Party.eq_ready_of_result? hGot
  · rw [hAccepted]
    intro hOpens
    exact absurd (hOpens 0 rfl) (by decide)

/- It is flushed, with nothing to send. -/
def flushRun :
    List (Visit (Option Unit)) ×
      Traffic (Result
        (Except SurrogateError Unit ×
          Surrogate rawDeflate Tls.transparent)
        (fun _ : Unit => Unit)) :=
  playPaced (seat .b) (List.replicate 8 (0, none))
    (new (.pair "client" "server" 32)
      (routines compressing.flush fun _ => .done ()))

/- What comes of the flush. -/
def flushed :
    Except SurrogateError Unit ×
      Surrogate rawDeflate Tls.transparent :=
  (flushRun.2.parties none).result?.get (by decide +kernel)

/-
  The flush settles the surrogate. If it is upgraded without it,
  the parting alone is accepted before the handshake gives up.
-/
theorem onset_spec_of_compressing :
    Finishes compressing.flush (.ok (), flushed.2) [0, 0, 0, 255, 255] ∧
      flushed.2.Settled ∧
      ∃ parting,
        compressing.layer.Parting parting ∧
          parting ≠ [] ∧
          Turns Tls.openingTypes parting [0, 0, 0, 255, 255] := by
  have hSpec := onset_spec
    (R := fun _ : Unit => Except PipeError Bytes)
    Tls.lawful_transparent advances_rawDeflate
  have hReached :
      (Surrogate.new [13, 10]).Leads [.change (.deflate 6)]
        compressing :=
    .cons (.done _) (.nil _)
  have hStandard : ∀ step ∈ [Step.change (.deflate 6)],
      step.IsStandard (θ := Tls.transparent) := by
    rintro step hStep
    rw [List.mem_singleton.mp hStep]
    exact ⟨.deflate 6, rfl⟩
  have hOk : flushed.1 = .ok () := by decide +kernel
  have hFlushed : flushRun.2.parties none =
      .ready (.done (.ok (), flushed.2)) := by
    rw [← hOk]
    exact Party.eq_ready_of_result? (Option.some_get _).symm
  have hFinishes :
      Finishes compressing.flush (.ok (), flushed.2)
        [0, 0, 0, 255, 255] :=
    ⟨Unit, inferInstance, _, .b, _, _, _, run_playPaced _ _ _,
      .pair "client" "server" 32, rfl, hFlushed,
      by decide +kernel⟩
  have hRun :
      Run (seat .b) (new (.pair "client" "server" 32) markRoutines)
        markRun.1 markRun.2 :=
    run_playPaced _ _ _
  have hMarks : ∀ d, compressing.layer = .deflate d →
      rawDeflate.Marks d.encoder.compressor := by
    rintro d ⟨⟩
    exact marks_compressor
  have hDone : markRun.2.parties none = .ready (.done marked) :=
    Party.eq_ready_of_result? (Option.some_get _).symm
  have hFailed :
      marked.1 = .error (.handshake (.tls .handshakeEof)) := by
    decide +kernel
  have hAccepted : accepted .a markRun.1 = [0, 0, 0, 255, 255] := by
    decide +kernel
  rcases hSpec.2.2 compressing .tls settled_compressing rfl hMarks
      _ _ _ _ hRun (.pair "client" "server" 32) rfl with
    ⟨parting, hParting, hEmpty, -, hEnd⟩
  have hOther : ∀ e, marked.1 ≠ .error (.io e) := by
    rw [hFailed]
    exact nofun
  have hTurns := (hEnd _ _ hDone hOther).1
  change Turns _ parting (accepted .a markRun.1) at hTurns
  rw [hAccepted] at hTurns
  exact ⟨hFinishes,
    hSpec.1 _ _ _ _ _ hReached hStandard rfl rfl hFinishes,
    parting, hParting, fun hNone =>
      Bool.noConfusion (hEmpty.mp hNone), hTurns⟩

end Upgrade

end Parley
