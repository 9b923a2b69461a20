import Parley.Peer
import Parley.Proofs.Traffic.Timeouts
/-
  This file shows that the check of the settings is a check of
  the spans that were asked for. A limit is stored in whole
  milliseconds and cut off at the highest number, and only then
  compared; since both steps keep the order, limits that are in
  order as stored were in order as asked for.

  Key definitions include:
    * `Duration.Keeps`
    * `SpanSetting`
    * `SpanChange`
    * `SpanChange.asked`
    * `Config.changeAll`
    * `Config.Patient`

  Key theorems include:
    * `Config.validate_iff`
    * `Config.lt_of_storedMillis_lt`
    * `Config.keeps_storedMillis`
    * `Config.numberOf_changeAll`
    * `Config.patient`
    * `Config.validate_spec`
-/

namespace Parley

------------------------------------------------------------
-- Spans as they are stored
------------------------------------------------------------

namespace Duration

variable {d e : Duration}

/- A span is at least its whole milliseconds. -/
theorem millis_mul_le
    (d : Duration) :
    d.millis * nanosPerMilli ≤ d.nanos :=
  Nat.div_mul_le_self ..

/- A span is less than one millisecond above them. -/
theorem lt_millis_mul_add
    (d : Duration) :
    d.nanos < d.millis * nanosPerMilli + nanosPerMilli :=
  Nat.lt_div_mul_add (by decide)

/- A span with fewer whole milliseconds is shorter. -/
theorem nanos_lt_of_millis_lt
    (hMillis : d.millis < e.millis) :
    d.nanos < e.nanos :=
  Nat.lt_of_div_lt_div hMillis

/-
  How a limit keeps the span that was asked for: it is not
  longer, and it is less than one millisecond shorter unless
  that many milliseconds cannot be stored.
-/
structure Keeps
    (stored asked : Duration) : Prop where
  le : stored.nanos ≤ asked.nanos
  lt : asked.millis ≤ Config.highestNumber →
    asked.nanos < stored.nanos + nanosPerMilli
  saturated : Config.highestNumber < asked.millis →
    stored = .ofMillis Config.highestNumber

end Duration

namespace Config

variable {d e : Duration}

/-
  Limits that are in order as stored were in order as asked for.
  If both are cut off they are stored alike, and neither is
  below the other.
-/
theorem lt_of_storedMillis_lt
    (hStored : storedMillis d < storedMillis e) :
    d.nanos < e.nanos := by
  apply Duration.nanos_lt_of_millis_lt
  unfold storedMillis at hStored
  omega

/- What is stored as one millisecond was at least that long. -/
theorem nanosPerMilli_le_of_storedMillis_pos
    (hStored : 0 < storedMillis d) :
    Duration.nanosPerMilli ≤ d.nanos := by
  have hMillis : 0 < d.millis :=
    Nat.lt_of_lt_of_le hStored (Nat.min_le_left ..)
  calc Duration.nanosPerMilli
      ≤ d.millis * Duration.nanosPerMilli :=
        Nat.le_mul_of_pos_left _ hMillis
    _ ≤ d.nanos := d.millis_mul_le

/- What is stored keeps the span that was asked for. -/
theorem keeps_storedMillis
    (d : Duration) :
    (Duration.ofMillis (storedMillis d)).Keeps d where
  le :=
    calc storedMillis d * Duration.nanosPerMilli
        ≤ d.millis * Duration.nanosPerMilli :=
          Nat.mul_le_mul_right _ (Nat.min_le_left ..)
      _ ≤ d.nanos := d.millis_mul_le
  lt := by
    intro hFits
    rw [storedMillis, Nat.min_eq_left hFits]
    exact d.lt_millis_mul_add
  saturated := by
    intro hHigh
    rw [storedMillis, Nat.min_eq_right (Nat.le_of_lt hHigh)]

end Config

------------------------------------------------------------
-- Changing the spans
------------------------------------------------------------

/- The settings that are spans of time. -/
inductive SpanSetting where
  | io
  | join
  | validity
deriving DecidableEq, Repr

/- One of them is set to a span. -/
structure SpanChange where
  setting : SpanSetting
  span : Duration

namespace SpanSetting

/- The number that is stored for a setting. -/
def numberOf
    (setting : SpanSetting)
    (c : Config) : Nat :=
  match setting with
  | io => c.ioTimeoutMs
  | join => c.joinTimeoutMs
  | validity => c.certValiditySecs

/- The number that a span is stored as. -/
def number
    (setting : SpanSetting)
    (d : Duration) : Nat :=
  match setting with
  | io => Config.storedMillis d
  | join => Config.storedMillis d
  | validity => d.seconds

end SpanSetting

namespace SpanChange

/- What was asked for last. -/
def asked
    (setting : SpanSetting)
    (changes : List SpanChange) : Option Duration :=
  changes.foldl
    (fun latest change =>
      if change.setting = setting then some change.span
      else latest)
    none

/- A change counts if it is the last of its setting. -/
theorem asked_concat
    (setting : SpanSetting)
    (changes : List SpanChange)
    (change : SpanChange) :
    asked setting (changes ++ [change]) =
      if change.setting = setting then some change.span
      else asked setting changes := by
  rw [asked, List.foldl_append, ← asked]
  rfl

end SpanChange

namespace Config

/- Change one span. -/
def change
    (c : Config)
    (x : SpanChange) : Config :=
  match x.setting with
  | .io => c.withIoTimeout x.span
  | .join => c.withJoinTimeout x.span
  | .validity => c.withCertValidity x.span

/- Change some spans, one after the other. -/
def changeAll
    (c : Config)
    (changes : List SpanChange) : Config :=
  changes.foldl change c

/- The last change comes on top of the others. -/
theorem changeAll_concat
    (c : Config)
    (changes : List SpanChange)
    (x : SpanChange) :
    c.changeAll (changes ++ [x]) = (c.changeAll changes).change x := by
  rw [changeAll, List.foldl_append, ← changeAll]
  rfl

/- A change is stored for its own setting only. -/
theorem numberOf_change
    (c : Config)
    (x : SpanChange)
    (setting : SpanSetting) :
    setting.numberOf (c.change x) =
      if x.setting = setting then setting.number x.span
      else setting.numberOf c := by
  rcases x with ⟨changed, d⟩
  cases changed <;> cases setting <;> rfl

/- The stored numbers are those of what was asked for last. -/
theorem numberOf_changeAll
    (c : Config)
    (changes : List SpanChange)
    (setting : SpanSetting) :
    setting.numberOf (c.changeAll changes) =
      ((SpanChange.asked setting changes).map
        setting.number).getD (setting.numberOf c) := by
  induction changes using List.reverseRecOn with
  | nil => rfl
  | append_singleton changes x ih =>
      rw [changeAll_concat, numberOf_change,
        SpanChange.asked_concat, ih]
      split <;> rfl

/- So it is the last span that counts, if there is any. -/
theorem numberOf_changeAll_of_asked
    (c : Config)
    {changes : List SpanChange}
    {setting : SpanSetting}
    {d : Duration}
    (hAsked : SpanChange.asked setting changes = some d) :
    setting.numberOf (c.changeAll changes) = setting.number d := by
  rw [numberOf_changeAll, hAsked]
  rfl

/- The settings that are not spans, as far as they are checked. -/
structure SameOthers
    (c c' : Config) : Prop where
  lineTerminator : c'.lineTerminator = c.lineTerminator
  tlsHost : c'.tlsHost = c.tlsHost
  deflateLevel : c'.deflateLevel = c.deflateLevel

/- Changes of spans leave them alone. -/
theorem sameOthers_changeAll
    (c : Config)
    (changes : List SpanChange) :
    SameOthers c (c.changeAll changes) := by
  induction changes using List.reverseRecOn with
  | nil => exact ⟨rfl, rfl, rfl⟩
  | append_singleton changes x ih =>
      rw [changeAll_concat]
      rcases x with ⟨changed, d⟩
      cases changed <;>
        exact ⟨ih.lineTerminator, ih.tlsHost, ih.deflateLevel⟩

------------------------------------------------------------
-- The check
------------------------------------------------------------

/- What the check asks of the settings that are not spans. -/
structure OthersValid
    (c : Config) : Prop where
  lineTerminator : c.lineTerminator ≠ ""
  tlsHost : c.tlsHost ≠ ""
  deflateLevel : c.deflateLevel ≤ highestLevel

/- So they stay as valid as they were. -/
theorem SameOthers.valid
    {c c' : Config}
    (hSame : SameOthers c c')
    (hValid : c.OthersValid) :
    c'.OthersValid where
  lineTerminator := hSame.lineTerminator ▸ hValid.lineTerminator
  tlsHost := hSame.tlsHost ▸ hValid.tlsHost
  deflateLevel := hSame.deflateLevel ▸ hValid.deflateLevel

/- The check of the spans, where nothing else is wrong. -/
theorem validate_iff
    {c : Config}
    (hOthers : c.OthersValid) :
    c.validate = .ok () ↔
      1 ≤ c.ioTimeoutMs ∧ c.ioTimeoutMs < c.joinTimeoutMs ∧
        1 ≤ c.certValiditySecs := by
  have hLevel := Nat.not_lt.mpr hOthers.deflateLevel
  simp only [validate, fault?, if_neg hOthers.lineTerminator,
    if_neg hOthers.tlsHost, if_neg hLevel]
  by_cases hIo : c.ioTimeoutMs = 0
  · simp [hIo]
  by_cases hJoin : c.joinTimeoutMs ≤ c.ioTimeoutMs
  · simp [hIo, hJoin, Nat.not_lt.mpr hJoin]
  by_cases hValidity : c.certValiditySecs = 0
  · simp [hIo, hJoin, hValidity]
  simp only [if_neg hIo, if_neg hJoin, if_neg hValidity, true_iff]
  omega

end Config

------------------------------------------------------------
-- Calls on the pipe
------------------------------------------------------------

/-
  A timeout that allows any time at all has not run out at the
  start of a call, so a call expires there by its deadline only.
-/
theorem Limits.hasExpired_start
    {l : Limits}
    {d : Duration}
    (hTimeout : l.timeout = some d)
    (hPositive : 0 < d.nanos)
    (direction : Direction)
    (now : Instant)
    (hExpired :
      (Timer.startingAt now (l.deadline direction)
        l.timeout).hasExpired now = true) :
    ∃ due, l.deadline direction = some due ∧ due ≤ now := by
  rcases (Timer.hasExpired_iff _ now).mp hExpired with
    ⟨due, hDue, hLe⟩
  have hExpiry := l.expiry_startingAt direction now
  rw [hDue] at hExpiry
  cases hExpiry.1 with
  | deadline hDeadline => exact ⟨due, hDeadline, hLe⟩
  | @timeout d' hTimeout' hReach =>
      cases hTimeout.symm.trans hTimeout'
      have hLater := Int.lt_add_of_pos_right now
        (Int.natCast_pos.mpr hPositive)
      exact absurd hLe (Int.not_le.mpr hLater)

namespace Config

/-
  On the pipe that a peer makes from these settings, whatever
  was done there, no call that may wait expires at its own start
  unless its deadline is reached, as long as its endpoint has
  not set another timeout.
-/
def Patient
    (c : Config) : Prop :=
  ∀ {ι : Type} {R : ι → Type} [DecidableEq ι]
    {seat : ι → Side}
    {routines : (i : ι) → Routine endpointInterface (R i)}
    {log : List (Visit ι)}
    {t : Traffic R},
    Traffic.Run seat (.new (Peer.pipe c) routines) log t →
    ∀ s,
      (∀ v ∈ log, v.side = s → ∀ d, v.call ≠ .setTimeout d) →
      ∀ (o : Operation) (now : Instant),
        (o.call.begin t.pipe s now).timer.hasExpired now = true →
        ∃ due, (t.pipe.limits.get s).deadline o.direction =
          some due ∧ due ≤ now

/-
  The timeout of the settings is in force until an endpoint sets
  another one.
-/
theorem timeout_of_run
    {c : Config}
    {ι : Type}
    {R : ι → Type}
    [DecidableEq ι]
    {seat : ι → Side}
    {routines : (i : ι) → Routine endpointInterface (R i)}
    {log : List (Visit ι)}
    {t : Traffic R}
    (hRun : Traffic.Run seat (.new (Peer.pipe c) routines) log t)
    {s : Side}
    (hUnset :
      ∀ v ∈ log, v.side = s → ∀ d, v.call ≠ .setTimeout d) :
    (t.pipe.limits.get s).timeout = some c.ioTimeout := by
  revert hUnset
  apply hRun.pipe_induction
    (motive := fun log p =>
      (∀ v ∈ log, v.side = s → ∀ d, v.call ≠ .setTimeout d) →
        (p.limits.get s).timeout = some c.ioTimeout)
  · intro _
    cases s <;> rfl
  · intro log v ih hUnset
    have hBefore := ih fun w hMember =>
      hUnset w (List.mem_append_left _ hMember)
    rw [v.limits_after]
    split
    · next hSide =>
        have hCall := hUnset v (by simp) hSide
        rw [← hBefore]
        cases hSet : v.call with
        | setTimeout d => exact absurd hSet (hCall d)
        | _ => rfl
    · exact hBefore

/- So calls are patient if it allows any time at all. -/
theorem patient
    {c : Config}
    (hPositive : 0 < c.ioTimeout.nanos) :
    c.Patient := by
  intro ι R _ seat routines log t hRun s hUnset o now hExpired
  have hTimeout := timeout_of_run hRun hUnset
  apply Limits.hasExpired_start hTimeout hPositive
  cases o <;> exact hExpired

------------------------------------------------------------
-- Accepted settings
------------------------------------------------------------

/-
  Whatever spans were asked for, in whatever order, the settings
  are accepted just when the limit on a call is at least one
  millisecond and below the limit on a run, as stored, and the
  certificate is good for a second. Each limit keeps the span
  that was asked for, so in accepted settings the spans were in
  order as asked for, and no call on the pipe expires at its own
  start by its timeout.
-/
theorem validate_spec
    {c : Config}
    {changes : List SpanChange}
    {io join validity : Duration}
    (hOthers : c.OthersValid)
    (hIo : SpanChange.asked .io changes = some io)
    (hJoin : SpanChange.asked .join changes = some join)
    (hValidity :
      SpanChange.asked .validity changes = some validity) :
    ((c.changeAll changes).validate = .ok () ↔
      1 ≤ storedMillis io ∧ storedMillis io < storedMillis join ∧
        1 ≤ validity.seconds) ∧
    (c.changeAll changes).ioTimeout.Keeps io ∧
    (c.changeAll changes).joinTimeout.Keeps join ∧
    ((c.changeAll changes).validate = .ok () →
      Duration.nanosPerMilli ≤ io.nanos ∧
      io.nanos < join.nanos ∧
      0 < (c.changeAll changes).ioTimeout.nanos ∧
      (c.changeAll changes).ioTimeout.nanos <
        (c.changeAll changes).joinTimeout.nanos ∧
      (c.changeAll changes).Patient) := by
  have hIoStored : (c.changeAll changes).ioTimeoutMs = _ :=
    c.numberOf_changeAll_of_asked hIo
  have hJoinStored : (c.changeAll changes).joinTimeoutMs = _ :=
    c.numberOf_changeAll_of_asked hJoin
  have hValidityStored :
      (c.changeAll changes).certValiditySecs = _ :=
    c.numberOf_changeAll_of_asked hValidity
  have hAccepts := validate_iff
    ((c.sameOthers_changeAll changes).valid hOthers)
  rw [hIoStored, hJoinStored, hValidityStored] at hAccepts
  simp only [ioTimeout, joinTimeout, hIoStored, hJoinStored]
  refine ⟨hAccepts, keeps_storedMillis io,
    keeps_storedMillis join, ?_⟩
  intro hAccepted
  rcases hAccepts.mp hAccepted with ⟨hPositive, hBelow, -⟩
  have hMilli : 0 < Duration.nanosPerMilli := by decide
  refine ⟨nanosPerMilli_le_of_storedMillis_pos hPositive,
    lt_of_storedMillis_lt hBelow, Nat.mul_pos hPositive hMilli,
    Nat.mul_lt_mul_of_pos_right hBelow hMilli, patient ?_⟩
  rw [ioTimeout, hIoStored]
  exact Nat.mul_pos hPositive hMilli

/-
  A limit of one and a half milliseconds on a call and of a bit
  over two on a run. The first is set twice.
-/
def narrowChanges : List SpanChange :=
  [⟨.io, ⟨0⟩⟩, ⟨.validity, ⟨1999999999⟩⟩, ⟨.join, ⟨2000001⟩⟩,
    ⟨.io, ⟨1500000⟩⟩]

theorem validate_spec_of_narrow :
    (standard.changeAll narrowChanges).validate = .ok () ∧
      (standard.changeAll narrowChanges).Patient := by
  have hOthers : standard.OthersValid :=
    ⟨by decide, by decide, by decide⟩
  have hIo : SpanChange.asked .io narrowChanges =
      some ⟨1500000⟩ := rfl
  have hJoin : SpanChange.asked .join narrowChanges =
      some ⟨2000001⟩ := rfl
  have hValidity : SpanChange.asked .validity narrowChanges =
      some ⟨1999999999⟩ := rfl
  have hSpec := validate_spec hOthers hIo hJoin hValidity
  have hAccepted := hSpec.1.mpr (by decide)
  exact ⟨hAccepted, (hSpec.2.2.2 hAccepted).2.2.2.2⟩

end Config

end Parley
