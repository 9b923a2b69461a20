import Parley.Deflate.Codec
import Parley.Tls.Stream
import Parley.Conversation.Surrogate
import Parley.Proofs.Outflow.Concluding
import Parley.Proofs.Upgrade.Kinds
/-
  This file shows when a surrogate refuses to switch its layers
  because there is something unread. What it has taken out of
  its layers makes it refuse, before it asks for anything. What
  the layers themselves have taken from the pipe and not handed
  out yet does not: the switch goes on as if there were nothing,
  and leaves it where it is.

  Key definitions include:
    * `Upgrade`
    * `Surrogate.upgrade`
    * `Surrogate.switch`
    * `Layer.Retains`

  Key theorems include:
    * `Surrogate.upgrade_eq`
    * `Upgrade.concludes_flush`
    * `Upgrade.concludes_switch`
    * `Upgrade.refusal_spec`
    * `Upgrade.overlooked_at_halfway`
-/

namespace Parley

variable {κ : Codec} {θ : Tls.Provider}

------------------------------------------------------------
-- Upgrades
------------------------------------------------------------

/- What a surrogate can do to its layers. -/
inductive Upgrade where
  | deflate (level : Nat)
  | tls

namespace Surrogate

/- Carry an upgrade out. -/
def upgrade
    (s : Surrogate κ θ) : Upgrade → Run κ θ Unit
  | .deflate level => s.enableDeflate level
  | .tls => s.enableTls

/- Whether an upgrade was carried out before. -/
def isUpgraded
    (s : Surrogate κ θ) : Upgrade → Bool
  | .deflate _ => s.isCompressed
  | .tls => s.isEncrypted

/- What remains of an upgrade once everything is prepared. -/
def switch
    (s : Surrogate κ θ) : Upgrade → Run κ θ Unit
  | .deflate level => s.startDeflate level
  | .tls => s.startTls (.ok θ.server) θ.handshake

section

variable {s : Surrogate κ θ} {upgrade : Upgrade}

/- A new upgrade is prepared, and then the layers are switched. -/
theorem upgrade_eq
    (hOpen : s.closed = false)
    (hNew : s.isUpgraded upgrade = false) :
    s.upgrade upgrade =
      s.prepareUpgrade.ifOk fun () s => s.switch upgrade := by
  cases upgrade with
  | deflate level =>
      rw [isUpgraded] at hNew
      rw [Surrogate.upgrade, enableDeflate,
        if_neg (ne_true_of_eq_false hOpen),
        if_neg (ne_true_of_eq_false hNew)]
      rfl
  | tls =>
      rw [isUpgraded] at hNew
      rw [Surrogate.upgrade, enableTls, enableTlsWith,
        if_neg (ne_true_of_eq_false hOpen),
        if_neg (ne_true_of_eq_false hNew)]
      rfl

end

end Surrogate

------------------------------------------------------------
-- What sending leaves alone
------------------------------------------------------------

/-
  What sending makes of a layer: one that compresses if that one
  did, and has taken in the same.
-/
structure Layer.Retains
    (layer after : Layer κ θ) : Prop where
  isCompressed : after.isCompressed = layer.isCompressed
  intake : after.intake = layer.intake

/- A layer of the same kinds with the same intake is such. -/
theorem Layer.Retains.of_standing
    {layer after : Layer κ θ}
    (hStanding : after.standing = layer.standing) :
    layer.Retains after := by
  refine ⟨?_, congrArg Prod.snd hStanding⟩
  rw [after.isCompressed_eq, layer.isCompressed_eq]
  exact congrArg (fun st => decide (Kind.compressed ∈ st.1)) hStanding

namespace Upgrade

open Traffic Outflow

------------------------------------------------------------
-- Upgrades with nothing unread
------------------------------------------------------------

section

variable {s : Surrogate κ θ} {upgrade : Upgrade}

/-
  How sending ends, which has nothing to do with what is unread:
  it does not complain of that, and leaves it alone.
-/
def Sends
    (s : Surrogate κ θ) :
    Except SurrogateError Unit × Surrogate κ θ → Prop
  | (r, after) =>
    (∀ n, r ≠ .error (.pendingInput n)) ∧
      after.unread = s.unread ∧
      s.layer.Retains after.layer

/- A flush of an open surrogate. -/
theorem concludes_flush
    (hOpen : s.closed = false) :
    Concludes s.flush (Sends s) := by
  apply concludes_of_always
  refine (s.always_flush hOpen).mono ?_
  rintro ⟨r, after⟩ ⟨hCause, hFlushed⟩
  refine ⟨?_, hFlushed.unread, .of_standing hFlushed.standing⟩
  rintro n rfl
  rcases hCause _ rfl with ⟨cause, hIo⟩
  cases hIo

/-
  How a new upgrade ends that has found nothing unread: not by
  a refusal, and nothing that was taken in is touched.
-/
def Passes
    (s : Surrogate κ θ) :
    Except SurrogateError Unit × Surrogate κ θ → Prop
  | (r, after) =>
    (∀ n, r ≠ .error (.pendingInput n)) ∧
      after.unread = s.unread ∧
      after.layer.intake = s.layer.intake

/- Switching the layers, where none of them compresses twice. -/
theorem concludes_switch
    (hNew : ∀ level,
      upgrade = .deflate level → s.isCompressed = false) :
    Concludes (s.switch upgrade) (Passes s) := by
  cases upgrade with
  | deflate level =>
      have hPlain := hNew level rfl
      rw [Surrogate.isCompressed] at hPlain
      rw [Surrogate.switch, Surrogate.startDeflate,
        Surrogate.detachLayer]
      cases hLayer : s.layer with
      | raw link =>
          refine fun gave => ⟨nofun, rfl, ?_⟩
          rw [hLayer]
          rfl
      | deflate d =>
          rw [hLayer] at hPlain
          cases hPlain
  | tls =>
      have hBack : ∀ link,
          ((s.layer.withLink .detached).withLink link).intake =
            s.layer.intake := by
        intro link
        rw [Layer.intake_withLink, Layer.intake_withLink]
      rw [Surrogate.switch, Surrogate.startTls,
        Surrogate.detachLink]
      cases s.layer.link with
      | plain =>
          apply (concludes_trivial _).bind
          rintro ⟨r, session⟩ - gave
          cases r with
          | ok => exact ⟨nofun, rfl, hBack _⟩
          | error e => exact ⟨nofun, rfl, hBack _⟩
      | tls session => exact fun gave => ⟨nofun, rfl, hBack _⟩
      | detached => exact fun gave => ⟨nofun, rfl, hBack _⟩

/- An upgrade with nothing unread. -/
theorem concludes_upgrade
    (hOpen : s.closed = false)
    (hNew : s.isUpgraded upgrade = false)
    (hRead : s.unread = []) :
    Concludes (s.upgrade upgrade) (Passes s) := by
  rw [s.upgrade_eq hOpen hNew, Surrogate.prepareUpgrade,
    if_pos hRead]
  apply (concludes_flush hOpen).bind
  rintro ⟨r, after⟩ ⟨hOther, hUnread, hRetains⟩
  cases r with
  | error e => exact fun _ => ⟨hOther, hUnread, hRetains.intake⟩
  | ok =>
      have hStill : ∀ level,
          upgrade = .deflate level → after.isCompressed = false := by
        rintro level rfl
        exact hRetains.isCompressed.trans hNew
      intro gave
      apply (concludes_switch hStill gave).mono
      rintro ⟨r, last⟩ out ⟨hOther, hSame, hLast⟩
      exact ⟨hOther, hSame.trans hUnread,
        hLast.trans hRetains.intake⟩

end

------------------------------------------------------------
-- The law of refusal
------------------------------------------------------------

section

variable {ι : Type} [DecidableEq ι] {R : ι → Type} {home : Side}
variable {s : Surrogate κ θ} {upgrade : Upgrade}
variable {log : List (Visit (Option ι))}
variable
  {t₀ t : Traffic
    (Result (Except SurrogateError Unit × Surrogate κ θ) R)}

/-
  For every open surrogate, every new upgrade of it, and every
  run in which it begins to carry the upgrade out: if there is
  anything unread in the surrogate, the upgrade is refused at
  once, with the number of these bytes, without any call on the
  pipe, and everything stays as it is. If there is nothing, it
  is not refused for that reason, whatever the layers have taken
  from the pipe and not handed out; they keep it.
-/
theorem refusal_spec
    (hOpen : s.closed = false)
    (hNew : s.isUpgraded upgrade = false)
    (hRun : Run (seat home) t₀ log t)
    (hSound : t₀.pipe.Sound)
    (hHere : t₀.parties none = .ready (s.upgrade upgrade)) :
    (s.unread ≠ [] →
      s.upgrade upgrade =
        .done (.error (.pendingInput s.unread.length), s)) ∧
    (s.unread = [] →
      ∀ r after, t.parties none = .ready (.done (r, after)) →
        (∀ n, r ≠ .error (.pendingInput n)) ∧
          after.unread = [] ∧
          after.layer.intake = s.layer.intake) := by
  refine ⟨?_, ?_⟩
  · intro hUnread
    rw [s.upgrade_eq hOpen hNew, Surrogate.prepareUpgrade,
      if_neg hUnread]
    rfl
  · intro hRead r after hDone
    have hGiven := given_of_run_from hRun hSound hHere trivial
      (concludes_upgrade hOpen hNew hRead [])
    rcases hGiven.2 _ hDone with ⟨hOther, hUnread, hIntake⟩
    rw [hRead] at hUnread
    exact ⟨hOther, hUnread, hIntake⟩

end

/- The word `hello` in a stored block, and the mark of a flush. -/
def helloBlock : Bytes :=
  [0, 5, 0, 250, 255, 104, 101, 108, 108, 111, 0, 0, 0, 255, 255]

/-
  A surrogate begins to compress and reads two letters; the
  client has sent the whole word and does nothing more.
-/
def halfwayRoutines :
    (i : Option Unit) →
      Routine endpointInterface
        (Result (List Reply × Surrogate rawDeflate Tls.transparent)
          (fun _ => Except PipeError Nat) i) :=
  routines
    (Routine.forEach Surrogate.take (Surrogate.new [13, 10])
      [.endpoint (.setTimeout (some (.ofMillis 12))),
        .deflate 6, .read 2])
    fun _ => Endpoint.send helloBlock

/- The run, up to the second letter. -/
def halfwayRun :
    List (Visit (Option Unit)) ×
      Traffic (Result
        (List Reply × Surrogate rawDeflate Tls.transparent)
        (fun _ : Unit => Except PipeError Nat)) :=
  playPaced (seat .b)
    ((0, some ()) :: List.replicate 8 (0, none))
    (new (.pair "client" "server" 32) halfwayRoutines)

/- What has been answered then, and the surrogate. -/
def halfway : List Reply × Surrogate rawDeflate Tls.transparent :=
  (halfwayRun.2.parties none).result?.get (by decide +kernel)

/- The same pipe at the same time, for what it does next. -/
def goOn
    {α : Type}
    (p : Routine endpointInterface α) :
    Traffic (Result α fun _ : Unit => Unit) where
  pipe := halfwayRun.2.pipe
  clock := halfwayRun.2.clock
  parties i := .ready (routines p (fun _ => .done ()) i)

/- It could read on, and would not have to ask for anything. -/
def readingRun :
    List (Visit (Option Unit)) ×
      Traffic (Result
        (Except IoError Bytes ×
          Surrogate rawDeflate Tls.transparent)
        (fun _ : Unit => Unit)) :=
  playPaced (seat .b) (List.replicate 2 (0, none))
    (goOn (halfway.2.read 8))

/- What it would read. -/
def reading :
    Except IoError Bytes × Surrogate rawDeflate Tls.transparent :=
  (readingRun.2.parties none).result?.get (by decide +kernel)

/-
  Instead it is told to encrypt. The handshake waits for its
  first byte until its time is up.
-/
def upgradingRun :
    List (Visit (Option Unit)) ×
      Traffic (Result
        (Except SurrogateError Unit ×
          Surrogate rawDeflate Tls.transparent)
        (fun _ : Unit => Unit)) :=
  playPaced (seat .b)
    (List.replicate 8 (0, none) ++ [(20000000, none), (0, none)])
    (goOn (halfway.2.upgrade .tls))

/- What comes of that. -/
def upgrading :
    Except SurrogateError Unit ×
      Surrogate rawDeflate Tls.transparent :=
  (upgradingRun.2.parties none).result?.get (by decide +kernel)

/-
  Three bytes that were taken from the pipe are still to be read
  when the upgrade is asked for; it is not refused, and a
  handshake is begun.
-/
theorem overlooked_at_halfway :
    Run (seat .b) (new (.pair "client" "server" 32) halfwayRoutines)
        halfwayRun.1 halfwayRun.2 ∧
      halfwayRun.2.parties none = .ready (.done halfway) ∧
      halfway.1 = [.ok, .ok, .data [104, 101]] ∧
      halfway.2.closed = false ∧
      halfway.2.isEncrypted = false ∧
      Run (seat .b) (goOn (halfway.2.read 8)) [] readingRun.2 ∧
      readingRun.2.parties none = .ready (.done reading) ∧
      reading.1 = .ok [108, 108, 111] ∧
      Run (seat .b) (goOn (halfway.2.upgrade .tls))
        upgradingRun.1 upgradingRun.2 ∧
      upgradingRun.2.parties none = .ready (.done upgrading) ∧
      upgrading.1 =
        .error (.handshake (.pipe (.timeout "server" .read))) := by
  have hReading :
      Run (seat .b) (goOn (halfway.2.read 8))
        readingRun.1 readingRun.2 :=
    run_playPaced _ _ _
  have hSilent : readingRun.1 = [] :=
    List.isEmpty_iff.mp (by decide +kernel)
  rw [hSilent] at hReading
  refine ⟨run_playPaced _ _ _, ?_, by decide +kernel,
    by decide +kernel, by decide +kernel, hReading, ?_,
    by decide +kernel, run_playPaced _ _ _, ?_,
    by decide +kernel⟩
  · exact Party.eq_ready_of_result? (Option.some_get _).symm
  · exact Party.eq_ready_of_result? (Option.some_get _).symm
  · exact Party.eq_ready_of_result? (Option.some_get _).symm

/- The same surrogate with a letter in its own hands. -/
def keepingLetter : Surrogate rawDeflate Tls.transparent :=
  { halfway.2 with unread := [108] }

theorem refusal_spec_of_halfway :
    keepingLetter.upgrade .tls =
        .done (.error (.pendingInput 1), keepingLetter) ∧
      (∀ n, upgrading.1 ≠ .error (.pendingInput n)) ∧
      upgrading.2.unread = [] ∧
      upgrading.2.layer.intake = halfway.2.layer.intake := by
  have hHalfway :
      Run (seat .b)
        (new (.pair "client" "server" 32) halfwayRoutines)
        halfwayRun.1 halfwayRun.2 :=
    run_playPaced _ _ _
  have hSound : halfwayRun.2.pipe.Sound :=
    hHalfway.sound (.pair "client" "server" 32)
  have hRun :
      Run (seat .b) (goOn (halfway.2.upgrade .tls))
        upgradingRun.1 upgradingRun.2 :=
    run_playPaced _ _ _
  have hUnread : halfway.2.unread = [] := by decide +kernel
  have hOpen : halfway.2.closed = false := by decide +kernel
  have hNew : halfway.2.isUpgraded .tls = false := by
    decide +kernel
  have hDone :
      upgradingRun.2.parties none = .ready (.done upgrading) :=
    Party.eq_ready_of_result? (Option.some_get _).symm
  have hPassed := refusal_spec hOpen hNew hRun hSound rfl
  have hNewToo : keepingLetter.isUpgraded .tls = false := hNew
  have hStart :
      Run (seat .b) (goOn (keepingLetter.upgrade .tls)) []
        (goOn (keepingLetter.upgrade .tls)) :=
    .refl
  have hRefused :=
    refusal_spec (s := keepingLetter) hOpen hNewToo hStart hSound rfl
  exact ⟨hRefused.1 (List.cons_ne_nil _ _),
    hPassed.2 hUnread _ _ hDone⟩

end Upgrade

end Parley
