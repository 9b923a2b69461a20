import Mathlib.Logic.Function.Basic
import Parley.Endpoint
import Parley.Proofs.Pipe.Visits
/-
  This file lets any number of parties use the two endpoints of
  one pipe at the same time. Each party carries out a routine
  at its endpoint; at any moment any of them may go on, so a
  run is any order of their holds of the lock.

  A party that found no answer waits, having seen so many
  signals for its queue. It may look again at any moment, be it
  for a signal, for its timer or for nothing; it is asleep as
  long as no signal came since it last looked.

  Key definitions include:
    * `Party`
    * `Traffic`
    * `Traffic.advance`
    * `Traffic.Run`
    * `Traffic.play`
    * `Traffic.playPaced`
    * `Traffic.Asleep`
    * `Traffic.Runnable`
    * `Traffic.Advanced`

  Key theorems include:
    * `Traffic.advanced_advance`
    * `Traffic.advance_cases`
    * `Traffic.Run.parted`
    * `Traffic.Run.pipe_induction`
    * `Traffic.Run.sound`
-/

namespace Parley

------------------------------------------------------------
-- Parties
------------------------------------------------------------

/-
  A party is about to go on with a routine, or waits in a call
  since it saw so many signals.
-/
inductive Party (α : Type) where
  | ready (p : Routine endpointInterface α)
  | held
      (call : Call)
      (stage : Call.Stage)
      (seen : Nat)
      (k : call.Answer → Routine endpointInterface α)

namespace Party

variable {α : Type}

/- The result of a party that is done. -/
def result? : Party α → Option α
  | .ready (.done a) => some a
  | _ => none

theorem eq_ready_of_result?
    {party : Party α}
    {a : α}
    (hResult : party.result? = some a) :
    party = .ready (.done a) := by
  cases party with
  | ready p =>
      cases p with
      | done b =>
          cases hResult
          rfl
      | ask call k => cases hResult
      | loop body s k => cases hResult
  | held call stage seen k => cases hResult

end Party

/-
  A pipe, the time, and the parties that use the pipe. Each
  may end with a result of a type of its own.
-/
structure Traffic {ι : Type} (R : ι → Type) where
  pipe : Pipe
  clock : Instant
  parties : (i : ι) → Party (R i)

namespace Traffic

variable {ι : Type} {R : ι → Type}

/- All parties are about to begin. -/
def new
    (pipe : Pipe)
    (routines : (i : ι) → Routine endpointInterface (R i)) :
    Traffic R where
  pipe := pipe
  clock := 0
  parties i := .ready (routines i)

variable [DecidableEq ι]

/-
  End a hold of the lock: the party goes on with the answer, or
  waits for the signals that come from now on.
-/
def conclude
    (t : Traffic R)
    (v : Visit ι)
    (k : v.call.Answer →
      Routine endpointInterface (R v.party)) :
    Traffic R where
  pipe := v.after
  clock := v.now
  parties :=
    Function.update t.parties v.party
      (match v.outcome.1 with
        | .answer r => .ready (k r)
        | .wait stage =>
          .held v.call stage
            (v.after.signals.get (v.call.waitsFor v.side)) k)

/-
  Let a party go on by one step: begin a loop's next round, or
  hold the lock once. A call that begins fixes its timer at
  `began` and looks at `now`. A party that is done stays so.
-/
def advance
    (seat : ι → Side)
    (t : Traffic R)
    (i : ι)
    (began now : Instant) : List (Visit ι) × Traffic R :=
  match t.parties i with
  | .ready (.done _) => ([], t)
  | .ready (.loop body s k) =>
    ([], { t with
      parties := Function.update t.parties i
        (.ready (Routine.unroll body s k)) })
  | .ready (.ask call k) =>
    let v : Visit ι :=
      ⟨i, seat i, call, Call.begin call t.pipe (seat i) began,
        now, t.pipe⟩
    ([v], t.conclude v k)
  | .held call stage _ k =>
    let v : Visit ι := ⟨i, seat i, call, stage, now, t.pipe⟩
    ([v], t.conclude v k)

/-
  A run: the holds of the lock in their order, and where they
  lead. Who goes on is free at every step; time never runs back.
-/
inductive Run
    (seat : ι → Side)
    (t₀ : Traffic R) : List (Visit ι) → Traffic R → Prop where
  | refl : Run seat t₀ [] t₀
  | advance
      {log : List (Visit ι)}
      {t : Traffic R}
      (i : ι)
      (began now : Instant)
      (hBegan : t.clock ≤ began)
      (hNow : began ≤ now)
      (hRun : Run seat t₀ log t) :
      Run seat t₀
        (log ++ (t.advance seat i began now).1)
        (t.advance seat i began now).2

/-
  Let parties go on in a given order, at the time it is. Runs
  that are written down as an order can be evaluated.
-/
def play
    (seat : ι → Side) :
    List ι → Traffic R → List (Visit ι) × Traffic R
  | [], t => ([], t)
  | i :: order, t =>
    let (first, t) := t.advance seat i t.clock t.clock
    let (rest, t) := play seat order t
    (first ++ rest, t)

/-
  The same, where each party goes on only after a pause, in
  nanoseconds. With it a run can be written down in which time
  limits are reached.
-/
def playPaced
    (seat : ι → Side) :
    List (Nat × ι) → Traffic R → List (Visit ι) × Traffic R
  | [], t => ([], t)
  | (pause, i) :: order, t =>
    let (first, t) :=
      t.advance seat i (t.clock + pause) (t.clock + pause)
    let (rest, t) := playPaced seat order t
    (first ++ rest, t)

/-
  A party is asleep in a call when it waits there and no
  signal came since it last looked.
-/
def Asleep
    (seat : ι → Side)
    (t : Traffic R)
    (i : ι)
    (call : Call) : Prop :=
  ∃ stage seen k,
    t.parties i = .held call stage seen k ∧
      t.pipe.signals.get (call.waitsFor (seat i)) = seen

/- A party can go on: it is not done, and not asleep either. -/
def Runnable
    (seat : ι → Side)
    (t : Traffic R)
    (i : ι) : Prop :=
  (∀ a, t.parties i ≠ .ready (.done a)) ∧
    ∀ call, ¬ Asleep seat t i call

------------------------------------------------------------
-- Steps
------------------------------------------------------------

@[simp] theorem conclude_parties_self
    (t : Traffic R)
    (v : Visit ι)
    (k : v.call.Answer →
      Routine endpointInterface (R v.party)) :
    (t.conclude v k).parties v.party =
      match v.outcome.1 with
      | .answer r => .ready (k r)
      | .wait stage =>
        .held v.call stage
          (v.after.signals.get (v.call.waitsFor v.side)) k :=
  Function.update_self ..

theorem conclude_parties_of_ne
    (t : Traffic R)
    (v : Visit ι)
    (k : v.call.Answer →
      Routine endpointInterface (R v.party))
    {i : ι}
    (hParty : i ≠ v.party) :
    (t.conclude v k).parties i = t.parties i :=
  Function.update_of_ne hParty ..

/-
  What a step of party `i` can come to. Each rule says where the
  party was, and what it leaves in the log and behind itself.
-/
inductive Advanced
    (seat : ι → Side)
    (t : Traffic R)
    (i : ι)
    (began now : Instant) :
    List (Visit ι) × Traffic R → Prop where
  | rests
      (a : R i)
      (hParty : t.parties i = .ready (.done a)) :
      Advanced seat t i began now ([], t)
  | around
      {σ β : Type}
      (body : σ → Routine endpointInterface (σ ⊕ β))
      (s : σ)
      (k : β → Routine endpointInterface (R i))
      (hParty : t.parties i = .ready (.loop body s k)) :
      Advanced seat t i began now
        ([], { t with
          parties := Function.update t.parties i
            (.ready (Routine.unroll body s k)) })
  | begins
      (call : Call)
      (k : call.Answer → Routine endpointInterface (R i))
      (hParty : t.parties i = .ready (.ask call k)) :
      Advanced seat t i began now
        ([⟨i, seat i, call, call.begin t.pipe (seat i) began,
            now, t.pipe⟩],
          t.conclude
            ⟨i, seat i, call, call.begin t.pipe (seat i) began,
              now, t.pipe⟩ k)
  | resumes
      (call : Call)
      (stage : Call.Stage)
      (seen : Nat)
      (k : call.Answer → Routine endpointInterface (R i))
      (hParty : t.parties i = .held call stage seen k) :
      Advanced seat t i began now
        ([⟨i, seat i, call, stage, now, t.pipe⟩],
          t.conclude ⟨i, seat i, call, stage, now, t.pipe⟩ k)

/- A step comes to one of these. -/
theorem advanced_advance
    (seat : ι → Side)
    (t : Traffic R)
    (i : ι)
    (began now : Instant) :
    Advanced seat t i began now
      (t.advance seat i began now) := by
  unfold advance
  split
  · next a hParty => exact .rests a hParty
  · next body s k hParty => exact .around body s k hParty
  · next call k hParty => exact .begins call k hParty
  · next call stage seen k hParty =>
      exact .resumes call stage seen k hParty

/-
  A step leaves the pipe alone, or is one hold of the lock by
  the party that goes on.
-/
theorem advance_cases
    (seat : ι → Side)
    (t : Traffic R)
    (i : ι)
    (began now : Instant) :
    ((t.advance seat i began now).1 = [] ∧
      (t.advance seat i began now).2.pipe = t.pipe) ∨
    ∃ v : Visit ι,
      (t.advance seat i began now).1 = [v] ∧
      v.party = i ∧
      v.side = seat i ∧
      v.before = t.pipe ∧
      (t.advance seat i began now).2.pipe = v.after := by
  have hStep := t.advanced_advance seat i began now
  generalize t.advance seat i began now = step at hStep ⊢
  cases hStep with
  | rests => exact .inl ⟨rfl, rfl⟩
  | around => exact .inl ⟨rfl, rfl⟩
  | begins => exact .inr ⟨_, rfl, rfl, rfl, rfl, rfl⟩
  | resumes => exact .inr ⟨_, rfl, rfl, rfl, rfl, rfl⟩

/- Following an order continues a run. -/
theorem Run.append_play
    {seat : ι → Side}
    {t₀ t : Traffic R}
    {log : List (Visit ι)}
    (hRun : Run seat t₀ log t)
    (order : List ι) :
    Run seat t₀
      (log ++ (t.play seat order).1) (t.play seat order).2 := by
  induction order generalizing log t with
  | nil =>
      rw [play, List.append_nil]
      exact hRun
  | cons i order ih =>
      simp only [play, ← List.append_assoc]
      exact ih (hRun.advance i t.clock t.clock
        (Int.le_refl _) (Int.le_refl _))

/- An order is a run. -/
theorem run_play
    (seat : ι → Side)
    (order : List ι)
    (t : Traffic R) :
    Run seat t (t.play seat order).1 (t.play seat order).2 :=
  Run.refl.append_play order

/- An order with pauses is a run as well. -/
theorem run_playPaced
    (seat : ι → Side)
    (order : List (Nat × ι))
    (t : Traffic R) :
    Run seat t
      (t.playPaced seat order).1 (t.playPaced seat order).2 := by
  have hFrom : ∀ log u, Run seat t log u →
      Run seat t
        (log ++ (u.playPaced seat order).1)
        (u.playPaced seat order).2 := by
    induction order with
    | nil =>
        intro log u hRun
        rw [playPaced, List.append_nil]
        exact hRun
    | cons entry order ih =>
        intro log u hRun
        simp only [playPaced, ← List.append_assoc]
        apply ih
        apply hRun.advance entry.2 _ _ _ (Int.le_refl _)
        exact Int.le_add_of_nonneg_right (Int.natCast_nonneg _)
  exact hFrom [] t .refl

/- A run may be gone on with. -/
theorem Run.append
    {seat : ι → Side}
    {t₀ t u : Traffic R}
    {log more : List (Visit ι)}
    (hRun : Run seat t₀ log t)
    (hMore : Run seat t more u) :
    Run seat t₀ (log ++ more) u := by
  induction hMore with
  | refl =>
      rw [List.append_nil]
      exact hRun
  | advance i began now hBegan hNow _ ih =>
      rw [← List.append_assoc]
      exact ih.advance i began now hBegan hNow

/-
  A run can be parted at each hold of the lock: into a run that
  leads there, the hold, and a run that goes on from there.
-/
theorem Run.parted
    {seat : ι → Side}
    {t₀ t : Traffic R}
    {log : List (Visit ι)}
    (hRun : Run seat t₀ log t) :
    ∀ earlier v later, log = earlier ++ v :: later →
      ∃ t₁ t₂,
        Run seat t₀ earlier t₁ ∧ t₁.pipe = v.before ∧
          Run seat t₂ later t ∧ t₂.pipe = v.after := by
  induction hRun with
  | refl => simp
  | @advance log t i began now hBegan hNow hRun ih =>
      intro earlier v later hLog
      rcases t.advance_cases seat i began now with
        ⟨hStep, -⟩ | ⟨w, hStep, -, -, hBefore, hAfter⟩
      · rw [hStep, List.append_nil] at hLog
        rcases ih earlier v later hLog with
          ⟨t₁, t₂, hFirst, hThere, hRest, hLeft⟩
        refine ⟨t₁, t₂, hFirst, hThere, ?_, hLeft⟩
        have hOn := hRest.advance i began now hBegan hNow
        rw [hStep, List.append_nil] at hOn
        exact hOn
      · rw [hStep] at hLog
        rcases later.eq_nil_or_concat with rfl | ⟨later, u, rfl⟩
        · rcases List.append_inj' hLog rfl with ⟨rfl, hLast⟩
          have hSame : w = v := by simpa using hLast
          subst hSame
          exact ⟨t, _, hRun, hBefore.symm, .refl, hAfter⟩
        · rw [List.concat_eq_append, ← List.cons_append,
            ← List.append_assoc] at hLog
          rcases List.append_inj' hLog rfl with ⟨hLog, hLast⟩
          rcases ih earlier v later hLog with
            ⟨t₁, t₂, hFirst, hThere, hRest, hLeft⟩
          refine ⟨t₁, t₂, hFirst, hThere, ?_, hLeft⟩
          have hOn := hRest.advance i began now hBegan hNow
          rw [hStep, hLast, ← List.concat_eq_append] at hOn
          exact hOn

/-
  What every hold of the lock keeps true of the log and the
  pipe is true after every run, wherever the run begins.
-/
theorem Run.pipe_induction_from
    {seat : ι → Side}
    {t₀ : Traffic R}
    {log : List (Visit ι)}
    {t : Traffic R}
    {motive : List (Visit ι) → Pipe → Prop}
    (hRun : Run seat t₀ log t)
    (hBegin : motive [] t₀.pipe)
    (hVisit : ∀ log (v : Visit ι),
      motive log v.before → motive (log ++ [v]) v.after) :
    motive log t.pipe := by
  induction hRun with
  | refl => exact hBegin
  | @advance log t i began now _ _ _ ih =>
      rcases t.advance_cases seat i began now with
        ⟨hLog, hPipe⟩ | ⟨v, hLog, -, -, hBefore, hAfter⟩
      · rw [hLog, hPipe, List.append_nil]
        exact ih
      · rw [hLog, hAfter]
        apply hVisit
        rw [hBefore]
        exact ih

/- So it is in particular when the parties have just begun. -/
theorem Run.pipe_induction
    {seat : ι → Side}
    {pipe : Pipe}
    {routines : (i : ι) → Routine endpointInterface (R i)}
    {log : List (Visit ι)}
    {t : Traffic R}
    {motive : List (Visit ι) → Pipe → Prop}
    (hRun : Run seat (new pipe routines) log t)
    (hNew : motive [] pipe)
    (hVisit : ∀ log (v : Visit ι),
      motive log v.before → motive (log ++ [v]) v.after) :
    motive log t.pipe :=
  hRun.pipe_induction_from hNew hVisit

end Traffic

namespace Traffic

variable {ι : Type} {R : ι → Type} [DecidableEq ι]

/- A run that begins with a sound pipe keeps it sound. -/
theorem Run.sound_from
    {seat : ι → Side}
    {t₀ t : Traffic R}
    {log : List (Visit ι)}
    (hRun : Run seat t₀ log t)
    (hSound : t₀.pipe.Sound) :
    t.pipe.Sound :=
  hRun.pipe_induction_from (motive := fun _ p => p.Sound) hSound
    fun _ _ => Visit.sound_after

/- In every reachable state the pipe is sound. -/
theorem Run.sound
    {seat : ι → Side}
    {pipe : Pipe}
    {routines : (i : ι) → Routine endpointInterface (R i)}
    {log : List (Visit ι)}
    {t : Traffic R}
    (hRun : Run seat (new pipe routines) log t)
    (hSound : pipe.Sound) :
    t.pipe.Sound :=
  hRun.sound_from hSound

end Traffic

end Parley
