import Parley.Proofs.Engine.Bench
/-
  This file follows a run's one-shot and its thread through the
  steps of the bench. A run is out: its thread is at work and
  nothing is in its one-shot, or the thread has ended and left
  its report there. It never ends without one.

  The books tie the threads to the log: there is one thread at
  most, each that was started is still at work or has reported
  once, and what it reports is a result of the script that it
  was started with.

  Key definitions include:
    * `Bench.Books`
    * `Bench.Out`

  Key theorems include:
    * `World.poll_of_new`
    * `World.poll_of_filled`
    * `Bench.Books.stepped`
    * `Bench.Out.stepped`
-/

namespace Parley

------------------------------------------------------------
-- What the use of a one-shot changes
------------------------------------------------------------

namespace World

variable {V : Type} {w : World V} {t : Ticket}

@[simp] theorem abandon_slots
    (w : World V)
    (carries : Option Side) :
    (w.abandon carries).slots = w.slots := by
  cases carries <;> rfl

@[simp] theorem abandon_threads
    (w : World V)
    (carries : Option Side) :
    (w.abandon carries).threads = w.threads := by
  cases carries <;> rfl

/- A change that changes nothing leaves the world as it is. -/
theorem modifySlot_eq_self
    {f : Oneshot V → Oneshot V}
    (hSame : ∀ slot,
      w.slots[t]? = some slot → f slot.oneshot = slot.oneshot) :
    w.modifySlot t f = w := by
  have hSlots :
      w.slots.modify t (fun slot =>
        { slot with oneshot := f slot.oneshot }) = w.slots := by
    apply List.ext_getElem?
    intro j
    rw [List.getElem?_modify]
    split
    · next hTicket =>
        rw [← hTicket]
        cases hSlot : w.slots[t]? with
        | none => rfl
        | some slot => simp [hSame slot hSlot]
    · rw [id_map']
  unfold modifySlot
  rw [hSlots]

@[simp] theorem resolve_slots
    (w : World V)
    (t : Ticket)
    (v : V) :
    (w.resolve t v).slots =
      (w.modifySlot t (·.resolve v)).slots := by
  unfold resolve
  split
  · next hSlot =>
      rw [modifySlot_eq_self]
      intro slot hSome
      rw [hSlot] at hSome
      cases hSome
  · dsimp only
    split
    · rfl
    · exact abandon_slots _ _

/- A one-shot that nobody has used is filled. -/
theorem getElem?_resolve_of_new
    {carries : Option Side}
    (v : V)
    (hSlot : w.slots[t]? = some ⟨.new, carries⟩) :
    (w.resolve t v).slots[t]? =
      some ⟨⟨some v, false, true⟩, carries⟩ := by
  rw [resolve_slots]
  simp [modifySlot, hSlot, Oneshot.resolve, Oneshot.queue,
    Oneshot.new, Oneshot.dropResolver]

@[simp] theorem resolve_threads
    (w : World V)
    (t : Ticket)
    (v : V) :
    (w.resolve t v).threads = w.threads := by
  unfold resolve
  split
  · rfl
  · dsimp only
    split
    · rfl
    · rw [abandon_threads]
      rfl

@[simp] theorem dropPending_length
    (w : World V)
    (t : Ticket) :
    (w.dropPending t).slots.length = w.slots.length := by
  unfold dropPending
  split
  · rfl
  · dsimp only
    split
    · rw [abandon_slots]
      exact List.length_modify ..
    · exact List.length_modify ..

@[simp] theorem dropPending_threads
    (w : World V)
    (t : Ticket) :
    (w.dropPending t).threads = w.threads := by
  unfold dropPending
  split
  · rfl
  · dsimp only
    split
    · rw [abandon_threads]
      rfl
    · rfl

/- A look into a one-shot that nobody has used finds nothing. -/
theorem poll_of_new
    {carries : Option Side}
    (hSlot : w.slots[t]? = some ⟨.new, carries⟩) :
    w.poll t = (.pending, w) := by
  unfold poll
  rw [hSlot]
  dsimp only
  rw [modifySlot_eq_self]
  · rfl
  · intro slot hSome
    rw [hSlot] at hSome
    cases hSome
    rfl

/- One into a one-shot with a value takes the value. -/
theorem poll_of_filled
    {v : V}
    {hasResolver hasPending : Bool}
    {carries : Option Side}
    (hSlot : w.slots[t]? =
      some ⟨⟨some v, hasResolver, hasPending⟩, carries⟩) :
    w.poll t = (.ready v, w.modifySlot t fun o => o.poll.2) := by
  unfold poll
  rw [hSlot]
  rfl

/- The same for a look that is the move of the main thread. -/
theorem startMove_poll_of_new
    {carries : Option Side}
    (hSlot : w.slots[t]? = some ⟨.new, carries⟩) :
    w.startMove (.poll t) = (.inl Settled.pending, w) := by
  unfold startMove
  dsimp only
  rw [poll_of_new hSlot]

theorem startMove_poll_of_filled
    {v : V}
    {hasResolver hasPending : Bool}
    {carries : Option Side}
    (hSlot : w.slots[t]? =
      some ⟨⟨some v, hasResolver, hasPending⟩, carries⟩) :
    w.startMove (.poll t) =
      (.inl (Settled.ready v),
        w.modifySlot t fun o => o.poll.2) := by
  unfold startMove
  dsimp only
  rw [poll_of_filled hSlot]

/- Who waits for a value that is not there waits or gives up. -/
theorem resumeMove_wait_of_pending
    {w' : World V}
    {d : Duration}
    (limit : Option Instant)
    (hPoll : w.poll t = (.pending, w')) :
    w.resumeMove (.wait t d) (.oneshot limit) =
        (.inl .pending, w') ∨
      w.resumeMove (.wait t d) (.oneshot limit) =
        (.inr (.oneshot limit), w') := by
  unfold resumeMove
  dsimp only
  rw [hPoll]
  cases limit with
  | none => exact .inr rfl
  | some moment =>
      by_cases hDue : moment ≤ w'.clock
      · exact .inl (if_pos hDue)
      · exact .inr (if_neg hDue)

/- Who waits for one that will not come learns that. -/
theorem resumeMove_wait_of_abandoned
    {w' : World V}
    {d : Duration}
    (limit : Option Instant)
    (hPoll : w.poll t = (.abandoned, w')) :
    w.resumeMove (.wait t d) (.oneshot limit) =
      (.inl .abandoned, w') := by
  unfold resumeMove
  dsimp only
  rw [hPoll]

/- Who waits for one that is there has it. -/
theorem resumeMove_wait_of_ready
    {v : V}
    {w' : World V}
    {d : Duration}
    (limit : Option Instant)
    (hPoll : w.poll t = (.ready v, w')) :
    w.resumeMove (.wait t d) (.oneshot limit) =
      (.inl (.ready v), w') := by
  unfold resumeMove
  dsimp only
  rw [hPoll]

end World

namespace Bench

variable {κ : Codec} {θ : Tls.Provider} {ε α : Type}
variable {log : List (Event κ θ ε α)} {w w' : World (Report κ θ)}
variable {t : Ticket} {report : Report κ θ}

------------------------------------------------------------
-- Reports in the log
------------------------------------------------------------

@[simp] theorem reports_append
    (t : Ticket)
    (log more : List (Event κ θ ε α)) :
    reports t (log ++ more) = reports t log ++ reports t more :=
  List.filterMap_append

@[simp] theorem reports_spawned
    (t u : Ticket)
    (p : Routine threadInterface (Option (Report κ θ))) :
    reports t [(.spawned u p : Event κ θ ε α)] = [] :=
  rfl

@[simp] theorem reports_called
    (t : Ticket)
    (call : EngineCall κ θ ε α)
    (before : Engine κ θ)
    (result : call.Result)
    (after : Engine κ θ) :
    reports t [(.called call before result after)] = [] :=
  rfl

@[simp] theorem reports_resolved
    (t u : Ticket)
    (report : Report κ θ) :
    reports t [(.resolved u report : Event κ θ ε α)] =
      if u = t then [report] else [] := by
  unfold reports
  split <;> simp_all

/- A run that is not mentioned has not reported. -/
theorem reports_eq_nil_of_not_mentions
    (hFresh : ∀ event ∈ log, ¬ Event.mentions t event) :
    reports t log = [] := by
  apply List.filterMap_eq_nil_iff.mpr
  intro event hMember
  cases event with
  | spawned u p => rfl
  | resolved u report => exact if_neg (hFresh _ hMember)
  | called call before result after => rfl

------------------------------------------------------------
-- The books
------------------------------------------------------------

/-
  What ties the threads of a world to the log.
-/
structure Books
    (log : List (Event κ θ ε α))
    (w : World (Report κ θ)) : Prop where
  alone : w.threads.length ≤ 1
  runner : ∀ thread ∈ w.threads,
    reports thread.ticket log = [] ∧
      ∃ s script,
        .spawned thread.ticket (Engine.runner s script) ∈ log ∧
          ∀ answer, thread.status.Gives answer →
            (Engine.runner s script).Gives answer
  spawned : ∀ u p, .spawned u p ∈ log →
    (∃ thread ∈ w.threads, thread.ticket = u) ∨
      ∃ report, reports u log = [report] ∧ p.Gives (some report)
  spawned_eq : ∀ u p q,
    .spawned u p ∈ log → .spawned u q ∈ log → p = q
  reports_le : ∀ u, (reports u log).length ≤ 1
  mentions : ∀ event ∈ log, ∀ u,
    Event.mentions u event → u < w.slots.length

/- A thread at a place is the only one. -/
theorem Books.threads_eq
    {i : Nat}
    {thread : Thread (Report κ θ)}
    (hBooks : Books log w)
    (hThread : w.threads[i]? = some thread) :
    i = 0 ∧ w.threads = [thread] := by
  have hAlone := hBooks.alone
  rcases hThreads : w.threads with _ | ⟨first, _ | ⟨second, rest⟩⟩
  · rw [hThreads] at hThread
    cases hThread
  · rw [hThreads] at hThread
    cases i with
    | zero =>
        cases hThread
        exact ⟨rfl, rfl⟩
    | succ i => cases hThread
  · rw [hThreads] at hAlone
    simp only [List.length_cons] at hAlone
    omega

/- A thread does not end without a report, as no run does. -/
theorem Books.not_gives_none
    {thread : Thread (Report κ θ)}
    (hBooks : Books log w)
    (hThread : thread ∈ w.threads) :
    ¬ thread.status.Gives none := by
  intro hGives
  rcases hBooks.runner thread hThread with
    ⟨-, s, script, -, hScript⟩
  rcases Engine.report_of_gives_runner (hScript _ hGives) with
    ⟨r, s', -, hNone⟩
  cases hNone

/- The books do not care for what is in the one-shots. -/
theorem Books.of_threads_eq
    (hBooks : Books log w)
    (hThreads : w'.threads = w.threads)
    (hLength : w.slots.length ≤ w'.slots.length) :
    Books log w' where
  alone := hThreads ▸ hBooks.alone
  runner := hThreads ▸ hBooks.runner
  spawned := hThreads ▸ hBooks.spawned
  spawned_eq := hBooks.spawned_eq
  reports_le := hBooks.reports_le
  mentions event hMember u hMentions :=
    Nat.lt_of_lt_of_le
      (hBooks.mentions event hMember u hMentions) hLength

/- A first report is noted when the thread for it is gone. -/
theorem Books.resolved
    (hBooks : Books log w)
    (hReports : reports t log = [])
    (hGives : ∀ p, .spawned t p ∈ log → p.Gives (some report))
    (hTicket : t < w.slots.length)
    (hOthers : ∀ thread ∈ w.threads, thread.ticket = t)
    (hThreads : w'.threads = [])
    (hLength : w'.slots.length = w.slots.length) :
    Books (log ++ [.resolved t report]) w' := by
  constructor
  · rw [hThreads]
    exact Nat.zero_le 1
  · rw [hThreads]
    exact nofun
  · intro u p hMember
    right
    have hSpawned : .spawned u p ∈ log := by simpa using hMember
    by_cases hRun : t = u
    · subst hRun
      exact ⟨report, by simp [hReports], hGives p hSpawned⟩
    · rcases hBooks.spawned u p hSpawned with
        ⟨thread, hThread, hOther⟩ | ⟨earlier, hEarlier, hEnd⟩
      · exact absurd ((hOthers thread hThread).symm.trans hOther)
          hRun
      · exact ⟨earlier, by simp [hEarlier, hRun], hEnd⟩
  · intro u p q hFirst hSecond
    exact hBooks.spawned_eq u p q
      (by simpa using hFirst) (by simpa using hSecond)
  · intro u
    by_cases hRun : t = u
    · subst hRun
      simp [hReports]
    · simp [hRun, hBooks.reports_le u]
  · rw [hLength, List.forall_mem_append,
      List.forall_mem_singleton]
    refine ⟨hBooks.mentions, ?_⟩
    rintro u rfl
    exact hTicket

/- A first thread is noted with the script that it carries out. -/
theorem Books.spawns
    {s : Surrogate κ θ}
    {script : Script κ θ}
    (hBooks : Books log w)
    (hFresh : ∀ event ∈ log, ¬ Event.mentions t event)
    (hTicket : t < w.slots.length)
    (hNobody : w.threads = [])
    (hThreads : w'.threads =
      [⟨t, .ready (Engine.runner s script)⟩])
    (hLength : w'.slots.length = w.slots.length) :
    Books (log ++ [.spawned t (Engine.runner s script)]) w' := by
  have hNew : ∀ p, (.spawned t p : Event κ θ ε α) ∉ log :=
    fun p hMember => hFresh _ hMember rfl
  constructor
  · rw [hThreads]
    exact Nat.le_refl 1
  · rw [hThreads]
    intro thread hThread
    cases List.mem_singleton.mp hThread
    refine ⟨?_, s, script, by simp, fun answer => id⟩
    simp [reports_eq_nil_of_not_mentions hFresh]
  · rw [hThreads]
    intro u p hMember
    rcases List.mem_append.mp hMember with hMember | hMember
    · right
      rcases hBooks.spawned u p hMember with
        ⟨thread, hThread, -⟩ | ⟨earlier, hEarlier, hEnd⟩
      · rw [hNobody] at hThread
        cases hThread
      · exact ⟨earlier, by simp [hEarlier], hEnd⟩
    · cases List.mem_singleton.mp hMember
      exact .inl ⟨_, List.mem_singleton_self _, rfl⟩
  · intro u p q hFirst hSecond
    simp only [List.mem_append, List.mem_singleton,
      Event.spawned.injEq] at hFirst hSecond
    rcases hFirst with hFirst | ⟨rfl, rfl⟩
    · rcases hSecond with hSecond | ⟨rfl, -⟩
      · exact hBooks.spawned_eq u p q hFirst hSecond
      · exact absurd hFirst (hNew p)
    · rcases hSecond with hSecond | ⟨-, rfl⟩
      · exact absurd hSecond (hNew q)
      · rfl
  · intro u
    simp [hBooks.reports_le u]
  · rw [hLength, List.forall_mem_append,
      List.forall_mem_singleton]
    refine ⟨hBooks.mentions, ?_⟩
    rintro u rfl
    exact hTicket

/- A call that is over is noted. -/
theorem Books.called
    {call : EngineCall κ θ ε α}
    {before after : Engine κ θ}
    {result : call.Result}
    (hBooks : Books log w)
    (hMentions : ∀ u,
      Event.mentions u (.called call before result after) →
        u < w.slots.length) :
    Books (log ++ [.called call before result after]) w := by
  constructor
  · exact hBooks.alone
  · intro thread hThread
    rcases hBooks.runner thread hThread with
      ⟨hReports, s, script, hSpawned, hScript⟩
    refine ⟨by simp [hReports], s, script, ?_, hScript⟩
    exact List.mem_append_left _ hSpawned
  · intro u p hMember
    simpa using hBooks.spawned u p (by simpa using hMember)
  · intro u p q hFirst hSecond
    exact hBooks.spawned_eq u p q
      (by simpa using hFirst) (by simpa using hSecond)
  · intro u
    simp [hBooks.reports_le u]
  · rw [List.forall_mem_append, List.forall_mem_singleton]
    exact ⟨hBooks.mentions, hMentions⟩

------------------------------------------------------------
-- Steps of a thread
------------------------------------------------------------

/-
  A step of a thread, noted in the log, keeps the books: what it
  does is what its script does.
-/
theorem Books.stepped
    {i : Nat}
    {outcome : Option (Ticket × Report κ θ) × World (Report κ θ)}
    (hBooks : Books log w)
    (hStepped : World.Stepped w i outcome) :
    Books (log ++ resolutions outcome.1) outcome.2 := by
  cases hStepped with
  | rests =>
      rw [resolutions, List.append_nil]
      exact hBooks
  | vanishes thread hThread hGives =>
      exact absurd hGives
        (hBooks.not_gives_none (List.mem_of_getElem? hThread))
  | goesOn thread pipe status hThread hGives =>
      rcases hBooks.threads_eq hThread with ⟨rfl, hThreads⟩
      rcases hBooks.runner thread (List.mem_of_getElem? hThread)
        with ⟨hReports, s, script, hSpawned, hScript⟩
      rw [resolutions, List.append_nil]
      have hAfter :
          ({ w with pipe := pipe }.setThread 0
            ⟨thread.ticket, status⟩).threads =
            [⟨thread.ticket, status⟩] := by
        simp [World.setThread, hThreads]
      constructor
      · rw [hAfter]
        exact Nat.le_refl 1
      · rw [hAfter]
        intro other hOther
        cases List.mem_singleton.mp hOther
        exact ⟨hReports, s, script, hSpawned,
          fun answer hAnswer =>
            hScript answer (hGives answer hAnswer)⟩
      · rw [hAfter]
        intro u p hMember
        rcases hBooks.spawned u p hMember with
          ⟨other, hOther, rfl⟩ | hReported
        · rw [hThreads] at hOther
          cases List.mem_singleton.mp hOther
          exact .inl ⟨_, List.mem_singleton_self _, rfl⟩
        · exact .inr hReported
      · exact hBooks.spawned_eq
      · exact hBooks.reports_le
      · exact hBooks.mentions
  | reports thread report hThread hGives =>
      rcases hBooks.threads_eq hThread with ⟨rfl, hThreads⟩
      rcases hBooks.runner thread (List.mem_of_getElem? hThread)
        with ⟨hReports, s, script, hSpawned, hScript⟩
      apply hBooks.resolved hReports
      · intro p hMember
        rw [hBooks.spawned_eq _ _ _ hMember hSpawned]
        exact hScript _ hGives
      · exact hBooks.mentions _ hSpawned _ rfl
      · rw [hThreads]
        intro other hOther
        rw [List.mem_singleton.mp hOther]
      · simp [World.removeThread, hThreads]
      · simp [World.removeThread, World.modifySlot]

/-
  A run that is out: its thread is at work, and nothing is in its
  one-shot; or its thread is gone, and its report is there.
-/
inductive Out
    (log : List (Event κ θ ε α))
    (t : Ticket)
    (w : World (Report κ θ)) : Prop where
  | lent
      (status : Status (Report κ θ))
      (hThreads : w.threads = [⟨t, status⟩])
      (hSlot : w.slots[t]? = some ⟨.new, some Engine.seat⟩)
      (hReports : reports t log = [])
  | left
      (report : Report κ θ)
      (hThreads : w.threads = [])
      (hSlot : w.slots[t]? =
        some ⟨⟨some report, false, true⟩, some Engine.seat⟩)
      (hReports : reports t log = [report])

/- A run that is out stays so until somebody takes its report. -/
theorem Out.stepped
    {i : Nat}
    {outcome : Option (Ticket × Report κ θ) × World (Report κ θ)}
    (hBooks : Books log w)
    (hOut : Out log t w)
    (hStepped : World.Stepped w i outcome) :
    Out (log ++ resolutions outcome.1) t outcome.2 := by
  cases hStepped with
  | rests =>
      rw [resolutions, List.append_nil]
      exact hOut
  | vanishes thread hThread hGives =>
      exact absurd hGives
        (hBooks.not_gives_none (List.mem_of_getElem? hThread))
  | goesOn thread pipe status hThread hGives =>
      rcases hBooks.threads_eq hThread with ⟨rfl, hThreads⟩
      rw [resolutions, List.append_nil]
      cases hOut with
      | lent earlier hLent hSlot hReports =>
          cases hThreads.symm.trans hLent
          refine .lent status ?_ hSlot hReports
          simp [World.setThread, hThreads]
      | left report hLeft hSlot hReports =>
          cases hThreads.symm.trans hLeft
  | reports thread report hThread hGives =>
      rcases hBooks.threads_eq hThread with ⟨rfl, hThreads⟩
      cases hOut with
      | lent earlier hLent hSlot hReports =>
          cases hThreads.symm.trans hLent
          apply Out.left report
          · simp [World.removeThread, hThreads]
          · exact World.getElem?_resolve_of_new report hSlot
          · simp [hReports, resolutions]
      | left report hLeft hSlot hReports =>
          cases hThreads.symm.trans hLeft

end Bench

end Parley
