import Parley.Proofs.Engine.Course
import Parley.Deflate.Codec
import Parley.Tls.Stream
/-
  This file shows that it cannot be told from the link whether a
  script is run as a whole or in two runs on the same engine.
  What the first run has read ahead, has not sent yet, or has
  put between itself and the link comes back with its report,
  and the second run begins with it.

  Key definitions include:
    * `Bench.Session`
    * `Bench.Comes`
    * `Bench.Settles`

  Key theorems include:
    * `Bench.Comes.reaches`
    * `Bench.settles_of_ends`
    * `Bench.split_spec`
-/

namespace Parley

namespace Bench

variable {κ : Codec} {θ : Tls.Provider} {ε α : Type}
variable {link : FixedLink} {s s' : Surrogate κ θ}
variable {past : List (Turn κ θ ε α)} {report : Report κ θ}
variable {order : Order κ θ} {script : Script κ θ}
variable {outcome : Outcome} {standing : Standing κ θ}
variable {t : Ticket} {held held' : List Exchange}

------------------------------------------------------------
-- Calls over a fixed link
------------------------------------------------------------

/-
  A run of a new bench over a link, after which these calls are
  over and so much was exchanged.
-/
structure Session
    (link : FixedLink)
    (s : Surrogate κ θ)
    (past : List (Turn κ θ ε α))
    (log : List (Event κ θ ε α))
    (held : List Exchange)
    (b : Bench κ θ ε α) : Prop where
  recorded : ∃ pipe joinTimeout,
    Recorded (new pipe s joinTimeout) log held b
  follows : link.Follows [] held
  past : turns log = past

/-
  After these calls so much was exchanged when the run that the
  engine waits for had reported.
-/
def Comes
    (link : FixedLink)
    (s : Surrogate κ θ)
    (past : List (Turn κ θ ε α))
    (report : Report κ θ)
    (held : List Exchange) : Prop :=
  ∃ log b t, Session link s past log held b ∧
    b.engine.state = .running t ∧ reports t log = [report]

/- Then the surrogate rests, as it was reported. -/
theorem Comes.reaches
    (hComes : Comes link s past report held) :
    Reaches link (.resting s .succeeded []) past
      (.resting report.surrogate report.outcome held) := by
  rcases hComes with
    ⟨log, b, t, ⟨⟨pipe, joinTimeout, hRecorded⟩, hFollows, rfl⟩,
      hState, hReports⟩
  rcases stands_of_recorded hRecorded hFollows with
    ⟨standing, hReaches, hStands⟩
  cases hStands with
  | resting hThreads hHas =>
      unfold Has at hHas
      rw [hState] at hHas
      cases hReports.symm.trans hHas
      exact hReaches
  | out hThreads hEnds hAwaits =>
      unfold Awaits at hAwaits
      rw [hState] at hAwaits
      rcases hAwaits with ⟨rfl, hNone⟩
      cases hReports.symm.trans hNone

------------------------------------------------------------
-- Where single calls lead
------------------------------------------------------------

/- After a start the surrogate is out. -/
theorem Reaches.of_begun
    (hParse : order.parse = .ok script)
    (hReaches : Reaches link (.resting s outcome held)
      (begun (ε := ε) (α := α) order :: past) standing) :
    ∃ t, Reaches link (.out t s script held) past standing := by
  cases hReaches with
  | turn hTakes hRest =>
      cases hTakes with
      | started t hParse' =>
          cases hParse.symm.trans hParse'
          exact ⟨t, hRest⟩
      | malformed hError => cases hParse.symm.trans hError
      | other hBegun hMet => exact absurd rfl (hBegun order)

/- A join that succeeds has met a run that has. -/
theorem Reaches.of_met
    {client : Except ε α}
    {value : α}
    (hReaches : Reaches link (.out t s script held)
      (met client value :: past) standing) :
    ∃ s' held',
      (Engine.runner s script).Ends link.environment held
        (some ⟨s', .succeeded⟩) held' ∧
      Reaches link (.resting s' .succeeded held') past
        standing := by
  cases hReaches with
  | turn hTakes hRest =>
      cases hTakes with
      | other hBegun hMet => exact absurd rfl (hMet client value)
  | @reported _ _ _ report _ held' _ _ hEnds hOn =>
      rcases report with ⟨s', outcome⟩
      cases hOn with
      | turn hTakes hRest =>
          cases hTakes with
          | joined => exact ⟨s', held', hEnds, hRest⟩
          | other hBegun hMet =>
              exact absurd rfl (hMet client value)

/- A surrogate that is back has come to the end of its script. -/
theorem Reaches.ends
    (hReaches : Reaches (ε := ε) (α := α) link
      (.out t s script held) [] (.resting s' outcome held')) :
    (Engine.runner s script).Ends link.environment held
      (some ⟨s', outcome⟩) held' := by
  cases hReaches with
  | reported hEnds hRest =>
      cases hRest
      exact hEnds

------------------------------------------------------------
-- One run and two
------------------------------------------------------------

/-
  What comes of a single run: the script comes to its end over
  the link with this report, so much being exchanged. Whenever a
  bench that runs it has the report, it is this one, with the
  same exchanged; and before, nothing else is.
-/
structure Settles
    (link : FixedLink)
    (s : Surrogate κ θ)
    (order : Order κ θ)
    (script : Script κ θ)
    (ε α : Type)
    (report : Report κ θ)
    (held : List Exchange) : Prop where
  ends : (Engine.runner s script).Ends link.environment []
    (some report) held
  comes : ∀ report' held',
    Comes (ε := ε) (α := α) link s [begun order] report' held' →
      report' = report ∧ held' = held
  on_the_way : ∀ log held' (b : Bench κ θ ε α),
    Session link s [begun order] log held' b → held' <+: held

/- How the script ends over the link says it all. -/
theorem settles_of_ends
    (hParse : order.parse = .ok script)
    (hEnds : (Engine.runner s script).Ends link.environment []
      (some report) held) :
    Settles link s order script ε α report held where
  ends := hEnds
  comes := by
    intro report' held' hComes
    rcases hComes.reaches.of_begun hParse with ⟨t, hReaches⟩
    rcases hReaches.ends.unique link.fixed_environment hEnds with
      ⟨hReport, rfl⟩
    cases hReport
    exact ⟨rfl, rfl⟩
  on_the_way := by
    rintro log held' b
      ⟨⟨pipe, joinTimeout, hRecorded⟩, hFollows, hTurns⟩
    rcases stands_of_recorded hRecorded hFollows with
      ⟨standing, hReaches, hStands⟩
    rw [hTurns] at hReaches
    rcases hReaches.of_begun hParse with ⟨t, hOut⟩
    cases hOut with
    | here =>
        cases hStands with
        | out hThreads hRest hAwaits =>
            exact FixedLink.prefix_of_ends
              ((hRest _ _).mpr hEnds)
    | reported hReported hRest =>
        cases hRest
        cases hStands
        rcases hReported.unique link.fixed_environment hEnds with
          ⟨-, rfl⟩
        exact List.prefix_rfl

/-
  A script is run in two parts on the same engine: the first is
  met with success, and then the second is run and reports. Run
  as a whole over the same link, it exchanges the same and
  leaves the same surrogate, and the outcome is that of the
  second part, with its entries counted on. If the first part
  fails, that is also what comes of the whole.
-/
theorem split_spec
    {first second : List (Action κ θ)}
    {order₁ order₂ : Order κ θ}
    (hFirst : order₁.parse = .ok ⟨first⟩)
    (hSecond : order₂.parse = .ok ⟨second⟩)
    (hWhole : order.parse = .ok ⟨first ++ second⟩) :
    (∀ (client : Except ε α) value report held,
      Comes link s
          [begun order₁, met client value, begun order₂]
          report held →
        Settles link s order ⟨first ++ second⟩ ε α
          (report.later first.length) held) ∧
    ∀ s' error held,
      Comes (ε := ε) (α := α) link s [begun order₁]
          ⟨s', .failed error⟩ held →
        Settles link s order ⟨first ++ second⟩ ε α
          ⟨s', .failed error⟩ held := by
  constructor
  · intro client value report held hComes
    rcases hComes.reaches.of_begun hFirst with ⟨t, hReaches⟩
    rcases hReaches.of_met with ⟨s', held', hFirstEnds, hReaches⟩
    rcases hReaches.of_begun hSecond with ⟨u, hReaches⟩
    exact settles_of_ends hWhole
      (Engine.ends_runner_append hFirstEnds hReaches.ends)
  · intro s' error held hComes
    rcases hComes.reaches.of_begun hFirst with ⟨t, hReaches⟩
    exact settles_of_ends hWhole
      (Engine.ends_runner_append_of_failed hReaches.ends)

/- A link that answers every read with two lines, `a` and `b`. -/
def eager
    (_ : List Exchange) : (a : Act) → a.Answer
  | .sleep _ => ()
  | .on _ (.recv _) => .ok [97, 10, 98, 10]
  | .on _ (.send src) => .ok src.length
  | .on _ .now => (0 : Int)
  | .on _ .timeout => none
  | .on _ .isClosed => false
  | .on _ .names => ("server", "client")
  | .on _ .close => ()
  | .on _ .clear => ()
  | .on _ (.setTimeout _) => ()
  | .on _ (.setDeadline _) => ()
  | .on _ (.setReadDeadline _) => ()
  | .on _ (.setWriteDeadline _) => ()

/- A bench on whose pipe the two lines wait. -/
def overlapping : Bench rawDeflate Tls.transparent Unit Nat :=
  new
    { Pipe.pair "client" "server" 4 with
      queues := ⟨.empty 4,
        { Half.empty 4 with buf := some [97, 10, 98, 10] }⟩ }
    (.new [10]) .zero

/- The first line is expected. -/
def headScript : Script rawDeflate Tls.transparent :=
  ⟨[.recvLine "a"]⟩

/- The start of the second is expected, and then something else. -/
def tailScript : Script rawDeflate Tls.transparent :=
  ⟨[.recvRaw [98], .recvRaw [99]]⟩

/- Start a script and let it come to its end. -/
def startAndRun
    (script : Script rawDeflate Tls.transparent) :
    List (Choice rawDeflate Tls.transparent Unit Nat) :=
  [.call (.start (.script script)), .goOn, .goOn] ++
    List.replicate 7 (.runner 0)

/- Both lines are taken in by the first run. -/
def inParts : List (Choice rawDeflate Tls.transparent Unit Nat) :=
  startAndRun headScript ++
    [.call (.join (.ok 7)), .goOn, .goOn] ++
    startAndRun tailScript

theorem split_spec_of_overlapping :
    ∃ s' expected actual,
      Settles eager (.new [10])
        (.script ⟨headScript.actions ++ tailScript.actions⟩)
        ⟨headScript.actions ++ tailScript.actions⟩ Unit Nat
        ⟨s', .failed (.mismatch 3 expected actual)⟩
        [⟨.on .b (.recv 4096), .ok [97, 10, 98, 10]⟩] := by
  have hComes : ∃ s' expected actual,
      Comes eager (.new [10])
        [begun (.script headScript), met (.ok (ε := Unit) 7) 7,
          begun (.script tailScript)]
        ⟨s', .failed (.mismatch 2 expected actual)⟩
        [⟨.on .b (.recv 4096), .ok [97, 10, 98, 10]⟩] :=
    ⟨_, _, _, _, _, 1,
      ⟨⟨_, _, recorded_play inParts overlapping⟩,
        ⟨rfl, trivial⟩, rfl⟩, rfl, rfl⟩
  rcases hComes with ⟨s', expected, actual, hComes⟩
  exact ⟨s', expected, actual,
    (split_spec rfl rfl rfl).1 _ _ _ _ hComes⟩

end Bench

end Parley
