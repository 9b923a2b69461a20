/-
  This file gives spans of time, points in time, and the
  timer that turns a deadline and a relative timeout into one
  moment of expiry.

  Key definitions include:
    * `Duration`
    * `Duration.text`
    * `Instant`
    * `Instant.after?`
    * `Timer`
    * `Timer.startingAt`
    * `Timer.hasExpired`

  Key theorems include:
    * `Timer.startingAt_none`
    * `Timer.hasExpired_mono`
-/

namespace Parley

------------------------------------------------------------
-- Spans of time
------------------------------------------------------------

/- A span of time, counted in nanoseconds. -/
structure Duration where
  nanos : Nat
deriving DecidableEq, Repr

namespace Duration

/- Nanoseconds in one second. -/
def nanosPerSecond : Nat :=
  1000000000

/- Nanoseconds in one millisecond. -/
def nanosPerMilli : Nat :=
  1000000

/- Nanoseconds in one microsecond. -/
def nanosPerMicro : Nat :=
  1000

/- The empty span. -/
def zero : Duration :=
  ⟨0⟩

/- A span of whole seconds. -/
def ofSeconds
    (n : Nat) : Duration :=
  ⟨n * nanosPerSecond⟩

/- A span of whole milliseconds. -/
def ofMillis
    (n : Nat) : Duration :=
  ⟨n * nanosPerMilli⟩

/- The whole seconds of a span. -/
def seconds
    (d : Duration) : Nat :=
  d.nanos / nanosPerSecond

/- The whole milliseconds of a span. -/
def millis
    (d : Duration) : Nat :=
  d.nanos / nanosPerMilli

/-
  The digits after the point of `rest / unit`, where `unit` is a
  power of ten, with no zero at the end.
-/
def fraction
    (rest unit : Nat) : List Char :=
  let digits := Nat.toDigits 10 (unit + rest)
  ((digits.drop 1).reverse.dropWhile (· == '0')).reverse

/-
  A count of `unit` nanoseconds each, as a decimal with a point
  only where needed.
-/
def decimal
    (nanos unit : Nat) : String :=
  let whole := toString (nanos / unit)
  match fraction (nanos % unit) unit with
  | [] => whole
  | digits => whole ++ "." ++ String.ofList digits

/-
  The largest unit of which the span holds at least one, and the
  span counted in it.
-/
def text
    (d : Duration) : String :=
  if nanosPerSecond ≤ d.nanos then decimal d.nanos nanosPerSecond ++ "s"
  else if nanosPerMilli ≤ d.nanos then decimal d.nanos nanosPerMilli ++ "ms"
  else if nanosPerMicro ≤ d.nanos then decimal d.nanos nanosPerMicro ++ "µs"
  else toString d.nanos ++ "ns"

end Duration

------------------------------------------------------------
-- Points in time
------------------------------------------------------------

/-
  A point in time: nanoseconds after an agreed moment, negative
  before it.
-/
abbrev Instant :=
  Int

namespace Instant

/-
  Instants reach this many seconds after the agreed moment and
  no further.
-/
def secondsLimit : Nat :=
  Nat.pow 2 63

/-
  The instant that lies `d` after `start`, if instants reach
  that far.
-/
def after?
    (start : Instant)
    (d : Duration) : Option Instant :=
  let sum : Int := start + d.nanos
  if sum < secondsLimit * Duration.nanosPerSecond then some sum else none

end Instant

------------------------------------------------------------
-- Timers
------------------------------------------------------------

/-
  The one moment at which a blocking call gives up, if there is
  one.
-/
structure Timer where
  expiry : Option Instant := none
deriving DecidableEq, Repr

namespace Timer

/-
  The earlier of the deadline and `start + timeout`. A timeout
  that reaches beyond the last instant counts as none.
-/
def startingAt
    (start : Instant)
    (deadline : Option Instant)
    (timeout : Option Duration) : Timer :=
  match deadline, timeout.bind start.after? with
  | some d, some r => ⟨some (min d r)⟩
  | some d, none => ⟨some d⟩
  | none, r => ⟨r⟩

/- The expiry is reached at its own instant. -/
def hasExpired
    (timer : Timer)
    (now : Instant) : Bool :=
  match timer.expiry with
  | some expiry => decide (expiry ≤ now)
  | none => false

/- With neither a deadline nor a timeout there is no expiry. -/
theorem startingAt_none
    (start : Instant) :
    startingAt start none none = {} :=
  rfl

/- Once expired, always expired. -/
theorem hasExpired_mono
    {timer : Timer}
    {t u : Instant}
    (htu : t ≤ u)
    (h : timer.hasExpired t = true) :
    timer.hasExpired u = true := by
  unfold hasExpired at *
  cases hx : timer.expiry with
  | none => simp [hx] at h
  | some e =>
    simp only [hx, decide_eq_true_eq] at *
    exact Int.le_trans h htu

end Timer

end Parley
