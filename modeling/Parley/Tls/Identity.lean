import Parley.Tls.HostName
import Parley.Time
/-
  This file gives the identity under which a peer opens
  encrypted links: the host that it is issued to and the moment
  at which it ends.

  Key definitions include:
    * `Identity`
    * `IdentityError`
    * `Identity.issue`
-/

namespace Parley.Tls

/- Why no identity is issued. -/
inductive IdentityError where
  | invalidHost (host : String)
  | validity
deriving DecidableEq, Repr

/- The text shown when no identity is issued. -/
def IdentityError.message : IdentityError → String
  | invalidHost host => "`" ++ host ++ "` is not a valid tls server name"
  | validity => "certificate validity window out of range"

/-
  An identity: the host as it was given and as it is read, and
  the two ends of its validity.
-/
structure Identity where
  host : String
  serverName : HostName
  notBefore : Instant
  notAfter : Instant
deriving DecidableEq, Repr

namespace Identity

/-
  The first second of the year 10000, counted from the year
  1970.
-/
def calendarEnd : Nat :=
  253402300800

/-
  Issue an identity that begins now, where moments are counted
  from the year 1970. The host is checked first; the end has to
  be a date with a year of four digits.
-/
def issue
    (now : Instant)
    (host : String)
    (validity : Duration) : Except IdentityError Identity :=
  match HostName.ofString? host with
  | none => .error (.invalidHost host)
  | some name =>
    let ending : Instant := now + validity.nanos
    if ending < calendarEnd * Duration.nanosPerSecond then .ok ⟨host, name, now, ending⟩
    else .error .validity

end Identity

end Parley.Tls
