import Parley.Script.Error
import Parley.Time
/-
  This file gives the reasons for which an engine refuses a
  call or reports a failed conversation.

  Key definitions include:
    * `EngineError`
    * `EngineError.message`
    * `EngineError.surrogate?`
    * `EngineError.client?`
-/

namespace Parley

/-
  Why a call on an engine fails: a run is going on, none was
  started, it did not end in time, it ended but one of the two
  sides failed, no thread could be started, or the surrogate is
  lost. The client's own error travels along where there is one.
-/
inductive EngineError (ε : Type) where
  | runInFlight
  | noActiveRun
  | joinTimeout (timeout : Duration) (client : Option ε)
  | failed (surrogate : Option ScriptError) (client : Option ε)
  | spawn (error : IoError)
  | lost
deriving DecidableEq, Repr

namespace EngineError

variable {ε : Type}

/- The failure of the script. -/
def surrogate? : EngineError ε → Option ScriptError
  | failed surrogate _ => surrogate
  | _ => none

/- The failure of the client. -/
def client? : EngineError ε → Option ε
  | failed _ client => client
  | joinTimeout _ client => client
  | _ => none

/- How the two sides are named in one text. -/
def sides
    (surrogate client : Option String) : List String :=
  (surrogate.map ("(surrogate) " ++ ·)).toList ++ (client.map ("(client) " ++ ·)).toList

/-
  The text shown for an engine error, where `show` gives that of
  a client's error.
-/
def message
    (textOf : ε → String) : EngineError ε → String
  | runInFlight => "a script run is still in flight"
  | noActiveRun => "join called without an active script run"
  | joinTimeout timeout client =>
    "script outcome not delivered within " ++ timeout.text ++
      (client.map fun e => "; (client) " ++ textOf e).getD ""
  | failed surrogate client =>
    "; ".intercalate (sides (surrogate.map ScriptError.message) (client.map textOf))
  | spawn error => "failed to spawn script runner: " ++ error.message
  | lost => "surrogate lost with an unfinished run"

end EngineError

end Parley
