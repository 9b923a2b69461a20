import Parley.Failure
import Parley.Text.Quoted
/-
  This file gives the reasons for which a script does not come
  to its end.

  Key definitions include:
    * `Flaw`
    * `ScriptError`
    * `ScriptError.index?`
    * `ScriptError.message`
    * `ScriptError.cause?`
    * `Outcome`
-/

namespace Parley

------------------------------------------------------------
-- Reasons
------------------------------------------------------------

/- What is wrong with an entry of a script. -/
inductive Flaw where
  | unmarked (text : String)
  | orphan
  | other (reason : String)
deriving DecidableEq, Repr

/-
  Why a script fails. All but a fault name the entry, counting
  from 1: it could not be sent, something else arrived, nothing
  arrived, its control failed, or it makes no sense. A fault is
  a breakdown inside the run.
-/
inductive ScriptError where
  | write (index : Nat) (sent : String) (source : SurrogateError)
  | mismatch (index : Nat) (expected actual : String)
  | read (index : Nat) (expected : String) (source : SurrogateError)
  | control (index : Nat) (name : String) (source : SurrogateError)
  | malformed (index : Nat) (flaw : Flaw)
  | fault (message : String)
deriving DecidableEq, Repr

------------------------------------------------------------
-- Texts
------------------------------------------------------------

/- The mark before a line that is sent. -/
def sendMark : String :=
  "S: "

/- The mark before a line that is expected. -/
def recvMark : String :=
  "C: "

/- The text for what is wrong with an entry. -/
def Flaw.message : Flaw → String
  | unmarked text =>
    Text.quote text ++ " must be prefixed with " ++
      Text.quote sendMark ++ " or " ++
      Text.quote recvMark
  | orphan =>
    "raw bytes must follow an " ++ Text.quote sendMark ++
      " or " ++ Text.quote recvMark ++ " line"
  | other reason => reason

namespace ScriptError

/- The entry that failed. -/
def index? : ScriptError → Option Nat
  | write index _ _ => some index
  | mismatch index _ _ => some index
  | read index _ _ => some index
  | control index _ _ => some index
  | malformed index _ => some index
  | fault _ => none

/- The failure of the surrogate behind this one. -/
def source? : ScriptError → Option SurrogateError
  | write _ _ source => some source
  | read _ _ source => some source
  | control _ _ source => some source
  | _ => none

/- The text of the failure behind this one, if there is one. -/
def cause?
    (e : ScriptError) : Option String :=
  e.source?.map SurrogateError.message

/- How an entry is named. -/
def entry
    (index : Nat) : String :=
  "[#" ++ toString index ++ "] "

/- The text shown for a failed script. -/
def message : ScriptError → String
  | write index sent source =>
    entry index ++ Text.quote sent ++
      " write error: " ++ source.message
  | mismatch index expected actual =>
    entry index ++ "expected " ++ Text.quote expected ++
      "; got " ++ Text.quote actual
  | read index expected source =>
    entry index ++ "expected " ++ Text.quote expected ++
      "; read error: " ++ source.message
  | control index name source =>
    entry index ++ "control " ++ name ++
      " failed: " ++ source.message
  | malformed index flaw =>
    entry index ++ "malformed script entry: " ++ flaw.message
  | fault message => "script run faulted: " ++ message

end ScriptError

------------------------------------------------------------
-- Outcomes
------------------------------------------------------------

/- How a run of a script ended. -/
inductive Outcome where
  | succeeded
  | failed (error : ScriptError)
deriving DecidableEq, Repr

namespace Outcome

/- The outcome of a result. -/
def ofResult : Except ScriptError Unit → Outcome
  | .ok () => succeeded
  | .error e => failed e

/- The result of an outcome. -/
def toResult : Outcome → Except ScriptError Unit
  | succeeded => .ok ()
  | failed e => .error e

/- Whether the script came to its end. -/
def isSuccess : Outcome → Bool
  | succeeded => true
  | failed _ => false

/- The error, if there is one. -/
def error? : Outcome → Option ScriptError
  | succeeded => none
  | failed e => some e

@[simp] theorem toResult_ofResult
    (r : Except ScriptError Unit) :
    (ofResult r).toResult = r := by
  cases r <;> rfl

@[simp] theorem ofResult_toResult
    (o : Outcome) :
    ofResult o.toResult = o := by
  cases o <;> rfl

end Outcome

end Parley
