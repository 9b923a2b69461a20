import Parley.Script.Basic
/-
  This file gives controls that are written down as a list of
  calls on the surrogate.

  Key definitions include:
    * `ScriptCall`
    * `ScriptCall.take`
    * `Control.ofCalls`
-/

namespace Parley

variable {κ : Codec} {θ : Tls.Provider}

/-
  A call on the surrogate, a failure that is just returned, or a
  breakdown.
-/
inductive ScriptCall where
  | writeLine (line : Bytes)
  | flush
  | readLine
  | close (flushFirst : Bool)
  | deflate (level : Nat)
  | setTimeout (timeout : Option Duration)
  | fail (error : SurrogateError)
  | breakDown (message : Option String)

namespace ScriptCall

/- How a control ends that is a single call with this result. -/
def endOf
    {α : Type} : Except SurrogateError α → ControlEnd
  | .ok _ => .ok
  | .error e => .failed e

/- Make the call. The line that a read finds is not used. -/
def take
    (s : Surrogate κ θ) :
    ScriptCall →
    Routine endpointInterface (ControlEnd × Surrogate κ θ)
  | writeLine line =>
    (s.writeLine line).bind fun (r, s) => .done (endOf r, s)
  | flush => s.flush.bind fun (r, s) => .done (endOf r, s)
  | readLine => s.readLine.bind fun (r, s) => .done (endOf r, s)
  | close first =>
    (s.close first).bind fun (r, s) => .done (endOf r, s)
  | deflate level =>
    (s.enableDeflate level).bind fun (r, s) => .done (endOf r, s)
  | setTimeout d =>
    (Endpoint.call (.setTimeout d)).bind fun () => .done (.ok, s)
  | fail e => .done (.failed e, s)
  | breakDown message => .done (.brokeDown message, s)

/-
  Make calls in order, up to the first that does not end well.
-/
def takeAll :
    List ScriptCall → Surrogate κ θ →
    Routine endpointInterface (ControlEnd × Surrogate κ θ)
  | [], s => .done (.ok, s)
  | c :: rest, s =>
    (c.take s).bind fun
      | (.ok, s) => takeAll rest s
      | stop => .done stop

end ScriptCall

/- A control that makes a list of calls. -/
def Control.ofCalls
    (name : String)
    (calls : List ScriptCall) : Control κ θ where
  name := name
  body := ScriptCall.takeAll calls

end Parley
