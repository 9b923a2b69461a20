import Parley.Surrogate
import Parley.Tls.Stream
/-
  This file gives scripts: what the surrogate is to send, what
  it is to expect, and what else it is to do, in order.

  Key definitions include:
    * `ControlEnd`
    * `Control`
    * `Control.startTls`
    * `Control.deflate`
    * `Control.close`
    * `Action`
    * `Script`
-/

namespace Parley

variable {κ : Codec} {θ : Tls.Provider}

------------------------------------------------------------
-- Controls
------------------------------------------------------------

/-
  How a control ends: well, with a failure of the surrogate, or
  by breaking down, with a text if it left one.
-/
inductive ControlEnd where
  | ok
  | failed (error : SurrogateError)
  | brokeDown (message : Option String)

/-
  A named piece of work on the surrogate. Where no provider of
  sessions is named, here and below, they hide nothing.
-/
structure Control
    (κ : Codec)
    (θ : Tls.Provider := Tls.transparent) where
  name : String
  body :
    Surrogate κ θ →
      Routine endpointInterface (ControlEnd × Surrogate κ θ)

namespace Control

/- A control that is a single call on the surrogate. -/
def ofRun
    (name : String)
    (run : Surrogate κ θ → Surrogate.Run κ θ Unit) : Control κ θ where
  name := name
  body s :=
    (run s).bind fun
      | (.ok (), s) => .done (.ok, s)
      | (.error e, s) => .done (.failed e, s)

/- Encrypt the link. -/
def startTls : Control κ θ :=
  ofRun "STARTTLS" Surrogate.enableTls

/- Compress the traffic. -/
def deflate
    (level : Nat) : Control κ θ :=
  ofRun "DEFLATE" fun s => s.enableDeflate level

/- Send what is written and close. -/
def close : Control κ θ :=
  ofRun "CLOSE" fun s => s.close true

/- The text that shows a control. -/
def text
    (c : Control κ θ) : String :=
  "Control(" ++ Text.quote c.name ++ ")"

end Control

------------------------------------------------------------
-- Actions and scripts
------------------------------------------------------------

/-
  One step of a script. Lines are without what ends them; raw
  bytes are taken as they are.
-/
inductive Action
    (κ : Codec)
    (θ : Tls.Provider := Tls.transparent) where
  | sendLine (line : String)
  | recvLine (line : String)
  | sendRaw (bytes : Bytes)
  | recvRaw (bytes : Bytes)
  | control (c : Control κ θ)

/- Actions in the order in which they are carried out. -/
structure Script
    (κ : Codec)
    (θ : Tls.Provider := Tls.transparent) where
  actions : List (Action κ θ) := []

namespace Script

/- How many actions there are. -/
def length
    (s : Script κ θ) : Nat :=
  s.actions.length

/- Whether there are none. -/
def isEmpty
    (s : Script κ θ) : Bool :=
  s.actions.isEmpty

/- Add an action at the end. -/
def push
    (s : Script κ θ)
    (a : Action κ θ) : Script κ θ :=
  ⟨s.actions ++ [a]⟩

/- The same actions in the opposite order. -/
def reverse
    (s : Script κ θ) : Script κ θ :=
  ⟨s.actions.reverse⟩

/- Send a line at the end. -/
def sendLine
    (s : Script κ θ)
    (line : String) : Script κ θ :=
  s.push (.sendLine line)

/- Expect a line at the end. -/
def recvLine
    (s : Script κ θ)
    (line : String) : Script κ θ :=
  s.push (.recvLine line)

/- Send bytes at the end. -/
def sendRaw
    (s : Script κ θ)
    (bytes : Bytes) : Script κ θ :=
  s.push (.sendRaw bytes)

/- Expect bytes at the end. -/
def recvRaw
    (s : Script κ θ)
    (bytes : Bytes) : Script κ θ :=
  s.push (.recvRaw bytes)

/- Carry out a control at the end. -/
def control
    (s : Script κ θ)
    (c : Control κ θ) : Script κ θ :=
  s.push (.control c)

end Script

end Parley
