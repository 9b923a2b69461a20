import Parley.Proofs.Dialogue.Plan
import Parley.Proofs.Switch.Layers
/-
  This file gives scripts of lines in the middle of which the
  surrogate begins to compress: right after a line that it
  sends, and right before one that it expects. It also gives
  the pact that such a script comes to: the lines before are
  plain, those after it are encoded.

  The client may begin when it has heard all plain lines of the
  surrogate. The surrogate sends an encoded line only when it
  has read one, so it has heard more than all plain lines of the
  client by then; unless nothing ends a line, and it had to hear
  nothing at all.

  Key definitions include:
    * `Switch.LineAction`
    * `Switch.spoken`
    * `Switch.SwitchScript`
    * `Switch.SwitchScript.pact`

  Key theorems include:
    * `Switch.SwitchScript.not_ready_client`
    * `Switch.SwitchScript.not_ready_surrogate`
-/

namespace Parley

namespace Switch

open Dialogue

variable {κ : Codec} {θ : Tls.Provider} {terminator : Bytes}

------------------------------------------------------------
-- Lines
------------------------------------------------------------

/- What a script does with a line. -/
inductive LineAction where
  | send (line : String)
  | recv (line : String)
deriving DecidableEq, Repr

namespace LineAction

/- The action of the script. -/
def action : LineAction → Action κ θ
  | send line => .sendLine line
  | recv line => .recvLine line

/- Who says the line. -/
def speaker : LineAction → Role
  | send _ => .surrogate
  | recv _ => .client

/- The line, without what ends it. -/
def line : LineAction → String
  | send line => line
  | recv line => line

/- The turn in which it is carried out. -/
def turn
    (terminator : Bytes)
    (a : LineAction) : Turn :=
  ⟨a.speaker, Bytes.ofString a.line ++ terminator⟩

end LineAction

/- All lines that one party says, each with what ends it. -/
def spoken
    (terminator : Bytes)
    (actions : List LineAction)
    (r : Role) : Bytes :=
  said (actions.map (LineAction.turn terminator)) r

@[simp] theorem spoken_nil
    (r : Role) :
    spoken terminator [] r = [] :=
  rfl

@[simp] theorem spoken_append
    (first second : List LineAction)
    (r : Role) :
    spoken terminator (first ++ second) r =
      spoken terminator first r ++ spoken terminator second r := by
  simp [spoken]

@[simp] theorem spoken_send_surrogate
    (line : String)
    (rest : List LineAction) :
    spoken terminator (.send line :: rest) .surrogate =
      Bytes.ofString line ++ terminator ++
        spoken terminator rest .surrogate :=
  rfl

@[simp] theorem spoken_send_client
    (line : String)
    (rest : List LineAction) :
    spoken terminator (.send line :: rest) .client =
      spoken terminator rest .client :=
  rfl

@[simp] theorem spoken_recv_client
    (line : String)
    (rest : List LineAction) :
    spoken terminator (.recv line :: rest) .client =
      Bytes.ofString line ++ terminator ++
        spoken terminator rest .client :=
  rfl

@[simp] theorem spoken_recv_surrogate
    (line : String)
    (rest : List LineAction) :
    spoken terminator (.recv line :: rest) .surrogate =
      spoken terminator rest .surrogate :=
  rfl

------------------------------------------------------------
-- Scripts that switch
------------------------------------------------------------

/-
  A script of lines with a control in the middle that has the
  surrogate compress, between a line that it sends and one that
  it expects.
-/
structure SwitchScript where
  before : List LineAction
  last : String
  level : Nat
  next : String
  after : List LineAction
deriving DecidableEq, Repr

namespace SwitchScript

/- The lines up to the control. -/
def opening
    (s : SwitchScript) : List LineAction :=
  s.before ++ [.send s.last]

/- The lines behind the control. -/
def closing
    (s : SwitchScript) : List LineAction :=
  .recv s.next :: s.after

/- All lines. -/
def lines
    (s : SwitchScript) : List LineAction :=
  s.opening ++ s.closing

/- The script itself. -/
def script
    (s : SwitchScript) : Script κ θ where
  actions :=
    s.opening.map LineAction.action ++
      .control (Control.deflate s.level) ::
        s.closing.map LineAction.action

section

variable {level : Nat} {text text' : Bytes → Bytes}
variable {bound bound' : Nat → Nat}

/- What either must have heard before it may begin to encode. -/
def Ready
    (s : SwitchScript)
    (terminator : Bytes) : Role → Bytes → Prop
  | .client, heard =>
    (spoken terminator s.opening .surrogate).length ≤ heard.length
  | .surrogate, heard =>
    terminator = [] ∨
      (spoken terminator s.opening .client).length < heard.length

/- The pact of the two parties. -/
def pact
    (s : SwitchScript)
    (terminator : Bytes)
    (hSurrogate :
      κ.Lawful (min s.level Layer.highestLevel) text bound)
    (hClient :
      κ.Lawful (min level Layer.highestLevel) text' bound') :
    Pact κ where
  speech
    | .surrogate =>
      { plain := spoken terminator s.opening .surrogate
        coded := spoken terminator s.closing .surrogate
        level := min s.level Layer.highestLevel
        text := text
        bound := bound
        lawful := hSurrogate }
    | .client =>
      { plain := spoken terminator s.opening .client
        coded := spoken terminator s.closing .client
        level := min level Layer.highestLevel
        text := text'
        bound := bound'
        lawful := hClient }
  ready := s.Ready terminator
  ready_of_heard := by
    intro r heard more hHeard hReady
    have hLength := hHeard.length_le
    cases r with
    | client => exact Nat.le_trans hReady hLength
    | surrogate =>
        exact hReady.imp_right fun hReady =>
          Nat.lt_of_lt_of_le hReady hLength

end

/-
  As long as the surrogate has not sent the last plain line, the
  client is not ready.
-/
theorem not_ready_client
    {s : SwitchScript}
    {said : Bytes}
    (hTerminator : terminator ≠ [])
    (hSaid : said <+: spoken terminator s.before .surrogate) :
    ¬ s.Ready terminator .client said := by
  have hLength := hSaid.length_le
  have hSome := List.length_pos_iff.mpr hTerminator
  simp only [Ready, opening, spoken_append, spoken_send_surrogate,
    spoken_nil, List.length_append]
  omega

/-
  As long as the client says plain lines only, the surrogate is
  not ready.
-/
theorem not_ready_surrogate
    {s : SwitchScript}
    {said : Bytes}
    (hTerminator : terminator ≠ [])
    (hSaid : said <+: spoken terminator s.opening .client) :
    ¬ s.Ready terminator .surrogate said := by
  have hLength := hSaid.length_le
  simp only [Ready, hTerminator, false_or]
  omega

end SwitchScript

end Switch

end Parley
