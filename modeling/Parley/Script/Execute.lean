import Parley.Script.Basic
import Parley.Script.Error
import Parley.Text.Lossy
/-
  This file carries scripts out: one action after the other,
  each finished before the next begins, up to the first that
  fails.

  Key definitions include:
    * `Surrogate.sendLine`
    * `Surrogate.sendRaw`
    * `Action.perform`
    * `Script.executeFrom`
    * `Script.execute`

  Key theorems include:
    * `Script.executeFrom_append`
-/

namespace Parley

variable {κ : Codec} {θ : Tls.Provider}

------------------------------------------------------------
-- Sending
------------------------------------------------------------

namespace Surrogate

/- Write a line and send it. -/
def sendLine
    (s : Surrogate κ θ)
    (line : Bytes) : Run κ θ Unit :=
  (s.writeLine line).ifOk fun () s => s.flush

/- Write bytes, as to any stream, and send them. -/
def sendRaw
    (s : Surrogate κ θ)
    (bytes : Bytes) : Run κ θ Unit :=
  ((ByteStream.writeAll s bytes).bind fun (r, s) =>
    .done (r.mapError .io, s)).ifOk fun () s =>
    s.flush

end Surrogate

------------------------------------------------------------
-- One action
------------------------------------------------------------

/- What carrying out part of a script is. -/
abbrev Performance (κ : Codec) (θ : Tls.Provider) :=
  Routine endpointInterface (Except ScriptError Unit × Surrogate κ θ)

/- The text for a breakdown that left none. -/
def unknownBreakdown : String :=
  "<unknown panic payload>"

namespace Action

/- Carry out the action that stands at `index`. -/
def perform
    (a : Action κ θ)
    (index : Nat)
    (s : Surrogate κ θ) : Performance κ θ :=
  match a with
  | sendLine line =>
    (s.sendLine (Bytes.ofString line)).bind fun
      | (.ok (), s) => .done (.ok (), s)
      | (.error e, s) => .done (.error (.write index line e), s)
  | sendRaw bytes =>
    (s.sendRaw bytes).bind fun
      | (.ok (), s) => .done (.ok (), s)
      | (.error e, s) =>
        .done (.error (.write index (Text.ofBytes bytes) e), s)
  | recvLine expected =>
    s.readLine.bind fun
      | (.ok actual, s) =>
        if actual = Bytes.ofString expected then .done (.ok (), s)
        else
          .done (.error
            (.mismatch index expected (Text.ofBytes actual)), s)
      | (.error e, s) => .done (.error (.read index expected e), s)
  | recvRaw expected =>
    (ByteStream.readExact s expected.length).bind fun
      | (.ok actual, s) =>
        if actual = expected then .done (.ok (), s)
        else
          .done (.error
            (.mismatch index (Text.ofBytes expected)
              (Text.ofBytes actual)), s)
      | (.error e, s) =>
        .done (.error
          (.read index (Text.ofBytes expected) (.io e)), s)
  | control c =>
    (c.body s).bind fun
      | (.ok, s) => .done (.ok (), s)
      | (.failed e, s) =>
        .done (.error (.control index c.name e), s)
      | (.brokeDown message, s) =>
        .done (.error
          (.fault (message.getD unknownBreakdown)), s)

end Action

------------------------------------------------------------
-- Scripts
------------------------------------------------------------

namespace Script

/- Carry out actions of which the first stands at `index`. -/
def executeFrom
    (index : Nat) :
    List (Action κ θ) → Surrogate κ θ → Performance κ θ
  | [], s => .done (.ok (), s)
  | a :: rest, s =>
    (a.perform index s).ifOk fun () s =>
      executeFrom (index + 1) rest s

/- Carry out a script. -/
def execute
    (script : Script κ θ)
    (s : Surrogate κ θ) : Performance κ θ :=
  executeFrom 1 script.actions s

/- Actions can be carried out in two parts. -/
theorem executeFrom_append
    (index : Nat)
    (first second : List (Action κ θ))
    (s : Surrogate κ θ) :
    executeFrom index (first ++ second) s =
      (executeFrom index first s).ifOk fun () s =>
        executeFrom (index + first.length) second s := by
  induction first generalizing index s with
  | nil => rfl
  | cons a first ih =>
      simp only [List.cons_append, executeFrom, Routine.ifOk_assoc,
        ih, List.length_cons, Nat.add_right_comm index 1,
        Nat.add_assoc index _ 1]

end Script

end Parley
