import Parley.Script.Basic
import Parley.Script.Error
/-
  This file reads scripts that are written down as literals: a
  text marked as sent or expected is a line, bytes go the way
  of the line before them, and a ready action stays as it is.

  Key definitions include:
    * `Literal`
    * `Way`
    * `Literal.marked?`
    * `Script.parse`
-/

namespace Parley

variable {κ : Codec} {θ : Tls.Provider}

------------------------------------------------------------
-- Literals
------------------------------------------------------------

/- One entry of a written script. -/
inductive Literal
    (κ : Codec)
    (θ : Tls.Provider := Tls.transparent) where
  | text (text : String)
  | bytes (bytes : Bytes)
  | action (action : Action κ θ)

/- The way of a line: from the surrogate, or to it. -/
inductive Way where
  | send
  | recv
deriving DecidableEq, Repr

/- The line of a marked text, and its way. -/
def Literal.marked?
    (text : String) : Option (Way × String) :=
  match text.toList with
  | 'S' :: ':' :: ' ' :: line => some (.send, String.ofList line)
  | 'C' :: ':' :: ' ' :: line => some (.recv, String.ofList line)
  | _ => none

------------------------------------------------------------
-- Reading
------------------------------------------------------------

namespace Script

/-
  The actions of the literals from number `index` on, where
  `way` is that of the last line before them.
-/
def parseFrom
    (index : Nat)
    (way : Option Way) :
    List (Literal κ θ) → Except ScriptError (List (Action κ θ))
  | [] => .ok []
  | .text text :: rest =>
    match Literal.marked? text with
    | none => .error (.malformed index (.unmarked text))
    | some (.send, line) =>
      (parseFrom (index + 1) (some .send) rest).map
        (Action.sendLine line :: ·)
    | some (.recv, line) =>
      (parseFrom (index + 1) (some .recv) rest).map
        (Action.recvLine line :: ·)
  | .bytes bytes :: rest =>
    match way with
    | none => .error (.malformed index .orphan)
    | some .send =>
      (parseFrom (index + 1) way rest).map
        (Action.sendRaw bytes :: ·)
    | some .recv =>
      (parseFrom (index + 1) way rest).map
        (Action.recvRaw bytes :: ·)
  | .action action :: rest =>
    (parseFrom (index + 1) way rest).map (action :: ·)

/-
  The script of a list of literals, or the first entry that
  makes no sense.
-/
def parse
    (literals : List (Literal κ θ)) :
    Except ScriptError (Script κ θ) :=
  (parseFrom 1 none literals).map Script.mk

end Script

end Parley
