/-
  This file gives the two ways in which a call on a pipe fails.

  Key definitions include:
    * `Direction`
    * `PipeError`
    * `PipeError.message`
    * `PipeError.isTimeout`
    * `PipeError.isTemporary`
    * `ShortWrite`
-/

namespace Parley

/- The direction of a blocking call. -/
inductive Direction where
  | read
  | write
deriving DecidableEq, Repr

namespace Direction

/- The word for a direction in messages. -/
def word : Direction → String
  | read => "read"
  | write => "write"

end Direction

/-
  Why a call on a pipe fails: its time was up at the named
  endpoint, or no byte will pass that way any more.
-/
inductive PipeError where
  | timeout (endpoint : String) (direction : Direction)
  | endOfStream
deriving DecidableEq, Repr

namespace PipeError

/- The text shown for a pipe error. -/
def message : PipeError → String
  | timeout endpoint direction =>
    "mock(" ++ endpoint ++ "): " ++ direction.word ++ " timeout"
  | endOfStream => "mock: end of stream"

/- Whether more time could have helped. -/
def isTimeout : PipeError → Bool
  | timeout _ _ => true
  | endOfStream => false

/- No pipe error is worth repeating the call as it was. -/
def isTemporary
    (_ : PipeError) : Bool :=
  false

end PipeError

/-
  A send that ended before its time: how many bytes had entered
  the pipe, and why it ended.
-/
structure ShortWrite where
  written : Nat
  error : PipeError
deriving DecidableEq, Repr

end Parley
