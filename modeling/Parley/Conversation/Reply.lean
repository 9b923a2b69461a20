import Parley.Client
import Parley.Peer
/-
  This file gives what the steps of a conversation answer, in
  one type for all of them, and how the results of calls become
  such answers.

  Key definitions include:
    * `Reply`
    * `Reply.ofPipe`
    * `Reply.ofIo`
    * `Reply.ofSurrogate`
    * `Reply.ofEngine`
    * `Reply.ofClient`
-/

namespace Parley

------------------------------------------------------------
-- Replies
------------------------------------------------------------

/- What is known of a peer from outside. -/
structure PeerInfo where
  config : Config
  host : String
  serverName : String
  joinTimeout : Duration
  surrogateTimeout : Option Duration
deriving DecidableEq

/-
  What a step answers. `gone` is a step on something that was
  given up, `spent` the second use of what can be used once,
  `busy` a step on a surrogate that a run has, `undialed` a step
  of a client that is not there yet. `cutShort` has what was
  read before the failure; `concealed` is a failure of which
  only the class is shown.
-/
inductive Reply where
  | ok
  | already
  | gone
  | spent
  | busy
  | undialed
  | count (n : Nat)
  | data (got : Bytes)
  | line (got : Bytes)
  | eof (pending : Bytes)
  | cutShort (got : Bytes) (error : IoError)
  | flag (b : Bool)
  | text (s : String)
  | value (v : String)
  | span (d : Option Duration)
  | names (own far : String)
  | info (i : PeerInfo)
  | settled (s : Settled String)
  | pipeFailure (error : PipeError)
  | ioFailure (error : IoError)
  | concealed (kind : IoKind)
  | surrogateFailure (error : SurrogateError)
  | engineFailure (error : EngineError String)
  | peerFailure (error : PeerError)
deriving DecidableEq

namespace Reply

variable {α : Type}

------------------------------------------------------------
-- Results as replies
------------------------------------------------------------

/- The reply for a result of a call with pipe errors. -/
def ofPipe
    (f : α → Reply) : Except PipeError α → Reply
  | .ok a => f a
  | .error e => .pipeFailure e

/- The reply for a result of a call on a stream. -/
def ofIo
    (f : α → Reply) : Except IoError α → Reply
  | .ok a => f a
  | .error e => .ioFailure e

/- The reply for a result of a call on a surrogate. -/
def ofSurrogate
    (f : α → Reply) : Except SurrogateError α → Reply
  | .ok a => f a
  | .error e => .surrogateFailure e

/- The reply for a result of a call on an engine. -/
def ofEngine
    (f : α → Reply) : Except (EngineError String) α → Reply
  | .ok a => f a
  | .error e => .engineFailure e

/-
  The reply for a result of a client's call; what fails under
  encryption is not shown.
-/
def ofClient
    (encrypted : Bool)
    (f : α → Reply) : Except IoError α → Reply
  | .ok a => f a
  | .error e => if encrypted then .concealed e.kind else .ioFailure e

/- The reply of a step that is over without a value. -/
def done
    (_ : Unit) : Reply :=
  .ok

end Reply

end Parley
