import Parley.Link
/-
  This file gives a client to talk to a surrogate with: it
  sends bytes and lines, reads lines and counted bytes, and can
  follow the surrogate to compressed or encrypted traffic.

  Key definitions include:
    * `Client`
    * `Client.new`
    * `Client.send`
    * `Client.readLine`
    * `Client.readExact`
    * `Client.readToEnd`
    * `Client.enableDeflate`
    * `Client.enableTls`
    * `Client.leave`
-/

namespace Parley

variable {κ : Codec} {θ : Tls.Provider}

------------------------------------------------------------
-- The client
------------------------------------------------------------

/-
  A client: the layers over its endpoint while it has one, what
  ends a line, and the bytes taken in and not yet read.
-/
structure Client (κ : Codec) (θ : Tls.Provider) where
  layer : Option (Layer κ θ)
  terminator : Bytes
  pending : Bytes

/-
  What a read finds: what was asked for, or the end of the
  stream with what stands before it.
-/
inductive Found where
  | bytes (got : Bytes)
  | eof (pending : Bytes)
deriving DecidableEq, Repr

namespace Client

/-
  What a call of a client is: it may fail, and gives back the
  client either way.
-/
abbrev Run (κ : Codec) (θ : Tls.Provider) (α : Type) :=
  Routine endpointInterface (Except IoError α × Client κ θ)

/- A client over a plain endpoint. -/
def new
    (terminator : Bytes) : Client κ θ where
  layer := some (.raw .plain)
  terminator := terminator
  pending := []

/- Whether the client still has its endpoint. -/
def isConnected
    (c : Client κ θ) : Bool :=
  c.layer.isSome

/- Whether traffic is encrypted. -/
def isEncrypted
    (c : Client κ θ) : Bool :=
  c.layer.elim false Layer.isEncrypted

/- The failure of a client without an endpoint. -/
def notConnected : IoError :=
  .other .notConnected "not connected"

/- The failure of a client that asks to be encrypted twice. -/
def alreadyEncrypted : IoError :=
  .other .other "tls already active"

/- Give the endpoint up. -/
def leave
    (c : Client κ θ) : Routine endpointInterface (Client κ θ) :=
  Endpoint.close.bind fun () => .done { c with layer := none }

/- Use the layers. -/
def onLayer
    {α : Type}
    (c : Client κ θ)
    (f : Layer κ θ →
      Routine endpointInterface
        (Except IoError α × Layer κ θ)) : Run κ θ α :=
  match c.layer with
  | none => .done (.error notConnected, c)
  | some layer => (f layer).bind fun (r, layer) => .done (r, { c with layer := some layer })

------------------------------------------------------------
-- Writing and reading
------------------------------------------------------------

/- Write bytes and send them. -/
def send
    (c : Client κ θ)
    (src : Bytes) : Run κ θ Unit :=
  c.onLayer fun layer => (ByteStream.writeAll layer src).ifOk fun () layer => layer.flush

/- Write a line and send it. -/
def sendLine
    (c : Client κ θ)
    (line : Bytes) : Run κ θ Unit :=
  c.send (line ++ c.terminator)

/- How many bytes are taken from the layers at a time. -/
def chunkSize : Nat :=
  1024

/- Take bytes in; the answer says whether there were any. -/
def fill
    (c : Client κ θ)
    (room : Nat) : Run κ θ Bool :=
  (c.onLayer fun layer => layer.read room).ifOk fun more c =>
    .done (.ok (!more.isEmpty), { c with pending := c.pending ++ more })

/-
  Take bytes in until `cut` says how many belong to the answer
  and how many are used up; `room` says how many at a time.
-/
def readUntil
    (c : Client κ θ)
    (room : Bytes → Nat)
    (cut : Bytes → Option (Nat × Nat)) : Run κ θ Found :=
  .iterate c fun c =>
    match cut c.pending with
    | some (length, used) =>
      .done (.inr (.ok (.bytes (c.pending.take length)), { c with pending := c.pending.drop used }))
    | none =>
      (c.fill (room c.pending)).bind fun
        | (.error e, c) => .done (.inr (.error e, c))
        | (.ok false, c) => .done (.inr (.ok (.eof c.pending), c))
        | (.ok true, c) => .done (.inl c)

/- Read a line, without what ends it. -/
def readLine
    (c : Client κ θ) : Run κ θ Found :=
  c.readUntil (fun _ => chunkSize) fun pending =>
    (c.terminator.find? pending).map fun n => (n, n + c.terminator.length)

/- Read `n` bytes. -/
def readExact
    (c : Client κ θ)
    (n : Nat) : Run κ θ Found :=
  c.readUntil (fun _ => chunkSize) fun pending =>
    if n ≤ pending.length then some (n, n) else none

/- Read until the stream ends. -/
def readToEnd
    (c : Client κ θ) : Run κ θ Bytes :=
  .iterate c fun c =>
    (c.fill chunkSize).bind fun
      | (.error e, c) => .done (.inr (.error e, c))
      | (.ok false, c) => .done (.inr (.ok c.pending, { c with pending := [] }))
      | (.ok true, c) => .done (.inl c)

------------------------------------------------------------
-- Switching the layers
------------------------------------------------------------

/-
  Compress all traffic from here on; the answer says whether
  that is new.
-/
def enableDeflate
    (c : Client κ θ)
    (level : Nat) : Except IoError Bool × Client κ θ :=
  match c.layer with
  | none => (.error notConnected, c)
  | some (.deflate _) => (.ok false, c)
  | some (.raw link) => (.ok true, { c with layer := some (Layer.compress link level) })

/-
  Encrypt all traffic from here on; compression, if there is
  any, stays on top. If that does not work, the endpoint is
  given up.
-/
def enableTls
    (c : Client κ θ) : Run κ θ Unit :=
  match c.layer with
  | none => .done (.error notConnected, c)
  | some layer =>
    if layer.isEncrypted then c.leave.bind fun c => .done (.error alreadyEncrypted, c)
    else
      (θ.handshake θ.client).bind fun
        | (.ok (), session) =>
          .done (.ok (), { c with layer := some (layer.withLink (.tls session)) })
        | (.error e, _) => c.leave.bind fun c => .done (.error e, c)

end Client

end Parley
