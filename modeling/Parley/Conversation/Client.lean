import Parley.Conversation.Endpoint
/-
  This file gives the steps of a conversation that act on a
  client.

  Key definitions include:
    * `ClientStep`
    * `Client.take`
    * `Client.isClosed`
-/

namespace Parley

variable {κ : Codec} {θ : Tls.Provider}

/-
  A step on a client. `readExactRaw` and the steps on the
  endpoint go below all layers.
-/
inductive ClientStep where
  | send (src : Bytes)
  | sendLine (line : Bytes)
  | readLine
  | readExact (n : Nat)
  | readToEnd
  | deflate (level : Nat)
  | tls
  | leave
  | readExactRaw (n : Nat)
  | endpoint (step : EndpointStep)
deriving DecidableEq, Repr

/-
  The reply for what a read finds, where `f` stands for what was
  asked for.
-/
def Found.reply
    (f : Bytes → Reply) : Found → Reply
  | bytes got => f got
  | eof pending => .eof pending

namespace Client

/-
  Take a step below all layers; without an endpoint there is
  nothing to take it on.
-/
def below
    (c : Client κ θ)
    (p : Routine endpointInterface Reply) :
    Routine endpointInterface (Reply × Client κ θ) :=
  if c.isConnected then p.bind fun r => .done (r, c) else .done (.gone, c)

/-
  Take a step. Whether a failure is shown depends on the layers
  as they were before. Leaving again is no fault.
-/
def take
    (c : Client κ θ) :
    ClientStep → Routine endpointInterface (Reply × Client κ θ)
  | .send src => (c.send src).bind fun (r, c') => .done (.ofClient c.isEncrypted .done r, c')
  | .sendLine line =>
    (c.sendLine line).bind fun (r, c') => .done (.ofClient c.isEncrypted .done r, c')
  | .readLine =>
    c.readLine.bind fun (r, c') => .done (.ofClient c.isEncrypted (Found.reply .line) r, c')
  | .readExact n =>
    (c.readExact n).bind fun (r, c') =>
      .done (.ofClient c.isEncrypted (Found.reply .data) r, c')
  | .readToEnd => c.readToEnd.bind fun (r, c') => .done (.ofClient c.isEncrypted .data r, c')
  | .deflate level =>
    let (r, c') := c.enableDeflate level
    .done (.ofClient c.isEncrypted (fun fresh => if fresh then .ok else .already) r, c')
  | .tls => c.enableTls.bind fun (r, c') => .done (.ofClient true .done r, c')
  | .leave => if c.isConnected then c.leave.bind fun c => .done (.ok, c) else .done (.ok, c)
  | .readExactRaw n => c.below (EndpointStep.readExact n).take
  | .endpoint step => c.below step.take

/-
  Whether the client's endpoint is closed; without one there is
  no answer.
-/
def isClosed
    (c : Client κ θ) : Routine endpointInterface (Option Bool) :=
  if c.isConnected then (Endpoint.call .isClosed).bind fun b => .done (some b) else .done none

end Client

end Parley
