import Parley.Link
import Parley.Text.Quoted
/-
  This file gives the surrogate: the end of a conversation
  that stands in for a real server. It reads and writes lines
  and raw bytes over its endpoint, and can switch to compressed
  or encrypted traffic on the way.

  Key definitions include:
    * `Surrogate`
    * `Surrogate.new`
    * `Surrogate.lineRound`
    * `Surrogate.readLine`
    * `Surrogate.writeLine`
    * `Surrogate.flush`
    * `Surrogate.detachLayer`
    * `Surrogate.detachLink`
    * `Surrogate.enableDeflate`
    * `Surrogate.enableTlsWith`
    * `Surrogate.enableTls`
    * `Surrogate.close`
    * `Surrogate.text`
-/

namespace Parley

------------------------------------------------------------
-- The surrogate
------------------------------------------------------------

/-
  A surrogate: the layers over its endpoint, what ends a line,
  the bytes taken from the layers and not yet read, the bytes
  written and not yet handed to the layers, and whether it is
  closed.
-/
structure Surrogate (κ : Codec) (θ : Tls.Provider) where
  layer : Layer κ θ
  terminator : Bytes
  unread : Bytes
  unsent : Bytes
  closed : Bool

namespace Surrogate

variable {κ : Codec} {θ : Tls.Provider}

/-
  What a call on the surrogate is: it may fail, and gives back
  the surrogate either way.
-/
abbrev Run (κ : Codec) (θ : Tls.Provider) (α : Type) :=
  Routine endpointInterface (Except SurrogateError α × Surrogate κ θ)

/- A surrogate over a plain endpoint. -/
def new
    (terminator : Bytes) : Surrogate κ θ where
  layer := .raw .plain
  terminator := terminator
  unread := []
  unsent := []
  closed := false

/- The endpoint at the bottom of the layers. -/
def conn
    (s : Surrogate κ θ) : Option Endpoint :=
  s.layer.link.conn

/- Whether traffic is compressed. -/
def isCompressed
    (s : Surrogate κ θ) : Bool :=
  s.layer.isCompressed

/- Whether traffic is encrypted. -/
def isEncrypted
    (s : Surrogate κ θ) : Bool :=
  s.layer.isEncrypted

/- Fail and leave the surrogate as it is. -/
def fail
    {α : Type}
    (s : Surrogate κ θ)
    (e : SurrogateError) : Run κ θ α :=
  .done (.error e, s)

/- Use the layers; their failures are failures of the stream. -/
def onLayer
    {α : Type}
    (s : Surrogate κ θ)
    (p : Routine endpointInterface
      (Except IoError α × Layer κ θ)) : Run κ θ α :=
  p.bind fun (r, layer) =>
    .done (r.mapError .io, { s with layer := layer })

------------------------------------------------------------
-- Reading
------------------------------------------------------------

/- How many bytes are taken from the layers at a time. -/
def chunkSize : Nat :=
  4096

/-
  One round of reading a line, where no end of the line begins
  in the first `scanned` bytes. If it is not found in the others
  either, more is taken from the layers, and the next round has
  to search from the first byte on with which it may begin.
-/
def lineRound
    (s : Surrogate κ θ)
    (scanned : Nat) :
    Routine endpointInterface
      ((Surrogate κ θ × Nat) ⊕
        (Except SurrogateError Bytes × Surrogate κ θ)) :=
  match s.terminator.find? (s.unread.drop scanned) with
  | some n =>
    .done (.inr (.ok (s.unread.take (scanned + n)),
      { s with
        unread :=
          s.unread.drop (scanned + n + s.terminator.length) }))
  | none =>
    (s.layer.read chunkSize).bind fun
      | (.error e, layer) =>
        .done (.inr (.error (.io e), { s with layer := layer }))
      | (.ok [], layer) =>
        .done (.inr
          (.error (.unexpectedEof s.unread),
            { s with layer := layer, unread := [] }))
      | (.ok more, layer) =>
        .done (.inl
          ({ s with
            layer := layer
            unread := s.unread ++ more },
          s.unread.length - (s.terminator.length - 1)))

/-
  Read a line, without what ends it. The bytes after it stay
  unread. If the stream ends first, what there was of the line
  is reported and gone.
-/
def readLine
    (s : Surrogate κ θ) : Run κ θ Bytes :=
  if s.closed then s.fail .closed
  else
    .iterate (s, 0) fun (s, scanned) => s.lineRound scanned

/-
  Read what is there, `room` bytes at most; bytes that were
  taken in already come first.
-/
def read
    (s : Surrogate κ θ)
    (room : Nat) :
    Routine endpointInterface
      (Except IoError Bytes × Surrogate κ θ) :=
  if s.closed then .done (.error (.surrogate .closed), s)
  else if s.unread = [] then
    (s.layer.read room).bind fun (r, layer) =>
      .done (r, { s with layer := layer })
  else
    .done (.ok (s.unread.take room),
      { s with unread := s.unread.drop room })

------------------------------------------------------------
-- Writing
------------------------------------------------------------

/-
  Write a line and what ends it. Nothing is sent before the next
  flush.
-/
def writeLine
    (s : Surrogate κ θ)
    (line : Bytes) : Run κ θ Unit :=
  if s.closed then s.fail .closed
  else
    .done (.ok (),
      { s with unsent := s.unsent ++ line ++ s.terminator })

/- Write bytes. Nothing is sent before the next flush. -/
def write
    (s : Surrogate κ θ)
    (src : Bytes) :
    Routine endpointInterface (Except IoError Nat × Surrogate κ θ) :=
  if s.closed then .done (.error (.surrogate .closed), s)
  else .done (.ok src.length, { s with unsent := s.unsent ++ src })

/-
  Hand everything written to the layers and have them send it.
  The bytes count as handed over even if the layers fail on the
  way.
-/
def flush
    (s : Surrogate κ θ) : Run κ θ Unit :=
  if s.closed then s.fail .closed
  else
    let pending := s.unsent
    let s := { s with unsent := [] }
    (if pending = [] then .done (.ok (), s)
      else
        s.onLayer
          (ByteStream.writeAll s.layer pending)).ifOk fun () s =>
        s.onLayer s.layer.flush

instance : ByteStream endpointInterface (Surrogate κ θ) where
  read := read
  write := write
  flush s := s.flush.bind fun (r, s) =>
    .done (r.mapError SurrogateError.toIo, s)

------------------------------------------------------------
-- Switching the layers
------------------------------------------------------------

/-
  Get ready to switch: nothing may be unread, since it belongs
  to the old layers, and everything written goes out through
  them.
-/
def prepareUpgrade
    (s : Surrogate κ θ) : Run κ θ Unit :=
  if s.unread = [] then s.flush
  else s.fail (.pendingInput s.unread.length)

/- Take the layers out; something stands in for them. -/
def detachLayer
    (s : Surrogate κ θ) : Layer κ θ × Surrogate κ θ :=
  (s.layer, { s with layer := .raw .detached })

/- Put layers in. -/
def attachLayer
    (s : Surrogate κ θ)
    (layer : Layer κ θ) : Surrogate κ θ :=
  { s with layer := layer }

/-
  Take the link at the bottom out; something stands in for it.
  The compression on top stays as it is.
-/
def detachLink
    (s : Surrogate κ θ) : Link θ × Surrogate κ θ :=
  (s.layer.link, { s with layer := s.layer.withLink .detached })

/- Put a link in at the bottom. -/
def attachLink
    (s : Surrogate κ θ)
    (link : Link θ) : Surrogate κ θ :=
  { s with layer := s.layer.withLink link }

/-
  Put compression on top of the layers, which are taken out for
  it, and put back if they compress already.
-/
def startDeflate
    (s : Surrogate κ θ)
    (level : Nat) : Run κ θ Unit :=
  match s.detachLayer with
  | (.raw link, s) =>
    .done (.ok (), s.attachLayer (Layer.compress link level))
  | (other, s) =>
    (s.attachLayer other).fail .compressionActive

/- Compress all traffic from here on. -/
def enableDeflate
    (s : Surrogate κ θ)
    (level : Nat) : Run κ θ Unit :=
  if s.closed then s.fail .closed
  else if s.isCompressed then s.fail .compressionActive
  else
    s.prepareUpgrade.ifOk fun () s => s.startDeflate level

/- How a session is opened over an endpoint. -/
abbrev Handshake (θ : Tls.Provider) :=
  θ.Session →
    Routine endpointInterface (Except IoError Unit × θ.Session)

/-
  Set a session up and carry its handshake out on the link at
  the bottom, which is taken out for it. Compression, if there
  is any, stays on top. A link on which this fails is put back
  as it was.
-/
def startTls
    (s : Surrogate κ θ)
    (setup : Except SurrogateError θ.Session)
    (handshake : Handshake θ) : Run κ θ Unit :=
  match setup with
  | .error e => s.fail e
  | .ok session =>
    match s.detachLink with
    | (.plain, s) =>
      (handshake session).bind fun
        | (.ok (), session) =>
          .done (.ok (), s.attachLink (.tls session))
        | (.error e, _) =>
          (s.attachLink .plain).fail (.handshake e)
    | (other, s) => (s.attachLink other).fail .encryptionActive

/-
  Encrypt all traffic from here on, by a session and a handshake
  of one's own.
-/
def enableTlsWith
    (s : Surrogate κ θ)
    (setup : Except SurrogateError θ.Session)
    (handshake : Handshake θ) : Run κ θ Unit :=
  if s.closed then s.fail .closed
  else if s.isEncrypted then s.fail .encryptionActive
  else
    s.prepareUpgrade.ifOk fun () s => s.startTls setup handshake

/- Encrypt all traffic from here on. -/
def enableTls
    (s : Surrogate κ θ) : Run κ θ Unit :=
  s.enableTlsWith (.ok θ.server) θ.handshake

------------------------------------------------------------
-- Closing
------------------------------------------------------------

/-
  Send everything, and on an encrypted link the notice that
  nothing more will come.
-/
def flushForClose
    (s : Surrogate κ θ) : Run κ θ Unit :=
  s.flush.ifOk fun () s =>
    match s.layer.link with
    | .tls session =>
      (θ.flush (θ.queueCloseNotify session)).bind fun (r, session) =>
        .done (r.mapError .io, s.attachLink (.tls session))
    | _ => .done (.ok (), s)

/- Close the endpoint at the bottom, if there is one. -/
def closeConn
    (s : Surrogate κ θ) : Routine endpointInterface Unit :=
  match s.conn with
  | some _ => Endpoint.close
  | none => .done ()

/-
  Close the surrogate and its endpoint, after sending everything
  if `flush` is set. It is closed afterwards whether or not the
  sending worked. A second close does nothing.
-/
def close
    (s : Surrogate κ θ)
    (flush : Bool) : Run κ θ Unit :=
  if s.closed then .done (.ok (), s)
  else
    (if flush then s.flushForClose
      else .done (.ok (), s)).bind fun (r, s) =>
      s.closeConn.bind fun () =>
        .done (r, { s with closed := true })

------------------------------------------------------------
-- Text
------------------------------------------------------------

/- A yes or no in words. -/
def yesNo
    (b : Bool) : String :=
  if b then "true" else "false"

/-
  The text that shows a surrogate, given the text of its
  endpoint.
-/
def text
    (s : Surrogate κ θ)
    (endpoint : String) : String :=
  let conn :=
    match s.conn with
    | some _ => "Some(" ++ endpoint ++ ")"
    | none => "None"
  "Surrogate \x7b conn: " ++ conn ++
    ", compressed: " ++ yesNo s.isCompressed ++
    ", encrypted: " ++ yesNo s.isEncrypted ++
    ", closed: " ++ yesNo s.closed ++ " \x7d"

end Surrogate

end Parley
