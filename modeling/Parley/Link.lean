import Parley.Tls.Provider
import Parley.Deflate.Stream
/-
  This file gives what lies between an endpoint and whoever
  talks over it: a link that is plain or encrypted, and over it
  a layer that compresses or does not.

  Key definitions include:
    * `Link`
    * `Link.isEncrypted`
    * `Link.conn`
    * `Layer`
    * `Layer.link`
    * `Layer.withLink`
    * `Layer.isCompressed`
-/

namespace Parley

------------------------------------------------------------
-- Links
------------------------------------------------------------

/-
  The link over an endpoint: plain, or an encrypted session. A
  detached link stands in for one that is taken out while it is
  changed.
-/
inductive Link (θ : Tls.Provider) where
  | plain
  | tls (session : θ.Session)
  | detached

namespace Link

variable {θ : Tls.Provider}

/- Whether the link is encrypted. -/
def isEncrypted : Link θ → Bool
  | plain => false
  | tls _ => true
  | detached => false

/- The endpoint at the bottom; what stands in for one has none. -/
def conn : Link θ → Option Endpoint
  | plain => some .held
  | tls _ => some .held
  | detached => none

/- The failure of every use of a detached link. -/
def notAttached : IoError :=
  .other .notConnected "link detached"

/- Read through the link. -/
def read
    (l : Link θ)
    (room : Nat) :
    Routine endpointInterface (Except IoError Bytes × Link θ) :=
  match l with
  | plain => (Endpoint.read room).bind fun r => .done (r, plain)
  | tls s => (θ.read s room).bind fun (r, s) => .done (r, tls s)
  | detached => .done (.error notAttached, detached)

/- Write through the link. -/
def write
    (l : Link θ)
    (src : Bytes) :
    Routine endpointInterface (Except IoError Nat × Link θ) :=
  match l with
  | plain => (Endpoint.write src).bind fun r => .done (r, plain)
  | tls s => (θ.write s src).bind fun (r, s) => .done (r, tls s)
  | detached => .done (.error notAttached, detached)

/-
  Send what the link has held back. A plain link holds nothing
  back.
-/
def flush
    (l : Link θ) :
    Routine endpointInterface (Except IoError Unit × Link θ) :=
  match l with
  | plain => .done (.ok (), plain)
  | tls s => (θ.flush s).bind fun (r, s) => .done (r, tls s)
  | detached => .done (.error notAttached, detached)

instance : ByteStream endpointInterface (Link θ) where
  read := read
  write := write
  flush := flush

end Link

------------------------------------------------------------
-- Layers
------------------------------------------------------------

/- The link itself, or a compressed stream on top of it. -/
inductive Layer (κ : Codec) (θ : Tls.Provider) where
  | raw (link : Link θ)
  | deflate (stream : DeflateStream κ (Link θ))

namespace Layer

variable {κ : Codec} {θ : Tls.Provider}

/- The link at the bottom. -/
def link : Layer κ θ → Link θ
  | raw link => link
  | deflate stream => stream.inner

/-
  Put another link at the bottom; the compression goes on as if
  nothing had happened.
-/
def withLink
    (l : Layer κ θ)
    (link : Link θ) : Layer κ θ :=
  match l with
  | raw _ => raw link
  | deflate stream => deflate { stream with inner := link }

/- Whether there is compression. -/
def isCompressed : Layer κ θ → Bool
  | raw _ => false
  | deflate _ => true

/- Whether the link at the bottom is encrypted. -/
def isEncrypted
    (l : Layer κ θ) : Bool :=
  l.link.isEncrypted

/- Read through the layer. -/
def read
    (l : Layer κ θ)
    (room : Nat) :
    Routine endpointInterface (Except IoError Bytes × Layer κ θ) :=
  match l with
  | raw link => (link.read room).bind fun (r, link) => .done (r, raw link)
  | deflate d => (d.read room).bind fun (r, d) => .done (r, deflate d)

/- Write through the layer. -/
def write
    (l : Layer κ θ)
    (src : Bytes) :
    Routine endpointInterface (Except IoError Nat × Layer κ θ) :=
  match l with
  | raw link => (link.write src).bind fun (r, link) => .done (r, raw link)
  | deflate d => (d.write src).bind fun (r, d) => .done (r, deflate d)

/- Send what the layer and the link have held back. -/
def flush
    (l : Layer κ θ) :
    Routine endpointInterface (Except IoError Unit × Layer κ θ) :=
  match l with
  | raw link => link.flush.bind fun (r, link) => .done (r, raw link)
  | deflate d => d.flush.bind fun (r, d) => .done (r, deflate d)

instance : ByteStream endpointInterface (Layer κ θ) where
  read := read
  write := write
  flush := flush

/- The highest compression level. -/
def highestLevel : Nat :=
  9

/-
  Begin to compress on top of a link; higher levels than the
  highest count as the highest.
-/
def compress
    (link : Link θ)
    (level : Nat) : Layer κ θ :=
  deflate (DeflateStream.new link (min level highestLevel))

end Layer

end Parley
