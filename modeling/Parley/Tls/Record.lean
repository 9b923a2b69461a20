import Parley.Failure
/-
  This file gives the records into which an encrypted link
  divides what it sends: how they are written, how they are
  found again in a stream of bytes, and which heads are
  refused.

  Key definitions include:
    * `Record`
    * `Record.encode`
    * `Record.split`
    * `Record.sealed`
    * `Record.unsealed?`

  Key theorems include:
    * `Record.unsealed?_sealed`
-/

namespace Parley.Tls

------------------------------------------------------------
-- Records
------------------------------------------------------------

/- A record: the type of its content, and the content. -/
structure Record where
  contentType : UInt8
  body : Bytes
deriving DecidableEq, Repr

namespace Record

/-
  The content types: change of ciphers, alert, handshake,
  application data, heartbeat.
-/
def changeCipherSpec : UInt8 :=
  0x14

/- The type of alerts. -/
def alert : UInt8 :=
  0x15

/- The type of handshake messages. -/
def handshake : UInt8 :=
  0x16

/-
  The type of application data, and of everything that is
  sealed.
-/
def applicationData : UInt8 :=
  0x17

/- The type of heartbeats. -/
def heartbeat : UInt8 :=
  0x18

/- How many bytes stand before the content. -/
def headSize : Nat :=
  5

/- The longest content that is accepted. -/
def longestBody : Nat :=
  16384 + 2048

/- A record as it is sent: type, version, length, content. -/
def encode
    (r : Record) : Bytes :=
  [r.contentType, 0x03, 0x03, UInt8.ofNat (r.body.length / 256), UInt8.ofNat r.body.length] ++
    r.body

/-
  What is wrong with the head of a record, looking only at the
  bytes that are there.
-/
def headFault?
    (bytes : Bytes) : Option RecordFault :=
  match bytes with
  | [] => none
  | contentType :: rest =>
    if contentType < changeCipherSpec ∨ heartbeat < contentType then some .contentType
    else
      match rest with
      | major :: _ :: high :: low :: _ =>
        let size := high.toNat * 256 + low.toNat
        if major ≠ 0x03 then some .version
        else if contentType ≠ applicationData ∧ size = 0 then some .emptyPayload
        else if longestBody < size then some .tooLarge
        else none
      | major :: _ :: _ => if major ≠ 0x03 then some .version else none
      | _ => none

/-
  The first record of a stream of bytes and the bytes after it,
  if it is complete.
-/
def split
    (bytes : Bytes) : Except RecordFault (Option (Record × Bytes)) :=
  match headFault? bytes with
  | some fault => .error fault
  | none =>
    match bytes with
    | contentType :: _ :: _ :: high :: low :: rest =>
      let size := high.toNat * 256 + low.toNat
      if rest.length < size then .ok none
      else .ok (some (⟨contentType, rest.take size⟩, rest.drop size))
    | _ => .ok none

------------------------------------------------------------
-- Sealed records
------------------------------------------------------------

/- The tag that ends a sealed content. -/
def tag : Bytes :=
  List.replicate 16 0

/-
  Hide the true type of a content behind that of application
  data.
-/
def sealed
    (r : Record) : Record :=
  ⟨applicationData, r.body ++ r.contentType :: tag⟩

/- Find the true type and content of a sealed record. -/
def unsealed?
    (r : Record) : Option Record :=
  let n := r.body.length - tag.length
  match (r.body.take n).getLast? with
  | some contentType =>
    if r.body.drop n = tag then some ⟨contentType, (r.body.take n).dropLast⟩ else none
  | none => none

/- Unsealing undoes sealing. -/
theorem unsealed?_sealed
    (r : Record) :
    r.sealed.unsealed? = some r := by
  unfold unsealed? sealed
  generalize tag = t
  have hn : (r.body ++ r.contentType :: t).length - t.length =
      (r.body ++ [r.contentType]).length := by
    simp only [List.length_append, List.length_cons, List.length_nil]
    omega
  have hb : r.body ++ r.contentType :: t = (r.body ++ [r.contentType]) ++ t := by simp
  dsimp only
  rw [hn, hb, List.take_left, List.drop_left]
  simp

end Record

end Parley.Tls
