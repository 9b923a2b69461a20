import Parley.Bytes
import Parley.Pipe.Error
import Parley.Text.Lossy
/-
  This file gives the failures of byte streams and of the
  surrogate that talks over them. The two kinds contain each
  other: a stream's failure can end what the surrogate was
  doing, and the surrogate, used as a stream, fails with the
  reasons of its own.

  Key definitions include:
    * `IoError`
    * `SurrogateError`
    * `IoError.kind`
    * `IoError.message`
    * `SurrogateError.message`
    * `SurrogateError.toIo`
-/

namespace Parley

------------------------------------------------------------
-- Causes
------------------------------------------------------------

/- The classes into which stream failures fall. -/
inductive IoKind where
  | timedOut
  | brokenPipe
  | notConnected
  | unexpectedEof
  | invalidData
  | writeZero
  | other
deriving DecidableEq, Repr

/- What can be wrong with compressed data. -/
inductive InflateFault where
  | corrupt
  | stalled
deriving DecidableEq, Repr

/- What can be wrong with the head of a record. -/
inductive RecordFault where
  | contentType
  | version
  | emptyPayload
  | tooLarge
  | body
deriving DecidableEq, Repr

/- What can go wrong on an encrypted link. -/
inductive TlsFault where
  | handshakeEof
  | truncated
  | corrupt (fault : RecordFault)
  | alert (code : UInt8)
  | unexpectedMessage
deriving DecidableEq, Repr

mutual

/-
  Why reading from or writing to a byte stream fails.
  `shortInput` is a stream that ends before everything asked for
  was there, `shortOutput` one that takes no more.
-/
inductive IoError where
  | pipe (error : PipeError)
  | shortInput
  | shortOutput
  | inflate (fault : InflateFault)
  | tls (fault : TlsFault)
  | surrogate (error : SurrogateError)
  | other (kind : IoKind) (text : String)

/-
  Why the surrogate fails: the stream below it, the handshake,
  an end of stream inside a line (with what there was of it), or
  a state in which the call makes no sense.
-/
inductive SurrogateError where
  | io (error : IoError)
  | handshake (error : IoError)
  | unexpectedEof (partialLine : Bytes)
  | closed
  | encryptionActive
  | compressionActive
  | pendingInput (buffered : Nat)

end

deriving instance DecidableEq, Repr for IoError, SurrogateError

------------------------------------------------------------
-- Kinds
------------------------------------------------------------

/- Compressed data that makes no sense is invalid data. -/
def InflateFault.kind
    (_ : InflateFault) : IoKind :=
  .invalidData

/-
  An ended stream is told apart from records that make no sense.
-/
def TlsFault.kind : TlsFault → IoKind
  | handshakeEof => .unexpectedEof
  | truncated => .unexpectedEof
  | corrupt _ => .invalidData
  | alert _ => .invalidData
  | unexpectedMessage => .invalidData

/- The class of a pipe error. -/
def PipeError.kind : PipeError → IoKind
  | timeout _ _ => .timedOut
  | endOfStream => .brokenPipe

/- The class of a stream failure. -/
def IoError.kind : IoError → IoKind
  | pipe error => error.kind
  | shortInput => .unexpectedEof
  | shortOutput => .writeZero
  | inflate fault => fault.kind
  | tls fault => fault.kind
  | surrogate .closed => .notConnected
  | surrogate (.unexpectedEof _) => .unexpectedEof
  | surrogate _ => .other
  | other kind _ => kind

/-
  The pipe error behind a stream failure, if that is where it
  came from.
-/
def IoError.pipe? : IoError → Option PipeError
  | pipe error => some error
  | _ => none

/-
  The failure of the surrogate when it is used as a byte stream.
-/
def SurrogateError.toIo : SurrogateError → IoError
  | io error => error
  | error => .surrogate error

------------------------------------------------------------
-- Texts
------------------------------------------------------------

/- The text for compressed data that makes no sense. -/
def InflateFault.message : InflateFault → String
  | corrupt => "deflate decompression error"
  | stalled => "deflate stream stalled"

/- The word for what is wrong with a record. -/
def RecordFault.word : RecordFault → String
  | contentType => "InvalidContentType"
  | version => "UnknownProtocolVersion"
  | emptyPayload => "InvalidEmptyPayload"
  | tooLarge => "MessageTooLarge"
  | body => "MissingData"

/- The text for a fault of an encrypted link. -/
def TlsFault.message : TlsFault → String
  | handshakeEof => "unexpected end of file"
  | truncated =>
    "peer closed connection without sending TLS close_notify: " ++
      "https://docs.rs/rustls/latest/rustls/manual/_03_howto/index.html#unexpected-eof"
  | corrupt fault => "received corrupt message of type " ++ fault.word
  | alert 50 => "received fatal alert: DecodeError"
  | alert code => "received fatal alert: " ++ toString code.toNat
  | unexpectedMessage => "received unexpected message"

/-
  The bytes of a byte string as a list of decimal numbers in
  brackets.
-/
def Bytes.listing
    (s : Bytes) : String :=
  "[" ++ ", ".intercalate (s.map fun b => toString b.toNat) ++ "]"

mutual

/- The text shown for a stream failure. -/
def IoError.message : IoError → String
  | .pipe error => error.message
  | .shortInput => "failed to fill whole buffer"
  | .shortOutput => "failed to write whole buffer"
  | .inflate fault => fault.message
  | .tls fault => fault.message
  | .surrogate error => error.message
  | .other _ text => text

/- The text shown for a failure of the surrogate. -/
def SurrogateError.message : SurrogateError → String
  | .io error => "surrogate i/o failed: " ++ error.message
  | .handshake error => "tls handshake failed: " ++ error.message
  | .unexpectedEof partialLine =>
    "connection closed before line terminator (partial " ++ partialLine.listing ++ ")"
  | .closed => "surrogate is closed"
  | .encryptionActive => "tls already active"
  | .compressionActive => "compression already active"
  | .pendingInput buffered =>
    toString buffered ++ " unread bytes buffered before link upgrade"

end

/- The text of the failure behind this one, if there is one. -/
def SurrogateError.cause? : SurrogateError → Option String
  | io error => some error.message
  | handshake error => some error.message
  | _ => none

end Parley
