import Parley.Time
/-
  This file gives the settings of a scripted peer, what makes
  them valid, and how they are changed.

  Key definitions include:
    * `Config`
    * `Config.standard`
    * `ConfigFault`
    * `Config.fault?`
    * `Config.validate`
    * `Config.withIoTimeout`
    * `Config.withJoinTimeout`
    * `Config.withCertValidity`
-/

namespace Parley

------------------------------------------------------------
-- Settings
------------------------------------------------------------

/-
  The settings of a scripted peer: the name under which it is
  dialled, the host of its certificate, the limits on a single
  call and on a whole run, the capacity of the pipe, what ends a
  line, the level of compression, and how long the certificate
  is good.
-/
structure Config where
  serverName : String := "imap.mock.net"
  tlsHost : String := "localhost"
  ioTimeoutMs : Nat := 500
  joinTimeoutMs : Nat := 5000
  bufferSize : Nat := 0
  lineTerminator : String := "\r\n"
  deflateLevel : Nat := 6
  certValiditySecs : Nat := 300
deriving DecidableEq, Repr

------------------------------------------------------------
-- Validity
------------------------------------------------------------

/- What can be wrong with settings. -/
inductive ConfigFault where
  | emptyLineTerminator
  | emptyTlsHost
  | zeroIoTimeout
  | shortJoinTimeout
  | deflateLevelTooHigh
  | zeroCertValidity
deriving DecidableEq, Repr

namespace ConfigFault

/- The setting that is wrong. -/
def field : ConfigFault → String
  | emptyLineTerminator => "line_terminator"
  | emptyTlsHost => "tls_host"
  | zeroIoTimeout => "io_timeout_ms"
  | shortJoinTimeout => "join_timeout_ms"
  | deflateLevelTooHigh => "deflate_level"
  | zeroCertValidity => "cert_validity_secs"

/- What it would have to be. -/
def reason : ConfigFault → String
  | emptyLineTerminator => "must not be empty"
  | emptyTlsHost => "must not be empty"
  | zeroIoTimeout => "must be positive"
  | shortJoinTimeout => "must be longer than io_timeout_ms"
  | deflateLevelTooHigh => "must be within 0..=9"
  | zeroCertValidity => "must be positive"

/- The text shown for wrong settings. -/
def message
    (f : ConfigFault) : String :=
  "harness config field `" ++ f.field ++ "` " ++ f.reason

end ConfigFault

/-
  Why settings are refused: they cannot be read, or they are
  wrong.
-/
inductive ConfigError where
  | parse
  | invalid (fault : ConfigFault)
deriving DecidableEq, Repr

namespace Config

/- The settings where none are chosen. -/
def standard : Config :=
  {}

/- The highest level of compression. -/
def highestLevel : Nat :=
  9

/- The first thing that is wrong with the settings. -/
def fault?
    (c : Config) : Option ConfigFault :=
  if c.lineTerminator = "" then some .emptyLineTerminator
  else if c.tlsHost = "" then some .emptyTlsHost
  else if c.ioTimeoutMs = 0 then some .zeroIoTimeout
  else if c.joinTimeoutMs ≤ c.ioTimeoutMs then some .shortJoinTimeout
  else if highestLevel < c.deflateLevel then some .deflateLevelTooHigh
  else if c.certValiditySecs = 0 then some .zeroCertValidity
  else none

/- Accept the settings or say what is wrong with them. -/
def validate
    (c : Config) : Except ConfigError Unit :=
  match c.fault? with
  | none => .ok ()
  | some fault => .error (.invalid fault)

------------------------------------------------------------
-- Reading settings
------------------------------------------------------------

/- The limit on a single call. -/
def ioTimeout
    (c : Config) : Duration :=
  .ofMillis c.ioTimeoutMs

/- The limit on a whole run. -/
def joinTimeout
    (c : Config) : Duration :=
  .ofMillis c.joinTimeoutMs

/- How long the certificate is good. -/
def certValidity
    (c : Config) : Duration :=
  .ofSeconds c.certValiditySecs

------------------------------------------------------------
-- Changing settings
------------------------------------------------------------

/- The highest number that a setting holds. -/
def highestNumber : Nat :=
  Nat.pow 2 64 - 1

/-
  The whole milliseconds of a span, or the highest number if
  they are more.
-/
def storedMillis
    (d : Duration) : Nat :=
  min d.millis highestNumber

/- Change the name under which the peer is dialled. -/
def withServerName
    (c : Config)
    (name : String) : Config :=
  { c with serverName := name }

/- Change the host of the certificate. -/
def withTlsHost
    (c : Config)
    (host : String) : Config :=
  { c with tlsHost := host }

/- Change the limit on a single call. -/
def withIoTimeout
    (c : Config)
    (d : Duration) : Config :=
  { c with ioTimeoutMs := storedMillis d }

/- Change the limit on a whole run. -/
def withJoinTimeout
    (c : Config)
    (d : Duration) : Config :=
  { c with joinTimeoutMs := storedMillis d }

/- Change the capacity of the pipe. -/
def withBufferSize
    (c : Config)
    (n : Nat) : Config :=
  { c with bufferSize := n }

/- Change what ends a line. -/
def withLineTerminator
    (c : Config)
    (terminator : String) : Config :=
  { c with lineTerminator := terminator }

/- Change the level of compression. -/
def withDeflateLevel
    (c : Config)
    (level : Nat) : Config :=
  { c with deflateLevel := level }

/-
  Change how long the certificate is good; only whole seconds
  count.
-/
def withCertValidity
    (c : Config)
    (d : Duration) : Config :=
  { c with certValiditySecs := d.seconds }

end Config

end Parley
