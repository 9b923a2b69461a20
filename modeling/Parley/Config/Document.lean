import Parley.Config.Basic
import Parley.Config.Toml
/-
  This file reads settings from a document: settings that do
  not occur keep their defaults, and keys that are unknown or
  occur twice are refused.

  Key definitions include:
    * `Config.set?`
    * `Config.setAll?`
    * `Config.ofToml`
-/

namespace Parley.Config

------------------------------------------------------------
-- Single settings
------------------------------------------------------------

/- A number that is stored in the given count of bits. -/
def number?
    (bits : Nat) : Toml.Value → Option Nat
  | .integer n => if 0 ≤ n ∧ n < Int.pow 2 bits then some n.toNat else none
  | .text _ => none

/- A text. -/
def text? : Toml.Value → Option String
  | .text s => some s
  | .integer _ => none

/- Give a setting the value that stands under its key. -/
def set?
    (c : Config)
    (key : String)
    (v : Toml.Value) : Option Config :=
  match key with
  | "server_name" => (text? v).map fun s => { c with serverName := s }
  | "tls_host" => (text? v).map fun s => { c with tlsHost := s }
  | "io_timeout_ms" => (number? 64 v).map fun n => { c with ioTimeoutMs := n }
  | "join_timeout_ms" => (number? 64 v).map fun n => { c with joinTimeoutMs := n }
  | "buffer_size" => (number? 64 v).map fun n => { c with bufferSize := n }
  | "line_terminator" => (text? v).map fun s => { c with lineTerminator := s }
  | "deflate_level" => (number? 32 v).map fun n => { c with deflateLevel := n }
  | "cert_validity_secs" => (number? 64 v).map fun n => { c with certValiditySecs := n }
  | _ => none

------------------------------------------------------------
-- Documents
------------------------------------------------------------

/-
  Give settings the values of a document, none of them twice.
-/
def setAll?
    (seen : List String)
    (c : Config) : List (String × Toml.Value) → Option Config
  | [] => some c
  | (key, v) :: rest =>
    if seen.contains key then none
    else (c.set? key v).bind fun c => setAll? (key :: seen) c rest

/-
  The settings of a document, if it can be read and they are
  valid.
-/
def ofToml
    (source : String) : Except ConfigError Config :=
  match (Toml.read? source).bind (setAll? [] standard) with
  | none => .error .parse
  | some c => c.validate.map fun () => c

end Parley.Config
