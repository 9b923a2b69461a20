import Parley.Bytes
/-
  This file reads bytes as UTF-8 text and never fails: what is
  not well formed becomes the replacement character.

  Key definitions include:
    * `Text.scalarAt`
    * `Text.lossyChars`
    * `Text.ofBytes`
-/

namespace Parley.Text

------------------------------------------------------------
-- One character
------------------------------------------------------------

/- The character that stands for bytes that are no text. -/
def replacement : Char :=
  Char.ofNat 0xFFFD

/-
  The payload of a continuation byte inside the given bounds.
-/
def continuation?
    (low high : UInt8)
    (b : UInt8) : Option Nat :=
  if low ≤ b ∧ b ≤ high then some (b.toNat % 64) else none

/-
  The bounds of the second byte after a leading byte, and how
  many bytes follow the leading one. Bounds narrower than a
  continuation byte keep out overlong forms, surrogates and
  values beyond the last code point.
-/
def lead?
    (b : UInt8) : Option (UInt8 × UInt8 × Nat) :=
  if 0xC2 ≤ b ∧ b ≤ 0xDF then some (0x80, 0xBF, 1)
  else if b = 0xE0 then some (0xA0, 0xBF, 2)
  else if b = 0xED then some (0x80, 0x9F, 2)
  else if 0xE1 ≤ b ∧ b ≤ 0xEF then some (0x80, 0xBF, 2)
  else if b = 0xF0 then some (0x90, 0xBF, 3)
  else if 0xF1 ≤ b ∧ b ≤ 0xF3 then some (0x80, 0xBF, 3)
  else if b = 0xF4 then some (0x80, 0x8F, 3)
  else none

/-
  Reads the `left` continuation bytes that are still missing;
  `used` of them have been read and make up `value`. The first
  byte that does not fit ends the attempt, and what was read
  before it becomes one replacement character.
-/
def continueScalar
    (low high : UInt8)
    (value used : Nat) :
    Nat → Bytes → Char × Nat
  | 0, _ => (Char.ofNat value, used)
  | _ + 1, [] => (replacement, used)
  | left + 1, b :: rest =>
    match continuation? low high b with
    | none => (replacement, used)
    | some bits =>
      continueScalar 0x80 0xBF (value * 64 + bits) (used + 1) left rest

/-
  The character that `b` begins, and how many of the bytes after
  `b` belong to it.
-/
def scalarAt
    (b : UInt8)
    (rest : Bytes) : Char × Nat :=
  if b < 0x80 then (Char.ofNat b.toNat, 0)
  else
    match lead? b with
    | none => (replacement, 0)
    | some (low, high, n) =>
      let keep := if n = 1 then 32 else if n = 2 then 16 else 8
      continueScalar low high (b.toNat % keep) 0 n rest

------------------------------------------------------------
-- Whole texts
------------------------------------------------------------

/-
  The characters of a byte string, one replacement character for
  each ill-formed run.
-/
def lossyChars : Bytes → List Char
  | [] => []
  | b :: rest =>
    let (c, n) := scalarAt b rest
    c :: lossyChars (rest.drop n)
termination_by s => s.length
decreasing_by simp only [List.length_drop, List.length_cons]; omega

/- The text of a byte string. -/
def ofBytes
    (s : Bytes) : String :=
  String.ofList (lossyChars s)

end Parley.Text
