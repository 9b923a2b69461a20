import Parley.Text.Unprintable
import Parley.Text.Extending
/-
  This file gives the quoted form of a text: double quotes
  around it, and an escape for every character that would not
  show as itself.

  Key definitions include:
    * `Text.isPrintable`
    * `Text.isExtending`
    * `Text.escape`
    * `Text.quote`
-/

namespace Parley.Text

------------------------------------------------------------
-- Character classes
------------------------------------------------------------

/- Whether a code point lies in one of the ranges. -/
def inRanges
    (ranges : List (Nat × Nat))
    (n : Nat) : Bool :=
  ranges.any fun r => r.1 ≤ n && n ≤ r.2

/- Whether a character shows as itself. -/
def isPrintable
    (c : Char) : Bool :=
  !inRanges unprintableRanges c.toNat

/- Whether a character attaches to the one before it. -/
def isExtending
    (c : Char) : Bool :=
  inRanges extendingRanges c.toNat

------------------------------------------------------------
-- Quoting
------------------------------------------------------------

/- A code point in lower-case hexadecimal between braces. -/
def codeEscape
    (c : Char) : List Char :=
  ['\\', 'u', '\x7b'] ++ Nat.toDigits 16 c.toNat ++ ['\x7d']

/-
  The written form of one character: six have a letter of their
  own, one that does not show as itself is written by its code
  point, and an apostrophe stays as it is.
-/
def escape
    (c : Char) : List Char :=
  if c = '\x00' then ['\\', '0']
  else if c = '\t' then ['\\', 't']
  else if c = '\r' then ['\\', 'r']
  else if c = '\n' then ['\\', 'n']
  else if c = '\\' then ['\\', '\\']
  else if c = '"' then ['\\', '"']
  else if ' ' ≤ c ∧ c ≤ '~' then [c]
  else if isExtending c then codeEscape c
  else if isPrintable c then [c]
  else codeEscape c

/-
  A text between double quotes, with every character in its
  written form.
-/
def quote
    (s : String) : String :=
  String.ofList ('"' :: (s.toList.flatMap escape ++ ['"']))

end Parley.Text
