/-
  This file decides which texts name a host: addresses of both
  kinds, and names made of labels.

  Key definitions include:
    * `isDnsName`
    * `parseIpv4?`
    * `parseIpv6?`
    * `ipv6Text`
    * `HostName`
    * `HostName.ofString?`
    * `HostName.text`
-/

namespace Parley.Tls

------------------------------------------------------------
-- Names
------------------------------------------------------------

/- The longest name. -/
def longestName : Nat :=
  253

/- The longest label. -/
def longestLabel : Nat :=
  63

/- A decimal digit. -/
def isDigit
    (c : Char) : Bool :=
  '0' ≤ c && c ≤ '9'

/- What a label is made of, besides hyphens. -/
def isLabelChar
    (c : Char) : Bool :=
  isDigit c || ('a' ≤ c && c ≤ 'z') || ('A' ≤ c && c ≤ 'Z') || c == '_'

/-
  A label: not too long, and neither first nor last a hyphen.
-/
def isLabel
    (label : List Char) : Bool :=
  !label.isEmpty && label.length ≤ longestLabel &&
    label.all (fun c => isLabelChar c || c == '-') &&
    label.head? != some '-' && label.getLast? != some '-'

/- The parts of a text between single characters. -/
def splitAt
    (sep : Char) : List Char → List (List Char)
  | [] => [[]]
  | c :: rest =>
    if c = sep then [] :: splitAt sep rest
    else
      match splitAt sep rest with
      | part :: parts => (c :: part) :: parts
      | [] => [[c]]

/-
  A name: labels with dots between them and possibly one more
  dot at the end. The last label is not all digits, which sets
  names apart from addresses.
-/
def isDnsName
    (name : List Char) : Bool :=
  let parts := splitAt '.' name
  let labels := if parts.getLast? = some [] then parts.dropLast else parts
  name.length ≤ longestName && !labels.isEmpty && labels.all isLabel &&
    (labels.getLast?.elim false fun label => !label.all isDigit)

------------------------------------------------------------
-- Addresses of four bytes
------------------------------------------------------------

/- The value of decimal digits. -/
def decimalValue
    (digits : List Char) : Nat :=
  digits.foldl (fun n c => 10 * n + (c.toNat - '0'.toNat)) 0

/-
  One byte of an address: up to three digits without a
  superfluous zero.
-/
def parseByte?
    (part : List Char) : Option Nat :=
  if part.isEmpty || 3 < part.length || !part.all isDigit ||
      (part.head? = some '0' && 1 < part.length) || 255 < decimalValue part then none
  else some (decimalValue part)

/- Four bytes between dots. -/
def parseIpv4?
    (text : List Char) : Option (List Nat) :=
  let parts := splitAt '.' text
  if parts.length = 4 then parts.mapM parseByte? else none

/- An address of four bytes as it is written. -/
def ipv4Text
    (bytes : List Nat) : String :=
  ".".intercalate (bytes.map toString)

------------------------------------------------------------
-- Addresses of eight groups
------------------------------------------------------------

/- The value of a hexadecimal digit. -/
def hexDigit?
    (c : Char) : Option Nat :=
  if isDigit c then some (c.toNat - '0'.toNat)
  else if 'a' ≤ c ∧ c ≤ 'f' then some (c.toNat - 'a'.toNat + 10)
  else if 'A' ≤ c ∧ c ≤ 'F' then some (c.toNat - 'A'.toNat + 10)
  else none

/- One group: up to four hexadecimal digits. -/
def parseGroup?
    (part : List Char) : Option Nat :=
  if part.isEmpty || 4 < part.length then none
  else (part.mapM hexDigit?).map fun digits => digits.foldl (fun n d => 16 * n + d) 0

/-
  Groups between colons; the last two may be written as an
  address of four bytes.
-/
def parseGroups?
    (parts : List (List Char)) : Option (List Nat) :=
  match parts with
  | [] => some []
  | [last] =>
    match parseGroup? last with
    | some g => some [g]
    | none =>
      match parseIpv4? last with
      | some [a, b, c, d] => some [256 * a + b, 256 * c + d]
      | _ => none
  | part :: rest =>
    match parseGroup? part, parseGroups? rest with
    | some g, some gs => some (g :: gs)
    | _, _ => none

/-
  The parts of a text before and after the first two colons in a
  row.
-/
def cutAtGap : List Char → Option (List Char × List Char)
  | [] => none
  | c :: rest =>
    if c = ':' ∧ rest.head? = some ':' then some ([], rest.drop 1)
    else (cutAtGap rest).map fun cut => (c :: cut.1, cut.2)

/- The groups of a text, none for the empty text. -/
def groupsOf?
    (text : List Char) : Option (List Nat) :=
  if text.isEmpty then some [] else parseGroups? (splitAt ':' text)

/-
  Eight groups, or fewer around one gap that stands for at least
  one group of zeros.
-/
def parseIpv6?
    (text : List Char) : Option (List Nat) :=
  match cutAtGap text with
  | none =>
    match groupsOf? text with
    | some gs => if gs.length = 8 then some gs else none
    | none => none
  | some (before, after) =>
    if before.contains '.' then none
    else
      match groupsOf? before, groupsOf? after with
      | some head, some tail =>
        if head.length + tail.length ≤ 7 then
          some (head ++ List.replicate (8 - head.length - tail.length) 0 ++ tail)
        else none
      | _, _ => none

/- How many groups of zeros begin a list. -/
def zeroRun : List Nat → Nat
  | 0 :: rest => zeroRun rest + 1
  | _ => 0

/-
  The first of the longest runs of zero groups: where it begins
  and how long it is.
-/
def longestZeroRun
    (start : Nat) : List Nat → Nat × Nat
  | [] => (start, 0)
  | g :: rest =>
    let here := (start, zeroRun (g :: rest))
    let later := longestZeroRun (start + 1) rest
    if here.2 < later.2 then later else here

/- A group as it is written. -/
def groupText
    (g : Nat) : String :=
  String.ofList (Nat.toDigits 16 g)

/- Groups with colons between them. -/
def groupsText
    (gs : List Nat) : String :=
  ":".intercalate (gs.map groupText)

/-
  An address of eight groups as it is written: an embedded
  address of four bytes keeps its own form, and the longest run
  of at least two zero groups becomes a gap.
-/
def ipv6Text
    (gs : List Nat) : String :=
  if gs.take 6 = [0, 0, 0, 0, 0, 0xFFFF] then
    "::ffff:" ++ ipv4Text ((gs.drop 6).flatMap fun g => [g / 256, g % 256])
  else
    let (start, length) := longestZeroRun 0 gs
    if 1 < length then groupsText (gs.take start) ++ "::" ++ groupsText (gs.drop (start + length))
    else groupsText gs

------------------------------------------------------------
-- Host names
------------------------------------------------------------

/- What a certificate is issued to. -/
inductive HostName where
  | dns (name : String)
  | ipv4 (bytes : List Nat)
  | ipv6 (groups : List Nat)
deriving DecidableEq, Repr

namespace HostName

/- The host that a text names. -/
def ofString?
    (text : String) : Option HostName :=
  let chars := text.toList
  if isDnsName chars then some (.dns text)
  else
    match parseIpv4? chars with
    | some bytes => some (.ipv4 bytes)
    | none => (parseIpv6? chars).map .ipv6

/- The one way in which a host is written. -/
def text : HostName → String
  | dns name => name
  | ipv4 bytes => ipv4Text bytes
  | ipv6 groups => ipv6Text groups

end HostName

end Parley.Tls
