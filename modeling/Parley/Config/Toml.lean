/-
  This file reads documents of the TOML format that hold
  nothing but texts and whole numbers under plain keys. Any
  other document, well formed or not, is refused.

  Key definitions include:
    * `Toml.Value`
    * `Toml.integer?`
    * `Toml.lineText?`
    * `Toml.multilineText?`
    * `Toml.line?`
    * `Toml.read?`
-/

namespace Parley.Toml

------------------------------------------------------------
-- Values and characters
------------------------------------------------------------

/- What can stand under a key. -/
inductive Value where
  | text (s : String)
  | integer (n : Int)
deriving DecidableEq, Repr

/-
  What a reader gives: a value and the characters after it, or
  nothing.
-/
abbrev Reading (α : Type) :=
  Option (α × List Char)

/- Characters that separate on one line. -/
def isBlank
    (c : Char) : Bool :=
  c == ' ' || c == '\t'

/-
  Characters that may stand in a comment or a text; a control
  other than the tab may not.
-/
def isPlain
    (c : Char) : Bool :=
  c == '\t' || (' ' ≤ c && c != '\x7f')

/- Characters of a key without quotes. -/
def isBareKeyChar
    (c : Char) : Bool :=
  ('a' ≤ c && c ≤ 'z') || ('A' ≤ c && c ≤ 'Z') || ('0' ≤ c && c ≤ '9') || c == '_' || c == '-'

/- Skip blanks. -/
def skipBlanks
    (s : List Char) : List Char :=
  s.dropWhile isBlank

/- The characters after the end of a line. -/
def newline? : List Char → Option (List Char)
  | '\n' :: rest => some rest
  | '\r' :: '\n' :: rest => some rest
  | _ => none

------------------------------------------------------------
-- Numbers
------------------------------------------------------------

/- The value of a digit in a base up to 16. -/
def digit?
    (base : Nat)
    (c : Char) : Option Nat :=
  let value :=
    if '0' ≤ c ∧ c ≤ '9' then some (c.toNat - '0'.toNat)
    else if 'a' ≤ c ∧ c ≤ 'f' then some (c.toNat - 'a'.toNat + 10)
    else if 'A' ≤ c ∧ c ≤ 'F' then some (c.toNat - 'A'.toNat + 10)
    else none
  value.filter (· < base)

/-
  The number that digits go on to form; single underscores may
  stand between digits.
-/
def digits?
    (base : Nat)
    (value : Nat) : List Char → Option Nat
  | [] => some value
  | '_' :: c :: rest => (digit? base c).bind fun d => digits? base (value * base + d) rest
  | c :: rest => (digit? base c).bind fun d => digits? base (value * base + d) rest

/- A number that begins with a digit. -/
def natural?
    (base : Nat) : List Char → Option Nat
  | [] => none
  | c :: rest => (digit? base c).bind fun d => digits? base d rest

/- A decimal number: no zero stands before other digits. -/
def decimal? : List Char → Option Nat
  | '0' :: _ :: _ => none
  | s => natural? 10 s

/-
  A whole number of 64 bits in one of its four notations; only
  the decimal one has a sign.
-/
def integer?
    (s : List Char) : Option Int :=
  let value : Option Int :=
    match s with
    | '0' :: 'x' :: rest => (natural? 16 rest).map Int.ofNat
    | '0' :: 'o' :: rest => (natural? 8 rest).map Int.ofNat
    | '0' :: 'b' :: rest => (natural? 2 rest).map Int.ofNat
    | '+' :: rest => (decimal? rest).map Int.ofNat
    | '-' :: rest => (decimal? rest).map fun n => -(n : Int)
    | _ => (decimal? s).map Int.ofNat
  value.filter fun n => -Int.pow 2 63 ≤ n ∧ n < Int.pow 2 63

------------------------------------------------------------
-- Texts
------------------------------------------------------------

/-
  The character with a code point that is written in hexadecimal
  digits.
-/
def codePoint?
    (digits : List Char) : Option Char :=
  (digits.mapM (digit? 16)).bind fun ds =>
    let n := ds.foldl (fun n d => 16 * n + d) 0
    if n < 0xD800 ∨ (0xDFFF < n ∧ n < 0x110000) then some (Char.ofNat n) else none

/-
  The character that an escape stands for, after the backslash.
-/
def escape? : List Char → Reading Char
  | 'b' :: rest => some ('\x08', rest)
  | 't' :: rest => some ('\t', rest)
  | 'n' :: rest => some ('\n', rest)
  | 'f' :: rest => some ('\x0c', rest)
  | 'r' :: rest => some ('\r', rest)
  | '"' :: rest => some ('"', rest)
  | '\\' :: rest => some ('\\', rest)
  | 'u' :: rest =>
    if rest.length < 4 then none else (codePoint? (rest.take 4)).map fun c => (c, rest.drop 4)
  | 'U' :: rest =>
    if rest.length < 8 then none else (codePoint? (rest.take 8)).map fun c => (c, rest.drop 8)
  | _ => none

/-
  A text between quotes on one line, from behind the opening
  quote. `quote` is the closing one; escapes are read where
  `escapes` says so.
-/
def lineText?
    (quote : Char)
    (escapes : Bool) : Nat → List Char → Reading (List Char)
  | 0, _ => none
  | _ + 1, [] => none
  | fuel + 1, c :: rest =>
    if c = quote then some ([], rest)
    else if c = '\\' ∧ escapes then
      (escape? rest).bind fun (e, rest) =>
        (lineText? quote escapes fuel rest).map fun (text, rest) => (e :: text, rest)
    else if isPlain c then
      (lineText? quote escapes fuel rest).map fun (text, rest) => (c :: text, rest)
    else none

/- Skip blanks and line ends. -/
def skipBlankLines : List Char → List Char
  | ' ' :: rest => skipBlankLines rest
  | '\t' :: rest => skipBlankLines rest
  | '\n' :: rest => skipBlankLines rest
  | '\r' :: '\n' :: rest => skipBlankLines rest
  | s => s

/-
  The characters after a backslash that ends a line, with blanks
  and line ends skipped.
-/
def joinedLine?
    (s : List Char) : Option (List Char) :=
  (newline? (skipBlanks s)).map skipBlankLines

/-
  A text between triple quotes, from behind the opening ones. Up
  to two quotes may stand before the closing ones; every line
  end counts as one line feed.
-/
def multilineText?
    (quote : Char)
    (escapes : Bool) : Nat → List Char → Reading (List Char)
  | 0, _ => none
  | _ + 1, [] => none
  | fuel + 1, c :: rest =>
    if c = quote then
      let run := ((c :: rest).takeWhile (· = quote)).length
      if run < 3 then
        (multilineText? quote escapes fuel rest).map fun (text, rest) => (c :: text, rest)
      else
        let inside := min (run - 3) 2
        some (List.replicate inside quote, (c :: rest).drop (inside + 3))
    else if c = '\\' ∧ escapes then
      match joinedLine? rest with
      | some rest => multilineText? quote escapes fuel rest
      | none =>
        (escape? rest).bind fun (e, rest) =>
          (multilineText? quote escapes fuel rest).map fun (text, rest) => (e :: text, rest)
    else
      match newline? (c :: rest) with
      | some rest =>
        (multilineText? quote escapes fuel rest).map fun (text, rest) => ('\n' :: text, rest)
      | none =>
        if isPlain c then
          (multilineText? quote escapes fuel rest).map fun (text, rest) => (c :: text, rest)
        else none

/-
  A text in any of its four notations; a line end right after
  three quotes does not count.
-/
def text?
    (s : List Char) : Reading String :=
  let fuel := s.length + 1
  let afterNewline := fun (rest : List Char) => (newline? rest).getD rest
  let answer :=
    match s with
    | '"' :: '"' :: '"' :: rest => multilineText? '"' true fuel (afterNewline rest)
    | '\'' :: '\'' :: '\'' :: rest => multilineText? '\'' false fuel (afterNewline rest)
    | '"' :: rest => lineText? '"' true fuel rest
    | '\'' :: rest => lineText? '\'' false fuel rest
    | _ => none
  answer.map fun (text, rest) => (String.ofList text, rest)

------------------------------------------------------------
-- Lines and documents
------------------------------------------------------------

/- A key: bare, or a text on one line. -/
def key?
    (s : List Char) : Reading String :=
  match s with
  | '"' :: rest =>
    (lineText? '"' true (rest.length + 1) rest).map fun (k, rest) => (String.ofList k, rest)
  | '\'' :: rest =>
    (lineText? '\'' false (rest.length + 1) rest).map fun (k, rest) => (String.ofList k, rest)
  | _ =>
    match s.takeWhile isBareKeyChar with
    | [] => none
    | k => some (String.ofList k, s.dropWhile isBareKeyChar)

/- Whether a character can belong to a number. -/
def isNumberChar
    (c : Char) : Bool :=
  isBareKeyChar c || c == '+' || c == '.' || c == ':'

/- A text or a whole number. -/
def value?
    (s : List Char) : Reading Value :=
  match s with
  | '"' :: _ => (text? s).map fun (t, rest) => (.text t, rest)
  | '\'' :: _ => (text? s).map fun (t, rest) => (.text t, rest)
  | _ => (integer? (s.takeWhile isNumberChar)).map fun n => (.integer n, s.dropWhile isNumberChar)

/-
  What may stand at the end of a line: blanks, a comment, and
  the line end or the last one.
-/
def lineEnd?
    (s : List Char) : Option (List Char) :=
  let s := skipBlanks s
  let s := if s.head? = some '#' then s.dropWhile isPlain else s
  if s = [] then some [] else newline? s

/- One line: a key with its value, or nothing. -/
def line?
    (s : List Char) : Reading (Option (String × Value)) :=
  match lineEnd? s with
  | some rest => some (none, rest)
  | none =>
    (key? (skipBlanks s)).bind fun (k, rest) =>
      match skipBlanks rest with
      | '=' :: rest =>
        (value? (skipBlanks rest)).bind fun (v, rest) =>
          (lineEnd? rest).map fun rest => (some (k, v), rest)
      | _ => none

/-
  All lines. Each takes at least one character, so `fuel` lines
  are enough for as many.
-/
def lines? : Nat → List Char → Option (List (String × Value))
  | _, [] => some []
  | 0, _ => none
  | fuel + 1, s =>
    (line? s).bind fun (entry, rest) =>
      (lines? fuel rest).map fun entries => entry.toList ++ entries

/-
  A document; a mark of the byte order in front of it is
  skipped.
-/
def read?
    (s : String) : Option (List (String × Value)) :=
  let chars := s.toList
  let chars := if chars.head? = some (Char.ofNat 0xFEFF) then chars.drop 1 else chars
  lines? (chars.length + 1) chars

end Parley.Toml
