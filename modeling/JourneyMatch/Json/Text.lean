import JourneyMatch.Json.Error

/-
  This file defines how a text stands between quotes: what is
  escaped when it is written, and what an escape stands for
  when it is read.

  Key definitions include:
    * `Quoted.encode`
    * `Quoted.write`
    * `Quoted.read`
    * `Quoted.skip`
-/

namespace JourneyMatch

/-
  Reads a value from the front of a text and gives the rest.
-/
abbrev Reader (α : Type) :=
  List Char → Except ReadError (α × List Char)

namespace Quoted

------------------------------------------------------------
-- Writing
------------------------------------------------------------

/- A hexadecimal digit, in lower case. -/
def hexDigit
    (n : Nat) : Char :=
  Nat.digitChar (n % 16)

/-
  A character between quotes: the quote, the backslash and
  the control characters are escaped, and nothing else is.
-/
def encodeChar
    (c : Char) : List Char :=
  if c = '"' then ['\\', '"']
  else if c = '\\' then ['\\', '\\']
  else if c = '\n' then ['\\', 'n']
  else if c = '\r' then ['\\', 'r']
  else if c = '\t' then ['\\', 't']
  else if c = '\x08' then ['\\', 'b']
  else if c = '\x0c' then ['\\', 'f']
  else if c.toNat < 0x20 then
    ['\\', 'u', '0', '0', hexDigit (c.toNat / 16), hexDigit c.toNat]
  else [c]

/- The characters that stand for a text between quotes. -/
def encode
    (cs : List Char) : List Char :=
  cs.flatMap encodeChar

/- A text between quotes. -/
def write
    (s : String) : List Char :=
  '"' :: (encode s.toList ++ ['"'])

------------------------------------------------------------
-- Reading one character
------------------------------------------------------------

/- The value of a hexadecimal digit. -/
def hexValue?
    (c : Char) : Option Nat :=
  if '0' ≤ c ∧ c ≤ '9' then some (c.toNat - '0'.toNat)
  else if 'a' ≤ c ∧ c ≤ 'f' then some (c.toNat - 'a'.toNat + 10)
  else if 'A' ≤ c ∧ c ≤ 'F' then some (c.toNat - 'A'.toNat + 10)
  else none

/- The number of bytes that a text takes. -/
def byteCount
    (cs : List Char) : Nat :=
  (String.ofList cs).utf8ByteSize

/-
  The four hexadecimal digits of an escape. The text ends too
  early when fewer than four bytes are left, whatever these
  are.
-/
def readHex : Reader Nat
  | a :: b :: c :: d :: rest =>
      match hexValue? a, hexValue? b, hexValue? c, hexValue? d with
      | some a, some b, some c, some d =>
          .ok (((a * 16 + b) * 16 + c) * 16 + d, rest)
      | _, _, _, _ => .error (.malformed .badEscape)
  | cs =>
      if byteCount cs < 4 then
        .error .endOfText
      else
        .error (.malformed .badEscape)

/-
  What follows the digits of an escape: a trailing surrogate
  stands alone in error, and a leading one needs a trailing
  one after it.
-/
def readSurrogate
    (unit : Nat) : Reader Char := fun cs =>
  if 0xDC00 ≤ unit ∧ unit ≤ 0xDFFF then
    .error (.malformed .loneSurrogate)
  else if unit < 0xD800 ∨ 0xDBFF < unit then
    .ok (Char.ofNat unit, cs)
  else
    match cs with
    | [] => .error .endOfText
    | ['\\'] => .error .endOfText
    | '\\' :: 'u' :: rest => do
        let (low, rest) ← readHex rest
        if low < 0xDC00 ∨ 0xDFFF < low then
          .error (.malformed .loneSurrogate)
        else
          let high := (unit - 0xD800) * 1024
          .ok (Char.ofNat (high + (low - 0xDC00) + 0x10000), rest)
    | _ => .error (.malformed .loneSurrogate)

/- What a short escape stands for. -/
def shortEscape? : Char → Option Char
  | '"' => some '"'
  | '\\' => some '\\'
  | '/' => some '/'
  | 'b' => some '\x08'
  | 'f' => some '\x0c'
  | 'n' => some '\n'
  | 'r' => some '\r'
  | 't' => some '\t'
  | _ => none

/- Reads an escape, without its backslash. -/
def readEscape : Reader Char
  | [] => .error .endOfText
  | 'u' :: rest => do
      let (unit, rest) ← readHex rest
      readSurrogate unit rest
  | c :: rest =>
      match shortEscape? c with
      | some c => .ok (c, rest)
      | none => .error (.malformed .badEscape)

/-
  Passes over an escape, without its backslash. A surrogate
  may stand alone here.
-/
def skipEscape : Reader Unit
  | [] => .error .endOfText
  | 'u' :: rest => do
      let (_, rest) ← readHex rest
      .ok ((), rest)
  | c :: rest =>
      match shortEscape? c with
      | some _ => .ok ((), rest)
      | none => .error (.malformed .badEscape)

------------------------------------------------------------
-- Reading a text
------------------------------------------------------------

/-
  Reads the characters up to the closing quote. The first
  argument bounds their number.
-/
def readUpTo :
    Nat → Reader (List Char)
  | 0, _ => .error .endOfText
  | _ + 1, [] => .error .endOfText
  | _ + 1, '"' :: rest => .ok ([], rest)
  | fuel + 1, '\\' :: rest => do
      let (c, rest) ← readEscape rest
      let (cs, rest) ← readUpTo fuel rest
      .ok (c :: cs, rest)
  | fuel + 1, c :: rest => do
      if c.toNat < 0x20 then
        .error (.malformed .controlCharacter)
      else
        let (cs, rest) ← readUpTo fuel rest
        .ok (c :: cs, rest)

/- Reads a text whose opening quote has been passed. -/
def read : Reader String := fun cs => do
  let (text, rest) ← readUpTo (cs.length + 1) cs
  .ok (String.ofList text, rest)

/- Passes over the characters up to the closing quote. -/
def skipUpTo :
    Nat → Reader Unit
  | 0, _ => .error .endOfText
  | _ + 1, [] => .error .endOfText
  | _ + 1, '"' :: rest => .ok ((), rest)
  | fuel + 1, '\\' :: rest => do
      let (_, rest) ← skipEscape rest
      skipUpTo fuel rest
  | fuel + 1, c :: rest =>
      if c.toNat < 0x20 then
        .error (.malformed .controlCharacter)
      else
        skipUpTo fuel rest

/- Passes over a text whose opening quote has been passed. -/
def skip : Reader Unit := fun cs =>
  skipUpTo (cs.length + 1) cs

end Quoted

end JourneyMatch
