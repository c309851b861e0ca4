import JourneyMatch.Json.Text
import JourneyMatch.Toml.Scan

/-
  This file defines the texts of TOML: in one line or in
  many, with escapes or without.

  Key definitions include:
    * `readEscape`
    * `readBasic`
    * `readLiteral`
    * `readMany`
    * `readText`
-/

namespace JourneyMatch

namespace Toml

------------------------------------------------------------
-- Escapes
------------------------------------------------------------

/- The character of a code point, if it is one. -/
def codePoint?
    (n : Nat) : Option Char :=
  if n.isValidChar then some (Char.ofNat n) else none

/- Reads the digits of an escape, which have a fixed number. -/
def readCodePoint
    (width : Nat) : Scan Char := fun cs => do
  let digits ← (cs.take width).mapM Quoted.hexValue?
  if digits.length = width then
    let c ← codePoint? (digits.foldl (16 * · + ·) 0)
    some (c, cs.drop width)
  else
    none

/- Reads an escape, without its backslash. -/
def readEscape : Scan Char
  | 'b' :: rest => some ('\x08', rest)
  | 't' :: rest => some ('\t', rest)
  | 'n' :: rest => some ('\n', rest)
  | 'f' :: rest => some ('\x0c', rest)
  | 'r' :: rest => some ('\r', rest)
  | '"' :: rest => some ('"', rest)
  | '\\' :: rest => some ('\\', rest)
  | 'u' :: rest => readCodePoint 4 rest
  | 'U' :: rest => readCodePoint 8 rest
  | _ => none

------------------------------------------------------------
-- Texts in one line
------------------------------------------------------------

/-
  Reads up to the closing double quote. The first argument
  bounds the number of characters.
-/
def readBasicUpTo : Nat → Scan (List Char)
  | 0, _ => none
  | _ + 1, [] => none
  | _ + 1, '"' :: rest => some ([], rest)
  | fuel + 1, '\\' :: rest => do
      let (c, rest) ← readEscape rest
      let (cs, rest) ← readBasicUpTo fuel rest
      some (c :: cs, rest)
  | fuel + 1, c :: rest => do
      if isPlain c then
        let (cs, rest) ← readBasicUpTo fuel rest
        some (c :: cs, rest)
      else
        none

/- Reads a text whose opening double quote has been passed. -/
def readBasic : Scan (List Char) := fun cs =>
  readBasicUpTo (cs.length + 1) cs

/- Reads a text whose opening single quote has been passed. -/
def readLiteral : Scan (List Char) := fun cs =>
  let isOwn := fun c => isPlain c && c != '\''
  match cs.dropWhile isOwn with
  | '\'' :: rest => some (cs.takeWhile isOwn, rest)
  | _ => none

------------------------------------------------------------
-- Texts in many lines
------------------------------------------------------------

/-
  Reads a part of a text in many lines that is no quote. A
  line break counts as one character, and with escapes a
  backslash at the end of a line joins what follows.
-/
def readPart
    (escapes : Bool) : Scan (List Char)
  | '\n' :: rest => some (['\n'], rest)
  | '\r' :: '\n' :: rest => some (['\n'], rest)
  | '\\' :: rest =>
      if escapes then
        match newline? (skipBlanks rest) with
        | some rest => some ([], skipLines rest)
        | none => do
            let (c, rest) ← readEscape rest
            some ([c], rest)
      else
        some (['\\'], rest)
  | c :: rest => if isPlain c then some ([c], rest) else none
  | [] => none

/- How many times a quote stands at the front of a text. -/
def quotesAtFront
    (quote : Char)
    (cs : List Char) : Nat :=
  (cs.takeWhile (· == quote)).length

/-
  Reads up to the closing quotes, which are three. Up to two
  more before them belong to the text.
-/
def readManyUpTo
    (escapes : Bool)
    (quote : Char) : Nat → Scan (List Char)
  | 0, _ => none
  | fuel + 1, cs => do
      let quotes := quotesAtFront quote cs
      if 3 ≤ quotes then
        let own := min (quotes - 3) 2
        some (List.replicate own quote, cs.drop (own + 3))
      else
        let (part, rest) ← readPart escapes cs
        let (parts, rest) ←
          readManyUpTo escapes quote fuel rest
        some (part ++ parts, rest)

/-
  Reads a text in many lines whose opening quotes have been
  passed. A line break right behind them does not count.
-/
def readMany
    (escapes : Bool)
    (quote : Char) : Scan (List Char) := fun cs =>
  readManyUpTo escapes quote (cs.length + 1)
    ((newline? cs).getD cs)

/- Reads a text of any kind. -/
def readText : Scan String
  | '"' :: '"' :: '"' :: rest => do
      let (cs, rest) ← readMany true '"' rest
      some (String.ofList cs, rest)
  | '"' :: rest => do
      let (cs, rest) ← readBasic rest
      some (String.ofList cs, rest)
  | '\'' :: '\'' :: '\'' :: rest => do
      let (cs, rest) ← readMany false '\'' rest
      some (String.ofList cs, rest)
  | '\'' :: rest => do
      let (cs, rest) ← readLiteral rest
      some (String.ofList cs, rest)
  | _ => none

end Toml

end JourneyMatch
