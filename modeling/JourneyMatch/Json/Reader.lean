import JourneyMatch.Json.Printer

/-
  This file reads JSON from a text. The first fault in the
  order of the text is the one reported.

  A reader of values counts the arrays and objects around it
  and refuses to go deeper than allowed. A value that nobody
  asks for is passed over: its nesting is not counted, its
  numbers may be of any size, and its texts may hold lone
  surrogates.

  Key definitions include:
    * `skipBlanks`
    * `readLiteral`
    * `readItems`
    * `readMembers`
    * `Json.read`
    * `skipValue`
    * `Json.parse`
-/

namespace JourneyMatch

------------------------------------------------------------
-- Blanks and words
------------------------------------------------------------

/- The characters that may stand between tokens. -/
def isBlank
    (c : Char) : Bool :=
  c = ' ' || c = '\t' || c = '\n' || c = '\r'

/- Drops the blanks at the front. -/
def skipBlanks
    (cs : List Char) : List Char :=
  cs.dropWhile isBlank

/- Passes over the given characters, the rest of a word. -/
def readWord :
    List Char → Reader Unit
  | [], cs => .ok ((), cs)
  | _ :: _, [] => .error .endOfText
  | w :: word, c :: cs =>
      if c = w then
        readWord word cs
      else
        .error (.malformed .unknownWord)

/- Passes over the colon after a key. -/
def readColon : Reader Unit := fun cs =>
  match skipBlanks cs with
  | [] => .error .endOfText
  | ':' :: rest => .ok ((), rest)
  | _ => .error (.malformed .expectedColon)

------------------------------------------------------------
-- Numbers
------------------------------------------------------------

/- A decimal digit. -/
def isDigit
    (c : Char) : Bool :=
  '0' ≤ c && c ≤ '9'

/- The value of a decimal digit. -/
def digitValue
    (c : Char) : Nat :=
  c.toNat - '0'.toNat

/- The digits at the front of a text, by value. -/
def readDigits
    (cs : List Char) : List Nat × List Char :=
  ((cs.takeWhile isDigit).map digitValue, cs.dropWhile isDigit)

/- The digits at the front of a text, of which there is one. -/
def readSomeDigits : Reader (List Nat) := fun cs =>
  match cs with
  | [] => .error .endOfText
  | c :: _ =>
      if isDigit c then
        .ok (readDigits cs)
      else
        .error (.malformed .badNumber)

/-
  The digits before the point. A zero stands alone.
-/
def readWhole : Reader (List Nat) := fun cs => do
  let (digits, rest) ← readSomeDigits cs
  match digits with
  | 0 :: _ :: _ => .error (.malformed .badNumber)
  | _ => .ok (digits, rest)

/- The point and the digits after it, if there is a point. -/
def readFraction : Reader (Option (List Nat))
  | '.' :: cs => do
      let (digits, rest) ← readSomeDigits cs
      .ok (some digits, rest)
  | cs => .ok (none, cs)

/- The natural with the given decimal digits. -/
def ofDigits
    (digits : List Nat) : Nat :=
  digits.foldl (fun n digit => n * 10 + digit) 0

/- The digits of an exponent after its mark. -/
def readExponentDigits : Reader Int
  | '-' :: cs => do
      let (digits, rest) ← readSomeDigits cs
      .ok (-(ofDigits digits : Int), rest)
  | '+' :: cs => do
      let (digits, rest) ← readSomeDigits cs
      .ok ((ofDigits digits : Int), rest)
  | cs => do
      let (digits, rest) ← readSomeDigits cs
      .ok ((ofDigits digits : Int), rest)

/- The exponent, if there is one. -/
def readExponent : Reader (Option Int)
  | 'e' :: cs => do
      let (exponent, rest) ← readExponentDigits cs
      .ok (some exponent, rest)
  | 'E' :: cs => do
      let (exponent, rest) ← readExponentDigits cs
      .ok (some exponent, rest)
  | cs => .ok (none, cs)

/- Reads a number as it is written, after its sign. -/
def readLiteral
    (negative : Bool) : Reader Literal := fun cs => do
  let (whole, rest) ← readWhole cs
  let (fraction, rest) ← readFraction rest
  let (exponent, rest) ← readExponent rest
  .ok
    ({ negative
       whole
       fraction := fraction.getD []
       exponent
       pointed := fraction.isSome }, rest)

/- Reads a number, after its sign. -/
def readNumber
    (negative : Bool) : Reader Number := fun cs => do
  let (literal, rest) ← readLiteral negative cs
  match literal.number? with
  | some number => .ok (number, rest)
  | none => .error (.malformed .numberTooLarge)

/-
  Passes over a number, after its sign. One that is cut short
  is a bad number, and none is too large.
-/
def skipNumber : Reader Unit := fun cs =>
  match readLiteral false cs with
  | .ok (_, rest) => .ok ((), rest)
  | .error _ => .error (.malformed .badNumber)

------------------------------------------------------------
-- Arrays and objects
------------------------------------------------------------

/-
  Where the next item of an array begins; none at the closing
  bracket, which is not passed.
-/
def nextItem
    (first : Bool)
    (cs : List Char) :
    Except ReadError (Option (List Char)) :=
  match skipBlanks cs with
  | [] => .error .endOfText
  | ']' :: _ => .ok none
  | ',' :: rest =>
      if first then
        .ok (some (',' :: rest))
      else
        match skipBlanks rest with
        | [] => .error .endOfText
        | ']' :: _ => .error (.malformed .trailingComma)
        | item => .ok (some item)
  | item =>
      if first then
        .ok (some item)
      else
        .error (.malformed .expectedComma)

/-
  Passes over the closing bracket, where an array has been
  read as far as it was asked for.
-/
def closeArray : Reader Unit := fun cs =>
  match skipBlanks cs with
  | [] => .error .endOfText
  | ']' :: rest => .ok ((), rest)
  | ',' :: rest =>
      match skipBlanks rest with
      | ']' :: _ => .error (.malformed .trailingComma)
      | _ => .error (.malformed .trailingText)
  | _ => .error (.malformed .trailingText)

/-
  Reads the items of an array up to its closing bracket. The
  number bounds the items.
-/
def readItemsWithin
    {α : Type}
    (item : Reader α) :
    Nat → Bool → Reader (List α)
  | 0, _, _ => .error .endOfText
  | fuel + 1, first, cs => do
      match ← nextItem first cs with
      | none =>
          let (_, rest) ← closeArray cs
          .ok ([], rest)
      | some cs =>
          let (x, rest) ← item cs
          let (xs, rest) ←
            readItemsWithin item fuel false rest
          .ok (x :: xs, rest)

/- Reads an array whose opening bracket has been passed. -/
def readItems
    {α : Type}
    (item : Reader α) : Reader (List α) := fun cs =>
  readItemsWithin item (cs.length + 1) true cs

/-
  What follows the quote of the next key of an object; none
  after the closing brace.
-/
inductive NextKey where
  | key (rest : List Char)
  | closed (rest : List Char)

/- Finds the next key of an object, or its end. -/
def nextKey
    (first : Bool)
    (cs : List Char) : Except ReadError NextKey :=
  match skipBlanks cs with
  | [] => .error .endOfText
  | '}' :: rest => .ok (.closed rest)
  | '"' :: rest =>
      if first then
        .ok (.key rest)
      else
        .error (.malformed .expectedComma)
  | ',' :: rest =>
      if first then
        .error (.malformed .keyNotText)
      else
        match skipBlanks rest with
        | [] => .error .endOfText
        | '"' :: rest => .ok (.key rest)
        | '}' :: _ => .error (.malformed .trailingComma)
        | _ => .error (.malformed .keyNotText)
  | _ =>
      if first then
        .error (.malformed .keyNotText)
      else
        .error (.malformed .expectedComma)

/-
  Reads the members of an object up to its closing brace. The
  key has been read when a member is handed to `member`, the
  colon has not. The number bounds the members.
-/
def readMembersWithin
    {σ : Type}
    (member : String → σ → Reader σ) :
    Nat → Bool → σ → Reader σ
  | 0, _, _, _ => .error .endOfText
  | fuel + 1, first, state, cs => do
      match ← nextKey first cs with
      | .closed rest => .ok (state, rest)
      | .key rest =>
          let (key, rest) ← Quoted.read rest
          let (state, rest) ← member key state rest
          readMembersWithin member fuel false state rest

/- Reads an object whose opening brace has been passed. -/
def readMembers
    {σ : Type}
    (member : String → σ → Reader σ)
    (state : σ) : Reader σ := fun cs =>
  readMembersWithin member (cs.length + 1) true state cs

------------------------------------------------------------
-- Values
------------------------------------------------------------

/- Reads a member and puts it in front of those before. -/
def pushMember
    (value : Reader Json)
    (key : String)
    (members : List (String × Json)) :
    Reader (List (String × Json)) := fun cs => do
  let (_, rest) ← readColon cs
  let (v, rest) ← value rest
  .ok ((key, v) :: members, rest)

/-
  Reads a value with at most the given number of arrays and
  objects around its deepest part.
-/
def Json.read :
    Nat → Reader Json
  | depth, cs =>
      match skipBlanks cs with
      | [] => .error .endOfText
      | 'n' :: rest => do
          let (_, rest) ← readWord ['u', 'l', 'l'] rest
          .ok (.null, rest)
      | 't' :: rest => do
          let (_, rest) ← readWord ['r', 'u', 'e'] rest
          .ok (.bool true, rest)
      | 'f' :: rest => do
          let (_, rest) ← readWord ['a', 'l', 's', 'e'] rest
          .ok (.bool false, rest)
      | '"' :: rest => do
          let (text, rest) ← Quoted.read rest
          .ok (.string text, rest)
      | '-' :: rest => do
          let (n, rest) ← readNumber true rest
          .ok (.number n, rest)
      | '[' :: rest =>
          match depth with
          | 0 => .error (.malformed .tooDeep)
          | depth + 1 => do
              let (items, rest) ←
                readItems (Json.read depth) rest
              .ok (.array items, rest)
      | '{' :: rest =>
          match depth with
          | 0 => .error (.malformed .tooDeep)
          | depth + 1 => do
              let (members, rest) ←
                readMembers
                  (pushMember (Json.read depth)) [] rest
              .ok (.object members.reverse, rest)
      | c :: rest =>
          if isDigit c then do
            let (n, rest) ← readNumber false (c :: rest)
            .ok (.number n, rest)
          else
            .error (.malformed .expectedValue)

------------------------------------------------------------
-- Values that nobody asks for
------------------------------------------------------------

/-
  Passes over the members of an object up to its closing
  brace.
-/
def skipMembersWithin
    (value : Reader Unit) :
    Nat → Bool → Reader Unit
  | 0, _, _ => .error .endOfText
  | fuel + 1, first, cs => do
      match ← nextKey first cs with
      | .closed rest => .ok ((), rest)
      | .key rest =>
          let (_, rest) ← Quoted.skip rest
          let (_, rest) ← readColon rest
          let (_, rest) ← value rest
          skipMembersWithin value fuel false rest

/-
  Passes over a value. The number bounds its nesting and is
  taken from the length of the text, which is never less.
-/
def skipWithin :
    Nat → Reader Unit
  | fuel, cs =>
      match skipBlanks cs with
      | [] => .error .endOfText
      | 'n' :: rest => readWord ['u', 'l', 'l'] rest
      | 't' :: rest => readWord ['r', 'u', 'e'] rest
      | 'f' :: rest => readWord ['a', 'l', 's', 'e'] rest
      | '"' :: rest => Quoted.skip rest
      | '-' :: rest => skipNumber rest
      | '[' :: rest =>
          match fuel with
          | 0 => .error .endOfText
          | fuel + 1 => do
              let (_, rest) ←
                readItems (skipWithin fuel) rest
              .ok ((), rest)
      | '{' :: rest =>
          match fuel with
          | 0 => .error .endOfText
          | fuel + 1 =>
              skipMembersWithin
                (skipWithin fuel) (rest.length + 1) true rest
      | c :: rest =>
          if isDigit c then
            skipNumber (c :: rest)
          else
            .error (.malformed .expectedValue)

/- Passes over a value. -/
def skipValue : Reader Unit := fun cs =>
  skipWithin cs.length cs

------------------------------------------------------------
-- Whole texts
------------------------------------------------------------

/- The nesting that is allowed in a text. -/
def greatestDepth : Nat :=
  127

/- Nothing but blanks may follow a value. -/
def readEnd
    (cs : List Char) : Except ReadError Unit :=
  match skipBlanks cs with
  | [] => .ok ()
  | _ => .error (.malformed .trailingText)

/- Reads a whole text. -/
def readWhole?
    {α : Type}
    (reader : Reader α)
    (text : String) : Except ReadError α := do
  let (x, rest) ← reader text.toList
  readEnd rest
  .ok x

end JourneyMatch
